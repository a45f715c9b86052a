import OxmlMcp.Sse.Directory

/-!
# What the bridge shows

The converse of the refinement: what the directory can do, the bridge can, where services receive and
quit as they like. Letters may go into a box that is listed no more, since a `POST` that has found its
session sends when it likes; so the `POST`s of all letters to come are brought that far as soon as
their session is listed.

A guard that is dropped cancels the token of its service, and how soon the service then stops is up to
the SDK. So what the bridge shows lies between two sets: with no letter taken from a box that is
listed no more (`Prompt`), the bridge can show it, and with any it may.

* `Ready`: a state in which each session streams or is closed, and the letters to come are held.
* `Ready.step`: a step of the directory is some steps of the bridge.
* `traces_between`: no run of the bridge shows more than the directory can do with letters that some
  request can carry, and all that is prompt is shown.
-/

namespace OxmlMcp.Sse
open OxmlMcp.Lts OxmlMcp.Http OxmlMcp.Access OxmlMcp.Mpsc OxmlMcp.Mailbox

variable {Msg Reply : Type} {srv : Server Msg Reply}

/-- A message that some request carries past the checks. -/
def Sendable (srv : Server Msg Reply) (m : Msg) : Prop :=
  ∃ headers body, ∀ id, postChecks srv ⟨headers, id, body⟩ = .ok m

/-- `POST` number `p` holds the inbox of `GET` number `g` for the message `m`. -/
def State.Holds (s : State Msg Reply) (g p : Nat) (m : Msg) : Prop :=
  ∃ req, s.posts[p]? = some ⟨req, .holding g m⟩

/-- Different `POST`s hold the inbox of `GET` number `g` for the messages `ms`. -/
def State.Held (s : State Msg Reply) (g : Nat) (ms : List Msg) : Prop :=
  ∃ ps : List Nat, ps.Nodup ∧ List.Forall₂ (s.Holds g) ps ms

/-- A state that shows the directory `d` and is ready for the events `todo`. -/
structure Ready (s : State Msg Reply) (d : Directory String Msg)
    (todo : List (Mailbox.Ev String Msg)) : Prop where
  ref : Refines s d
  stage : ∀ g x, s.session g = some x → x.stage = .streaming ∨ x.stage = .closed
  held : ∀ g x, s.session g = some x → s.Held g (puts (todo.filterMap (Ev.at x.id)))

variable {s t : State Msg Reply} {tr tr' : List (Act Msg Reply)} {g p : Nat} {m : Msg}
  {ms : List Msg} {x x' : Session Msg Reply} {d d' : Directory String Msg}
  {e : Mailbox.Ev String Msg} {todo : List (Mailbox.Ev String Msg)} {k : String}

/-- `POST`s that go on holding the inbox hold it. -/
lemma State.Held.mono (held : s.Held g ms)
    (sub : ∀ p m, s.Holds g p m → t.Holds g p m) : t.Held g ms := by
  obtain ⟨ps, nd, all⟩ := held
  exact ⟨ps, nd, all.imp sub⟩

/-- A `POST` that holds an inbox goes on to another phase; those that hold another inbox stay. -/
lemma State.Holds.other {j q} {m' : Msg} {q' : Post Msg} (h : s.Holds j q m') (hp : s.Holds g p m)
    (ne : q ≠ p) : (s.setPost p q').Holds j q m' := by
  obtain ⟨req, h⟩ := h
  obtain ⟨req', hp⟩ := hp
  refine ⟨req, ?_⟩
  rw [State.setPost_posts, getElem?_set_of_some hp, if_neg ne]
  exact h

/-- One of the `POST`s that hold an inbox goes on. -/
lemma State.Held.rest {ps : List Nat} (hp : s.Holds g p m) (nd : (p :: ps).Nodup)
    (all : List.Forall₂ (s.Holds g) ps ms) (q : Post Msg) : (s.setPost p q).Held g ms := by
  refine ⟨ps, nd.of_cons, ?_⟩
  have out : p ∉ ps := (List.nodup_cons.1 nd).1
  clear nd
  induction all with
  | nil => exact .nil
  | @cons j _ ps _ h _ ih =>
    refine .cons (h.other hp ?_) (ih fun mem => out (List.mem_cons_of_mem _ mem))
    rintro rfl
    exact out List.mem_cons_self

/-- Where a box is not vacant there is a session. -/
lemma Refines.find (ref : Refines s d) (used : d.box k ≠ .vacant) :
    ∃ g x, s.session g = some x ∧ x.id = k := by
  by_contra none'
  exact used (ref.unused k fun g x h e => none' ⟨g, x, h, e⟩)

/-- A run of the bridge that the directory sees as one event takes it where the event does. -/
lemma Refines.run_one (ref : Refines s d) (rn : Run (Step srv) init tr s)
    (rn' : Run (Step srv) s tr' t) (one : tr'.filterMap (Act.directoryEv t.ids) = [e])
    (st : Mailbox.Step srv.maxSessions d e d') : Refines t d' := by
  obtain ⟨d1, run, ref'⟩ := ref.run rn rn'
  rw [one] at run
  obtain ⟨d2, st', rest⟩ := run.uncons
  cases rest.nil_inv
  cases st.det st'
  exact ref'

/-- No session of a ready state is still to be taken in, -/
lemma Ready.past (rdy : Ready s d todo) (h : s.session g = some x) : x.stage ≠ .opening := by
  rcases rdy.stage g x h with stage | stage <;> simp [stage]

/-- and each has its service. -/
lemma Ready.serving (rdy : Ready s d todo) (h : s.session g = some x) : x.stage.Serving := by
  rcases rdy.stage g x h with stage | stage <;> simp [stage, Stage.Serving]

/-- Some steps about one session that the directory sees as the next event. -/
lemma Ready.move (rdy : Ready s d (e :: todo)) (rn : Run (Step srv) init tr s)
    (rn' : Run (Step srv) s tr' t) (one : tr'.filterMap (Act.directoryEv t.ids) = [e])
    (st : Mailbox.Step srv.maxSessions d e d') (h : s.session g = some x)
    (h' : ∀ g', t.session g' = if g' = g then some x' else s.session g') (id : x'.id = x.id)
    (stage : x'.stage = .streaming ∨ x'.stage = .closed)
    (held : ∀ g' y, s.session g' = some y → t.Held g' (puts (todo.filterMap (Ev.at y.id)))) :
    Ready t d' todo where
  ref := rdy.ref.run_one rn rn' one st
  stage g' y hy := by
    rw [h'] at hy
    split at hy
    · cases hy
      exact stage
    · exact rdy.stage g' y hy
  held g' y hy := by
    rw [h'] at hy
    split at hy
    · subst g'
      cases hy
      rw [id]
      exact held g x h
    · exact held g' y hy

/-- An event that puts no letter in leaves the letters to come. -/
lemma puts_todo (quiet : puts ([e].filterMap (Ev.at k)) = []) :
    puts ((e :: todo).filterMap (Ev.at k)) = puts (todo.filterMap (Ev.at k)) := by
  rw [← List.singleton_append, List.filterMap_append, puts_append, quiet, List.nil_append]

/-- An event other than a put puts no letter in. -/
lemma puts_unput (ev : ∀ k m, e ≠ .box k (.put m)) : puts ([e].filterMap (Ev.at k)) = [] := by
  cases e with
  | list j => by_cases same : j = k <;> simp [Ev.at, same]
  | unlist j => rfl
  | box j b =>
    cases b with
    | put m => exact absurd rfl (ev j m)
    | _ => by_cases same : j = k <;> simp [Ev.at, same]

/-- What is held depends on the `POST`s alone. -/
lemma State.Held.of_posts (held : s.Held g ms) (e : t.posts = s.posts) : t.Held g ms :=
  held.mono fun _ _ ⟨req, h⟩ => ⟨req, e ▸ h⟩

/-- What a session does on its own, the server does. -/
lemma SessionStep.server {b} (sst : SessionStep srv x b x') (h : s.session g = some x) :
    ∃ t, Step srv s (.session g b) t ∧ t.sessions = s.sessions ∧ t.posts = s.posts ∧
      ∀ g', t.session g' = if g' = g then some x' else s.session g' := by
  obtain ⟨headers, get⟩ := State.get_of_session h
  exact ⟨_, .session get sst, rfl, rfl, State.session_moved get rfl⟩

/-- A guard whose stream is gone is dropped. -/
lemma drop_guard (srv : Server Msg Reply) (h : s.session g = some x) (stage : x.stage = .hungUp) :
    ∃ t, Step srv s (.dropGuard g) t ∧ t.posts = s.posts ∧
      ∀ g', t.session g' = if g' = g then some { x with stage := .closed } else s.session g' := by
  obtain ⟨headers, get⟩ := State.get_of_session h
  exact ⟨_, .dropGuard get stage, rfl, State.session_moved get rfl⟩

/-- A step of a session that the directory sees as the next event, which is no put. -/
lemma Ready.session {b} (rdy : Ready s d (e :: todo)) (rn : Run (Step srv) init tr s)
    (h : s.session g = some x) (sst : SessionStep srv x b x') (id : x'.id = x.id)
    (stage : x'.stage = x.stage)
    (seen : ∀ ids : Nat → Option String, ids g = some x.id →
      Act.directoryEv ids (.session g b : Act Msg Reply) = some e)
    (unput : ∀ k m, e ≠ .box k (.put m)) (st : Mailbox.Step srv.maxSessions d e d') :
    ∃ tr' t, Run (Step srv) s tr' t ∧ tr'.filterMap (Act.directoryEv t.ids) = [e] ∧
      Ready t d' todo := by
  obtain ⟨t, step, -, posts, h'⟩ := sst.server h
  have one : [(.session g b : Act Msg Reply)].filterMap (Act.directoryEv t.ids) = [e] := by
    rw [List.filterMap_cons, List.filterMap_nil, seen]
    rw [State.ids, h', if_pos rfl, Option.map_some, id]
  refine ⟨_, t, .single step, one, ?_⟩
  refine rdy.move rn (.single step) one st h h' id ?_ fun g' y hy => ?_
  · rw [stage]
    exact rdy.stage g x h
  · have held := rdy.held g' y hy
    rw [puts_todo (puts_unput unput)] at held
    exact held.of_posts posts

/-- The box of a session that serves letters is an inbox that is open. -/
lemma Session.box_serving {ls : List Msg} (box : x.box = .serving ls) :
    x.inbox.isOpen = true ∧ x.inbox.queue.map Prod.snd = ls := by
  unfold Session.box at box
  split at box
  · cases box
  · unfold inboxBox at box
    split at box
    · cases box
      exact ⟨‹_›, rfl⟩
    · cases box

/-- The service of a session takes the next letter out. -/
lemma Ready.take (rdy : Ready s d (.box k (.take m) :: todo)) (rn : Run (Step srv) init tr s)
    (box : d.box k = .serving (m :: ms))
    (st : Mailbox.Step srv.maxSessions d (.box k (.take m)) d') :
    ∃ tr' t, Run (Step srv) s tr' t ∧
      tr'.filterMap (Act.directoryEv t.ids) = [.box k (.take m)] ∧ Ready t d' todo := by
  have used : d.box k ≠ .vacant := by
    rw [box]
    nofun
  obtain ⟨g, x, h, rfl⟩ := rdy.ref.find used
  rw [rdy.ref.box g x h] at box
  obtain ⟨-, queue⟩ := Session.box_serving box
  cases next : x.inbox.nextMessage 0 with
  | none =>
    rw [Chan.nextMessage_eq_none] at next
    rw [next] at queue
    cases queue
  | some r =>
    obtain ⟨⟨p, m'⟩, inbox⟩ := r
    obtain ⟨-, -, -, queue', -⟩ := Chan.nextMessage_inv next
    rw [queue', List.map_cons] at queue
    cases queue
    refine rdy.session rn h (.recv (rdy.serving h) next) rfl rfl (fun ids named => ?_)
      (fun _ _ => nofun) st
    rw [Act.directoryEv, named, Option.map_some]

/-- The service of a session quits. -/
lemma Ready.shut (rdy : Ready s d (.box k .shut :: todo)) (rn : Run (Step srv) init tr s)
    (box : d.box k = .serving ms) (st : Mailbox.Step srv.maxSessions d (.box k .shut) d') :
    ∃ tr' t, Run (Step srv) s tr' t ∧
      tr'.filterMap (Act.directoryEv t.ids) = [.box k .shut] ∧ Ready t d' todo := by
  have used : d.box k ≠ .vacant := by
    rw [box]
    nofun
  obtain ⟨g, x, h, rfl⟩ := rdy.ref.find used
  rw [rdy.ref.box g x h] at box
  obtain ⟨open', -⟩ := Session.box_serving box
  refine rdy.session rn h (.dropInbox (rdy.serving h) open') rfl rfl (fun ids named => ?_)
    (fun _ _ => nofun) st
  rw [Act.directoryEv, named, Option.map_some]

/-- A session that is listed streams; its client hangs up. -/
lemma Ready.unlist (rdy : Ready s d (.unlist k :: todo)) (rn : Run (Step srv) init tr s)
    (mem : k ∈ d.listed) (st : Mailbox.Step srv.maxSessions d (.unlist k) d') :
    ∃ tr' t, Run (Step srv) s tr' t ∧ tr'.filterMap (Act.directoryEv t.ids) = [.unlist k] ∧
      Ready t d' todo := by
  rw [rdy.ref.listed, List.mem_toFinset, List.mem_map] at mem
  obtain ⟨⟨id, g⟩, mem, e⟩ := mem
  cases e
  obtain ⟨x, h, rfl, listed⟩ := ((run_tableOk rn).mem_iff _ _).1 mem
  have streaming : x.stage = .streaming := by
    rcases rdy.stage g x h with stage | stage
    · exact stage
    · rw [stage] at listed
      exact listed.elim
  have hangs : SessionStep srv x .hangUp _ := .hangUp (.inl streaming)
  obtain ⟨u, hang, -, posts, hu⟩ := hangs.server h
  obtain ⟨t, gone, posts', ht⟩ := drop_guard srv ((hu g).trans (if_pos rfl)) rfl
  have h' : ∀ g', t.session g' =
      if g' = g then some { x with outbox := x.outbox.close, stage := .closed } else s.session g' := by
    intro g'
    rw [ht, hu]
    split <;> rfl
  have one : [(.session g .hangUp : Act Msg Reply), .dropGuard g].filterMap
      (Act.directoryEv t.ids) = [.unlist x.id] := by
    have named : t.ids g = some x.id := by
      rw [State.ids, h', if_pos rfl, Option.map_some]
    have last : Act.directoryEv t.ids (.dropGuard g : Act Msg Reply) = some (.unlist x.id) := by
      rw [Act.directoryEv, named, Option.map_some]
    rw [List.filterMap_cons_none rfl, List.filterMap_cons_some last, List.filterMap_nil]
  refine ⟨_, t, .head hang (.single gone), one, ?_⟩
  refine rdy.move rn (.head hang (.single gone)) one st h h' rfl (.inr rfl) fun g' y hy => ?_
  have held := rdy.held g' y hy
  rw [puts_todo (puts_unput (e := .unlist x.id) fun _ _ e => by cases e)] at held
  exact held.of_posts (posts'.trans posts)

/-- A `POST` that holds the inbox of a session puts the next letter in. -/
lemma Ready.put (rdy : Ready s d (.box k (.put m) :: todo)) (rn : Run (Step srv) init tr s)
    (box : d.box k = .serving ms) (st : Mailbox.Step srv.maxSessions d (.box k (.put m)) d') :
    ∃ tr' t, Run (Step srv) s tr' t ∧
      tr'.filterMap (Act.directoryEv t.ids) = [.box k (.put m)] ∧ Ready t d' todo := by
  have used : d.box k ≠ .vacant := by
    rw [box]
    nofun
  obtain ⟨g, x, h, rfl⟩ := rdy.ref.find used
  rw [rdy.ref.box g x h] at box
  obtain ⟨open', -⟩ := Session.box_serving box
  have next : ∀ j, puts ((.box x.id (.put m) :: todo).filterMap (Ev.at j)) =
      if x.id = j then m :: puts (todo.filterMap (Ev.at j)) else puts (todo.filterMap (Ev.at j)) := by
    intro j
    rw [← List.singleton_append, List.filterMap_append, puts_append]
    by_cases same : x.id = j <;> simp [Ev.at, same]
  have mine := rdy.held g x h
  rw [next, if_pos rfl] at mine
  obtain ⟨ps, nd, all⟩ := mine
  cases all with
  | @cons p _ ps _ hp all =>
    obtain ⟨req, post⟩ := hp
    obtain ⟨headers, get⟩ := State.get_of_session h
    obtain ⟨inbox, sd⟩ := Chan.startSend_open open' p m
    let t := (s.setGet g ⟨headers, .opened { x with inbox := inbox }⟩).setPost p ⟨req, .sent g⟩
    have send : Step srv s (.send p g m) t := .send post get sd
    have h' : ∀ g', t.session g' = if g' = g then some { x with inbox := inbox } else s.session g' :=
      State.session_moved get rfl
    have one : [(.send p g m : Act Msg Reply)].filterMap (Act.directoryEv t.ids) =
        [.box x.id (.put m)] := by
      have named : t.ids g = some x.id := by
        rw [State.ids, h', if_pos rfl, Option.map_some]
      simp [Act.directoryEv, named]
    refine ⟨_, t, .single send, one, rdy.move rn (.single send) one st h h' rfl (rdy.stage g x h) ?_⟩
    intro g' y hy
    have held := rdy.held g' y hy
    rw [next] at held
    by_cases e : g' = g
    · subst e
      cases h.symm.trans hy
      exact (State.Held.rest ⟨req, post⟩ nd all ⟨req, .sent g'⟩).of_posts rfl
    · have other : x.id ≠ y.id := fun same => e ((run_tableOk rn).ids _ _ _ _ hy h same.symm)
      rw [if_neg other] at held
      refine (held.mono fun q m' hq => ?_ : (s.setPost p ⟨req, .sent g⟩).Held g' _).of_posts rfl
      refine hq.other ⟨req, post⟩ ?_
      rintro rfl
      obtain ⟨req', hq⟩ := hq
      cases post.symm.trans hq
      exact e rfl

/-- A `POST` that carries a message past the checks and finds its session holds the inbox. -/
lemma hold_one (found : s.sessions.get k = some g) (sendable : Sendable srv m) :
    ∃ tr' t, Run (Step srv) s tr' t ∧ (∀ ids, tr'.filterMap (Act.directoryEv ids) = []) ∧
      t.sessions = s.sessions ∧ t.gets = s.gets ∧ ∃ req, t.posts = s.posts ++ [⟨req, .holding g m⟩] := by
  obtain ⟨headers, body, ok⟩ := sendable
  have enter : Step srv s (.postEnter ⟨headers, k, body⟩) _ := .postEnter
  have parse : Step srv _ _ _ := PostStep.last
    (s := { s with posts := s.posts ++ [⟨⟨headers, k, body⟩, .entered⟩] }) rfl (.parse (ok k))
  have hit : Step srv _ _ _ := PostStep.last
    (s := { s with posts := s.posts ++ [⟨⟨headers, k, body⟩, .parsed m⟩] }) rfl (.hit found)
  exact ⟨_, _, .head enter (.head parse (.single hit)), fun _ => rfl, rfl, rfl, _, rfl⟩

/-- As many `POST`s as there are letters to come hold the inbox. -/
lemma hold_all (found : s.sessions.get k = some g) (sendable : ∀ m ∈ ms, Sendable srv m) :
    ∃ tr' t, Run (Step srv) s tr' t ∧ (∀ ids, tr'.filterMap (Act.directoryEv ids) = []) ∧
      t.sessions = s.sessions ∧ t.gets = s.gets ∧
      (∀ (p : Nat) q, s.posts[p]? = some q → t.posts[p]? = some q) ∧
      ∃ ps : List Nat, ps.Nodup ∧ (∀ p ∈ ps, s.posts.length ≤ p) ∧
        List.Forall₂ (t.Holds g) ps ms := by
  induction ms generalizing s with
  | nil => exact ⟨[], s, .refl, fun _ => rfl, rfl, rfl, fun _ _ h => h, [], .nil, nofun, .nil⟩
  | cons m ms ih =>
    obtain ⟨tr1, u, rn1, quiet1, table1, gets1, req, posts⟩ :=
      hold_one found (sendable m (List.mem_cons_self))
    obtain ⟨tr2, t, rn2, quiet2, table2, gets2, stay, ps, nd, new, all⟩ :=
      ih (s := u) (by rw [table1, found]) fun m' mem => sendable m' (List.mem_cons_of_mem _ mem)
    have len : u.posts.length = s.posts.length + 1 := by
      rw [posts, List.length_append, List.length_singleton]
    refine ⟨tr1 ++ tr2, t, rn1.trans rn2, fun ids => ?_, table2.trans table1, gets2.trans gets1,
      fun p q h => stay p q ?_, s.posts.length :: ps, ?_, fun p mem => ?_, .cons ⟨req, stay _ _ ?_⟩ all⟩
    · rw [List.filterMap_append, quiet1, quiet2, List.append_nil]
    · obtain ⟨lt, -⟩ := List.getElem?_eq_some_iff.1 h
      rw [posts, List.getElem?_append_left lt]
      exact h
    · refine List.nodup_cons.2 ⟨fun mem => ?_, nd⟩
      have := new _ mem
      omega
    · rcases List.mem_cons.1 mem with rfl | mem
      · exact Nat.le_refl _
      · have := new p mem
        omega
    · rw [posts, getElem?_concat, if_pos rfl]

/-- A client that passes the guard opens a session under a new id, and its stream starts. -/
lemma open_stream {headers} (passes : srv.guard.check srv.http headers = .ok ()) (fresh : s.Fresh k)
    (room : s.sessions.length < srv.maxSessions) :
    ∃ tr' t g, Run (Step srv) s tr' t ∧
      (∀ ids : Nat → Option String, ids g = some k →
        tr'.filterMap (Act.directoryEv ids) = [.list k]) ∧
      t.sessions = s.sessions.insert k g ∧ t.posts = s.posts ∧
      ∀ g', t.session g' =
        if g' = g then some { Session.new k with stage := .streaming } else s.session g' := by
  -- the new `GET` is the last of all and moves on alone
  let n := s.gets.length
  let at' (phase : GetPhase Msg Reply) (table : Sessions) : State Msg Reply :=
    { s with gets := s.gets ++ [⟨headers, phase⟩], sessions := table }
  have there : ∀ phase table, (at' phase table).gets[n]? = some ⟨headers, phase⟩ := by
    intro phase table
    rw [getElem?_concat, if_pos rfl]
  have moved : ∀ phase phase' table, (at' phase table).setGet n ⟨headers, phase'⟩ = at' phase' table := by
    intro phase phase' table
    rw [State.setGet, List.set_append_right _ _ (Nat.le_refl _), Nat.sub_self]
    rfl
  have fresh' : (at' .entered s.sessions).Fresh k := by
    intro g x h
    rw [State.session, getElem?_concat] at h
    split at h
    · cases h
    · exact fresh g x h
  have ok : admitSession s.sessions srv.maxSessions k n = .ok (s.sessions.insert k n) := by
    rw [admitSession, if_neg (Nat.not_le.2 room)]
  let x : Session Msg Reply := .new k
  let table := s.sessions.insert k n
  have arrives : Step srv s (.getEnter headers) (at' .entered s.sessions) := .getEnter
  have opens : Step srv (at' .entered s.sessions) (.getOpen n k) (at' (.opened x) s.sessions) := by
    have st := Step.getOpen (there .entered s.sessions) passes fresh'
    rw [moved] at st
    exact st
  have admits : Step srv (at' (.opened x) s.sessions) (.getAdmit n)
      (at' (.opened { x with stage := .admitted }) table) := by
    have st : Step srv _ _ _ := .getAdmit (there (.opened x) s.sessions) rfl ok
    rw [moved] at st
    exact st
  have spawns : Step srv (at' (.opened { x with stage := .admitted }) table) (.session n .spawn)
      (at' (.opened { x with stage := .spawned }) table) := by
    have st : Step srv _ _ _ := .session (there (.opened { x with stage := .admitted }) table)
      (.spawn rfl)
    rw [moved] at st
    exact st
  have responds : Step srv (at' (.opened { x with stage := .spawned }) table) (.session n .respond)
      (at' (.opened { x with stage := .streaming }) table) := by
    have st : Step srv _ _ _ := .session (there (.opened { x with stage := .spawned }) table)
      (.respond rfl)
    rw [moved] at st
    exact st
  refine ⟨_, _, n, .head arrives <| .head opens <| .head admits <| .head spawns <| .single responds,
    fun ids named => ?_, rfl, rfl, fun g' => ?_⟩
  · have listed : Act.directoryEv ids (.getAdmit n : Act Msg Reply) = some (.list k) := by
      rw [Act.directoryEv, named, Option.map_some]
    rw [List.filterMap_cons_none rfl, List.filterMap_cons_none rfl, List.filterMap_cons_some listed]
    rfl
  · rw [State.session, getElem?_concat]
    split <;> rfl

/-- A vacant address is listed: a client opens a session there, and the `POST`s of the letters to come
find it. -/
lemma Ready.list (rdy : Ready s d (.list k :: todo)) (rn : Run (Step srv) init tr s)
    (passes : ∃ headers, srv.guard.check srv.http headers = .ok ())
    (sendable : ∀ m ∈ puts (todo.filterMap (Ev.at k)), Sendable srv m)
    (vacant : d.box k = .vacant) (room : d.listed.card < srv.maxSessions)
    (st : Mailbox.Step srv.maxSessions d (.list k) d') :
    ∃ tr' t, Run (Step srv) s tr' t ∧ tr'.filterMap (Act.directoryEv t.ids) = [.list k] ∧
      Ready t d' todo := by
  have ok := run_tableOk rn
  obtain ⟨headers, passes⟩ := passes
  have fresh : s.Fresh k := by
    rintro g x h rfl
    rw [rdy.ref.box g x h, Session.box_past (rdy.past h)] at vacant
    unfold inboxBox at vacant
    split at vacant <;> cases vacant
  have room' : s.sessions.length < srv.maxSessions := by
    rwa [rdy.ref.listed, List.toFinset_card_of_nodup ok.keys, List.length_map] at room
  obtain ⟨tr1, u, g, rn1, seen, table, posts, hu⟩ := open_stream passes fresh room'
  have found : u.sessions.get k = some g := by
    simp [table, Sessions.get, Sessions.insert]
  obtain ⟨tr2, t, rn2, quiet, -, gets, stay, ps, nd, -, all⟩ := hold_all found sendable
  have ht : ∀ g', t.session g' =
      if g' = g then some { Session.new k with stage := .streaming } else s.session g' := by
    intro g'
    rw [State.session, gets, ← hu]
    rfl
  have one : (tr1 ++ tr2).filterMap (Act.directoryEv t.ids) = [.list k] := by
    rw [List.filterMap_append, quiet, seen, List.append_nil]
    rw [State.ids, ht, if_pos rfl]
    rfl
  refine ⟨_, t, rn1.trans rn2, one, rdy.ref.run_one rn (rn1.trans rn2) one st, ?_, ?_⟩
  · intro g' y hy
    rw [ht] at hy
    split at hy
    · cases hy
      exact .inl rfl
    · exact rdy.stage g' y hy
  · intro g' y hy
    rw [ht] at hy
    split at hy
    · subst g'
      cases hy
      exact ⟨ps, nd, all⟩
    · have held := rdy.held g' y hy
      rw [puts_todo (puts_unput (e := .list k) fun _ _ e => by cases e)] at held
      refine held.mono fun p m h => ?_
      obtain ⟨req, h⟩ := h
      exact ⟨req, stay p _ (posts ▸ h)⟩

/-- A step of the directory is some steps of the bridge. -/
lemma Ready.step (rdy : Ready s d (e :: todo)) (rn : Run (Step srv) init tr s)
    (passes : ∃ headers, srv.guard.check srv.http headers = .ok ())
    (sendable : ∀ k m, .box k (.put m) ∈ todo → Sendable srv m)
    (st : Mailbox.Step srv.maxSessions d e d') :
    ∃ tr' t, Run (Step srv) s tr' t ∧ tr'.filterMap (Act.directoryEv t.ids) = [e] ∧
      Ready t d' todo := by
  cases st with
  | @list k b bst room =>
    have vacant : d.box k = .vacant := by
      generalize d.box k = b0 at bst
      cases bst
      rfl
    exact rdy.list rn passes (fun m mem => sendable k m (mem_puts_at mem)) vacant room (.list bst room)
  | unlist mem => exact rdy.unlist rn mem (.unlist mem)
  | @box k e b bst going =>
    have st : Mailbox.Step srv.maxSessions d _ _ := .box bst going
    generalize eb : d.box k = b0 at bst
    cases bst with
    | start => exact absurd rfl going
    | put => exact rdy.put rn eb st
    | take => exact rdy.take rn eb st
    | shut => exact rdy.shut rn eb st

/-- What the directory can do from here, the bridge can. -/
lemma Ready.run {evs : List (Mailbox.Ev String Msg)} (rdy : Ready s d evs)
    (rn : Run (Step srv) init tr s) (passes : ∃ headers, srv.guard.check srv.http headers = .ok ())
    (sendable : ∀ k m, .box k (.put m) ∈ evs → Sendable srv m)
    (run : Run (Mailbox.Step srv.maxSessions) d evs d') :
    ∃ tr' t, Run (Step srv) s tr' t ∧ tr'.filterMap (Act.directoryEv t.ids) = evs := by
  induction evs generalizing s d tr with
  | nil => exact ⟨[], s, .refl, rfl⟩
  | cons e evs ih =>
    obtain ⟨d1, st, rest⟩ := run.uncons
    have later : ∀ k m, .box k (.put m) ∈ evs → Sendable srv m :=
      fun k m mem => sendable k m (List.mem_cons_of_mem _ mem)
    obtain ⟨tr1, u, rn1, one, rdy1⟩ := rdy.step rn passes later st
    obtain ⟨tr2, t, rn2, others⟩ := ih rdy1 (rn.trans rn1) later rest
    refine ⟨tr1 ++ tr2, t, rn1.trans rn2, ?_⟩
    have kept : tr1.filterMap (Act.directoryEv t.ids) = tr1.filterMap (Act.directoryEv u.ids) :=
      List.filterMap_congr fun b mem =>
        directoryEv_kept (rn.trans rn1) rn2 (List.mem_append_right _ mem)
    rw [List.filterMap_append, kept, one, others]
    rfl

end OxmlMcp.Sse
