import OxmlMcp.Mailbox.Directory
import OxmlMcp.Sse.Inbox

/-!
# The bridge as a directory of mailboxes

The bridge refines a directory of mailboxes (`Mailbox/Directory.lean`): the addresses are the ids of
its sessions, the table lists them, and the box of a session is what waits in its inbox. All the rest
of the bridge (requests under way, parked senders, numbers of `GET`s, streams) is not seen there.

* `Act.directoryEv`: what an action of the bridge is to the directory.
* `Refines`: the abstraction, as a relation between states.
* `Step.refines`: a step of the bridge is the step of the directory that `directoryEv` says, or none.
* `refines_directory`: so every run of the bridge is a run of the directory.
* `mailbox_promises`: what the directory promises, the bridge keeps.
-/

namespace OxmlMcp.Sse
open OxmlMcp.Lts OxmlMcp.Http OxmlMcp.Access OxmlMcp.Mpsc OxmlMcp.Mailbox

variable {Msg Reply : Type} {srv : Server Msg Reply}

/-- The ids of the sessions, by the number of their `GET`. -/
def State.ids (s : State Msg Reply) (g : Nat) : Option String :=
  (s.session g).map Session.id

/-- What an action is to the directory, given the ids of the sessions. -/
def Act.directoryEv (ids : Nat → Option String) : Act Msg Reply → Option (Mailbox.Ev String Msg)
  | .getAdmit g => (ids g).map .list
  | .dropGuard g => (ids g).map .unlist
  | .send _ g m => (ids g).map (.box · (.put m))
  | .session g (.recv _ m) => (ids g).map (.box · (.take m))
  | .session g .dropInbox => (ids g).map (.box · .shut)
  | _ => none

/-- What an event on a channel is to a box. -/
def boxEv : Mpsc.Ev Nat Msg → BoxEv Msg
  | .send _ m => .put m
  | .recv _ m => .take m
  | .close => .shut

/-- The box of a channel. -/
def inboxBox (c : Chan Nat Msg) : Box Msg :=
  if c.isOpen then .serving (c.queue.map Prod.snd) else .shut

/-- A channel refines a box, as its receiver is dropped once. -/
lemma inbox_box {c c' : Chan Nat Msg} {e} (st : Mpsc.Step c e c') (open' : c.isOpen = true) :
    BoxStep (inboxBox c) (boxEv e) (inboxBox c') := by
  cases st with
  | send h =>
    obtain ⟨open1, open2, -, queue, -⟩ := Chan.startSend_inv h
    rw [inboxBox, inboxBox, if_pos open1, if_pos open2, queue, List.map_append]
    exact .put
  | recv h =>
    obtain ⟨open1, open2, -, queue, -⟩ := Chan.nextMessage_inv h
    rw [inboxBox, inboxBox, if_pos open1, if_pos open2, queue, List.map_cons]
    exact .take
  | close =>
    rw [inboxBox, if_pos open']
    exact .shut

/-- The box of a session: vacant until the table has taken the session in. -/
def Session.box (x : Session Msg Reply) : Box Msg :=
  if x.stage = .opening then .vacant else inboxBox x.inbox

/-- The box of a session that is not taken in is vacant, -/
lemma Session.box_opening {x : Session Msg Reply} (stage : x.stage = .opening) : x.box = .vacant :=
  if_pos stage

/-- that of another is what waits in its inbox. -/
lemma Session.box_past {x : Session Msg Reply} (stage : x.stage ≠ .opening) :
    x.box = inboxBox x.inbox :=
  if_neg stage

/-- A session does nothing on its own until it has been taken in, -/
lemma SessionStep.past {x : Session Msg Reply} {a x'} (st : SessionStep srv x a x') :
    x.stage ≠ .opening := by
  cases st with
  | spawn stage => simp [stage]
  | respond stage => simp [stage]
  | endpoint stage _ => simp [stage]
  | message stage _ _ _ => simp [stage]
  | fail stage _ _ _ => simp [stage]
  | hangUp stage => rcases stage with stage | stage <;> simp [stage]
  | recv serving _ => exact fun stage => (stage ▸ serving).elim
  | emit serving _ _ _ => exact fun stage => (stage ▸ serving).elim
  | dropInbox serving _ => exact fun stage => (stage ▸ serving).elim

/-- and stays so from then on, -/
lemma Change.past {g x a x'} (ch : Change srv g x a x') (past : x.stage ≠ .opening) :
    x'.stage ≠ .opening := by
  cases ch with
  | getAdmit stage => exact absurd stage past
  | own st => exact fun stage => past (st.stage_iff.1.1 stage)
  | dropGuard _ => nofun
  | send _ => exact past
  | other _ => exact past

variable {s t : State Msg Reply} {tr tr' : List (Act Msg Reply)} {a : Act Msg Reply} {g : Nat}
  {x x' : Session Msg Reply} {d d' : Directory String Msg} {max : Nat}

/-- The session of `GET` number `g` has been taken in. -/
def State.Past (s : State Msg Reply) (g : Nat) : Prop :=
  ∃ x, s.session g = some x ∧ x.stage ≠ .opening

/-- with its id. -/
lemma State.Past.step (past : s.Past g) (st : Step srv s a t) : t.Past g ∧ t.ids g = s.ids g := by
  obtain ⟨x, h, stage⟩ := past
  rcases st.session_fwd h with ⟨x', h', ch⟩ | ⟨-, opening, -⟩
  · refine ⟨⟨x', h', ch.past stage⟩, ?_⟩
    rw [State.ids, State.ids, h, h', Option.map_some, Option.map_some, ch.id_eq]
  · exact absurd opening stage

/-- A session that the table has not taken in is as it was set up. -/
lemma opening_new (rn : Run (Step srv) init tr s) (h : s.session g = some x)
    (stage : x.stage = .opening) : x = .new x.id := by
  induction rn generalizing x with
  | refl => cases h
  | @tail tr s a t rn st ih =>
    rcases st.session_inv h with ⟨_, id, -, rfl, -⟩ | ⟨y, hy, ch⟩
    · rfl
    · have still : y.stage = .opening := by
        by_contra past
        exact ch.past past stage
      cases ch with
      | getAdmit _ => cases stage
      | dropGuard _ => cases stage
      | other _ => exact ih hy still
      | own sst => exact absurd still sst.past
      | send _ =>
        cases st with
        | send post _ _ =>
          obtain ⟨-, -, z, hz, -, past⟩ := accounts_run rn post
          cases hy.symm.trans hz
          exact absurd still past

/-- A message is sent to a session that has been taken in. -/
lemma send_past {p m} (rn : Run (Step srv) init tr s) (st : Step srv s (.send p g m) t) :
    s.Past g := by
  cases st with
  | send post _ _ =>
    obtain ⟨-, -, y, hy, -, past⟩ := accounts_run rn post
    exact ⟨y, hy, past⟩

/-- A step about a session leaves that session taken in, once its opening is over. -/
lemma Step.past (rn : Run (Step srv) init tr s) (st : Step srv s a t) (about : Act.get a = some g)
    (forbid : a ≠ .getForbid g) (opens : ∀ id, a ≠ .getOpen g id) (full : a ≠ .getFull g) :
    t.Past g := by
  cases st with
  | getForbid _ _ =>
    cases about
    exact absurd rfl forbid
  | getOpen _ _ _ =>
    cases about
    exact absurd rfl (opens _)
  | getFull _ _ _ =>
    cases about
    exact absurd rfl full
  | getAdmit get _ _ =>
    cases about
    exact ⟨_, (State.session_set get rfl g).trans (if_pos rfl), nofun⟩
  | dropGuard get _ =>
    cases about
    exact ⟨_, (State.session_set get rfl g).trans (if_pos rfl), nofun⟩
  | session get sst =>
    cases about
    have past : s.Past g := ⟨_, State.session_of_get get, sst.past⟩
    exact (past.step (.session get sst)).1
  | send post get sd =>
    cases about
    have st : Step srv s _ _ := .send post get sd
    exact ((send_past rn st).step st).1
  | getEnter => cases about
  | postEnter => cases about
  | post _ _ => cases about

/-- A step leaves what earlier actions are to the directory. -/
lemma directoryEv_stays {b} (rn : Run (Step srv) init tr s) (st : Step srv s a t) (mem : b ∈ tr) :
    b.directoryEv t.ids = b.directoryEv s.ids := by
  obtain ⟨tr1, tr2, u, v, -, rn1, bst, rn2⟩ := rn.step_of_mem mem
  have stays : ∀ g, v.Past g → t.ids g = s.ids g := fun g past =>
    ((rn2.invariant (P := (State.Past · g)) past fun past st => (past.step st).1).step st).2
  cases b with
  | getAdmit g => rw [Act.directoryEv, Act.directoryEv, stays g (bst.past rn1 rfl nofun nofun nofun)]
  | dropGuard g =>
    rw [Act.directoryEv, Act.directoryEv, stays g (bst.past rn1 rfl nofun nofun nofun)]
  | send p g m =>
    rw [Act.directoryEv, Act.directoryEv, stays g (bst.past rn1 rfl nofun nofun nofun)]
  | session g b =>
    have same := stays g (bst.past rn1 rfl nofun nofun nofun)
    cases b with
    | recv p m => rw [Act.directoryEv, Act.directoryEv, same]
    | dropInbox => rw [Act.directoryEv, Act.directoryEv, same]
    | _ => rfl
  | _ => rfl

/-- So does a run. -/
lemma directoryEv_kept {b} (rn : Run (Step srv) init tr s) (rn' : Run (Step srv) s tr' t)
    (mem : b ∈ tr) : b.directoryEv t.ids = b.directoryEv s.ids := by
  induction rn' with
  | refl => rfl
  | tail rn' st ih => rw [directoryEv_stays (rn.trans rn') st (List.mem_append_left _ mem), ih]

/-- A state of the bridge, as a directory. -/
structure Refines (s : State Msg Reply) (d : Directory String Msg) : Prop where
  /-- The table lists the addresses, -/
  listed : d.listed = (s.sessions.map Prod.fst).toFinset
  /-- the box of a session is what waits in its inbox, -/
  box : ∀ g x, s.session g = some x → d.box x.id = x.box
  /-- and an address that is no session's is vacant. -/
  unused : ∀ id, (∀ g x, s.session g = some x → x.id ≠ id) → d.box id = .vacant

/-- A step that changes no session and not the table is not seen. -/
lemma Refines.stutter (ref : Refines s d) (st : Step srv s a t) (table : t.sessions = s.sessions)
    (same : ∀ g x x', Change srv g x a x' → x' = x) : Refines t d where
  listed := table ▸ ref.listed
  box g x' h' := by
    rcases st.session_inv h' with ⟨_, id, -, rfl, fresh, -⟩ | ⟨x, h, ch⟩
    · exact ref.unused id fresh
    · cases same g x x' ch
      exact ref.box g x' h
  unused id none' := by
    by_cases used : ∃ g x, s.session g = some x ∧ x.id = id
    · obtain ⟨g, x, h, rfl⟩ := used
      rcases st.session_fwd h with ⟨x', h', ch⟩ | ⟨-, stage, -⟩
      · exact absurd ch.id_eq (none' g x' h')
      · rw [ref.box g x h, Session.box_opening stage]
    · exact ref.unused id fun g x h e => used ⟨g, x, h, e⟩

/-- A step about one session: its box changes as the session does, and no other. -/
lemma Refines.move (ref : Refines s d) (ok : TableOk srv s) (h : s.session g = some x)
    (h' : ∀ g', t.session g' = if g' = g then some x' else s.session g') (id : x'.id = x.id)
    (listed : d'.listed = (t.sessions.map Prod.fst).toFinset)
    (box : ∀ j, d'.box j = if j = x.id then x'.box else d.box j) : Refines t d' where
  listed := listed
  box g' y hy := by
    rw [h'] at hy
    split at hy
    · cases hy
      rw [box, if_pos id]
    · have ne : y.id ≠ x.id := fun e => ‹¬ g' = g› (ok.ids _ _ _ _ hy h e)
      rw [box, if_neg ne]
      exact ref.box g' y hy
  unused j none' := by
    have ne : j ≠ x.id := by
      rintro rfl
      exact none' g x' (by rw [h', if_pos rfl]) id
    rw [box, if_neg ne]
    refine ref.unused j fun g' y hy => ?_
    by_cases e : g' = g
    · subst e
      cases h.symm.trans hy
      exact ne.symm
    · exact none' g' y (by rw [h', if_neg e]; exact hy)

/-- A step of the inbox of a session that has been taken in is a step of its box. -/
lemma Refines.letter {e} (ref : Refines s d) (ok : TableOk srv s) (h : s.session g = some x)
    (h' : ∀ g', t.session g' = if g' = g then some x' else s.session g') (id : x'.id = x.id)
    (table : t.sessions = s.sessions) (past : x.stage ≠ .opening) (stage : x'.stage = x.stage)
    (st : Mpsc.Step x.inbox e x'.inbox) (open' : x.inbox.isOpen = true) :
    ∃ d', Run (Mailbox.Step max) d [.box x.id (boxEv e)] d' ∧ Refines t d' := by
  have bst : BoxStep (d.box x.id) (boxEv e) x'.box := by
    rw [ref.box g x h, Session.box_past past, Session.box_past (stage ▸ past)]
    exact inbox_box st open'
  have going : boxEv e ≠ .start := by
    cases e <;> nofun
  exact ⟨d.set x.id x'.box, .single (.box bst going),
    ref.move ok h h' id (table ▸ ref.listed) (d.set_box x.id x'.box)⟩

/-- A step of a session that its inbox does not see is not seen. -/
lemma Refines.unseen (ref : Refines s d) (ok : TableOk srv s) (h : s.session g = some x)
    (h' : ∀ g', t.session g' = if g' = g then some x' else s.session g') (id : x'.id = x.id)
    (table : t.sessions = s.sessions) (past : x.stage ≠ .opening) (stage : x'.stage ≠ .opening)
    (inbox : x'.inbox = x.inbox) : Refines t d := by
  refine ref.move ok h h' id (table ▸ ref.listed) fun j => ?_
  split
  · subst j
    rw [ref.box g x h, Session.box_past past, Session.box_past stage, inbox]
  · rfl

/-- The ids of the table with one more, -/
lemma keys_insert (t : Sessions) (id : String) (g : Nat) :
    ((t.insert id g).map Prod.fst).toFinset = insert id (t.map Prod.fst).toFinset := by
  ext j
  simp only [List.mem_toFinset, Finset.mem_insert, List.mem_map, Sessions.mem_insert]
  constructor
  · rintro ⟨e, rfl | ⟨mem, -⟩, rfl⟩
    · exact .inl rfl
    · exact .inr ⟨e, mem, rfl⟩
  · rintro (rfl | ⟨e, mem, rfl⟩)
    · exact ⟨_, .inl rfl, rfl⟩
    · by_cases same : e.1 = id
      · exact ⟨_, .inl rfl, same.symm⟩
      · exact ⟨e, .inr ⟨mem, same⟩, rfl⟩

/-- and with one less. -/
lemma keys_remove (t : Sessions) (id : String) :
    ((t.remove id).map Prod.fst).toFinset = (t.map Prod.fst).toFinset.erase id := by
  ext j
  simp only [List.mem_toFinset, Finset.mem_erase, List.mem_map, Sessions.mem_remove]
  constructor
  · rintro ⟨e, ⟨mem, ne⟩, rfl⟩
    exact ⟨ne, e, mem, rfl⟩
  · rintro ⟨ne, e, mem, rfl⟩
    exact ⟨e, ⟨mem, ne⟩, rfl⟩

/-- A session that the table takes in is listed under its id, with an empty box. -/
lemma Refines.taken_in (ref : Refines s d) (ok : TableOk srv s) (h : s.session g = some x)
    (new : x = .new x.id)
    (h' : ∀ g', t.session g' = if g' = g then some { x with stage := .admitted } else s.session g')
    (admitted : admitSession s.sessions srv.maxSessions x.id g = .ok t.sessions) :
    ∃ d', Run (Mailbox.Step srv.maxSessions) d [.list x.id] d' ∧ Refines t d' := by
  have vacant : d.box x.id = .vacant := by
    rw [ref.box g x h, new]
    rfl
  unfold admitSession at admitted
  split at admitted
  · cases admitted
  · have table : t.sessions = s.sessions.insert x.id g := (Except.ok.inj admitted).symm
    have room : d.listed.card < srv.maxSessions := by
      rw [ref.listed, List.toFinset_card_of_nodup ok.keys, List.length_map]
      exact Nat.lt_of_not_le ‹_›
    have box : Session.box { x with stage := .admitted } = .serving [] := by
      rw [new]
      rfl
    have begins : BoxStep (d.box x.id) .start (.serving []) := by
      rw [vacant]
      exact .start
    refine ⟨_, .single (.list begins room), ref.move ok h h' rfl ?_ fun j => ?_⟩
    · rw [table, keys_insert, ← ref.listed]
    · rw [box]
      exact d.set_box x.id _ j

/-- A session whose guard is dropped is listed no more; its box stays as it is. -/
lemma Refines.let_go (ref : Refines s d) (ok : TableOk srv s) (h : s.session g = some x)
    (stage : x.stage = .hungUp)
    (h' : ∀ g', t.session g' = if g' = g then some { x with stage := .closed } else s.session g')
    (table : t.sessions = s.sessions.remove x.id) :
    ∃ d', Run (Mailbox.Step max) d [.unlist x.id] d' ∧ Refines t d' := by
  have past : x.stage ≠ .opening := by simp [stage]
  have there : x.id ∈ d.listed := by
    have mem : (x.id, g) ∈ s.sessions :=
      (ok.mem_iff _ _).2 ⟨x, h, rfl, by simp [stage, Stage.Listed]⟩
    rw [ref.listed, List.mem_toFinset]
    exact List.mem_map_of_mem mem
  refine ⟨_, .single (.unlist there), ref.move ok h h' rfl ?_ fun j => ?_⟩
  · rw [table, keys_remove, ← ref.listed]
  · split
    · subst j
      exact (ref.box g x h).trans (Session.box_past past)
    · rfl

/-- Where the sessions are once that of `GET` number `g` has moved on. -/
lemma State.session_moved {y : Get Msg Reply} {headers} (get : s.gets[g]? = some y)
    (e : t.gets = s.gets.set g ⟨headers, .opened x'⟩) (g' : Nat) :
    t.session g' = if g' = g then some x' else s.session g' :=
  State.session_set get e g'

/-- A step of the bridge is a step of the directory or none. -/
lemma Step.refines (rn : Run (Step srv) init tr s) (ref : Refines s d) (st : Step srv s a t) :
    ∃ d', Run (Mailbox.Step srv.maxSessions) d (a.directoryEv t.ids).toList d' ∧ Refines t d' := by
  have ok := run_tableOk rn
  have moved : ∀ {g y headers x'}, s.gets[g]? = some y →
      t.gets = s.gets.set g ⟨headers, .opened x'⟩ →
      ∀ g', t.session g' = if g' = g then some x' else s.session g' :=
    State.session_moved
  -- the id of the session a step is about
  have named : ∀ {g x'}, (∀ g', t.session g' = if g' = g then some x' else s.session g') →
      t.ids g = some x'.id := by
    intro g x' h'
    rw [State.ids, h', if_pos rfl, Option.map_some]
  -- a step about no session
  have none' : (∀ g, Act.get a ≠ some g) → ∀ g x x', Change srv g x a x' → x' = x := by
    intro ne g x x' ch
    cases ch with
    | other _ => rfl
    | _ => exact absurd rfl (ne g)
  cases st with
  | getEnter => exact ⟨d, .refl, ref.stutter .getEnter rfl (none' nofun)⟩
  | postEnter => exact ⟨d, .refl, ref.stutter .postEnter rfl (none' nofun)⟩
  | post post pst => exact ⟨d, .refl, ref.stutter (.post post pst) rfl (none' nofun)⟩
  | getForbid get err =>
    refine ⟨d, .refl, ref.stutter (.getForbid get err) rfl fun g x x' ch => ?_⟩
    cases ch
    rfl
  | getOpen get guard fresh =>
    refine ⟨d, .refl, ref.stutter (.getOpen get guard fresh) rfl fun g x x' ch => ?_⟩
    cases ch
    rfl
  | getFull get stage full =>
    refine ⟨d, .refl, ref.stutter (.getFull get stage full) rfl fun g x x' ch => ?_⟩
    cases ch
    rfl
  | @getAdmit g _ x _ get stage admitted =>
    have h : s.session g = some x := State.session_of_get get
    have h' := moved get rfl
    rw [Act.directoryEv, named h']
    exact ref.taken_in (x := x) ok h (opening_new rn h stage) h' admitted
  | @dropGuard g _ x get stage =>
    have h : s.session g = some x := State.session_of_get get
    have h' := moved get rfl
    rw [Act.directoryEv, named h']
    exact ref.let_go (x := x) ok h stage h' rfl
  | send post get sd =>
    obtain ⟨y, hy, past⟩ := send_past rn (.send post get sd)
    cases hy.symm.trans (State.session_of_get get)
    have h' := moved get rfl
    rw [Act.directoryEv, named h']
    exact ref.letter ok hy h' rfl rfl past rfl (.send sd) (Chan.startSend_inv sd).1
  | session get sst =>
    have h := State.session_of_get get
    have h' := moved get rfl
    have past := sst.past
    cases sst with
    | recv _ rc =>
      rw [Act.directoryEv, named h']
      exact ref.letter ok h h' rfl rfl past rfl (.recv rc) (Chan.nextMessage_inv rc).1
    | dropInbox _ open' =>
      rw [Act.directoryEv, named h']
      exact ref.letter ok h h' rfl rfl past rfl .close open'
    | spawn _ => exact ⟨d, .refl, ref.unseen ok h h' rfl rfl past nofun rfl⟩
    | respond _ => exact ⟨d, .refl, ref.unseen ok h h' rfl rfl past nofun rfl⟩
    | endpoint _ _ => exact ⟨d, .refl, ref.unseen ok h h' rfl rfl past past rfl⟩
    | message _ _ _ _ => exact ⟨d, .refl, ref.unseen ok h h' rfl rfl past past rfl⟩
    | fail _ _ _ _ => exact ⟨d, .refl, ref.unseen ok h h' rfl rfl past nofun rfl⟩
    | hangUp _ => exact ⟨d, .refl, ref.unseen ok h h' rfl rfl past nofun rfl⟩
    | emit _ _ _ _ => exact ⟨d, .refl, ref.unseen ok h h' rfl rfl past past rfl⟩

/-- The empty directory shows no session and no request. -/
lemma refines_init : Refines (init : State Msg Reply) .empty where
  listed := rfl
  box := nofun
  unused _ _ := rfl

/-- A run of the bridge, from any state that it reaches, is a run of the directory. -/
lemma Refines.run (ref : Refines s d) (rn : Run (Step srv) init tr s)
    (rn' : Run (Step srv) s tr' t) :
    ∃ d', Run (Mailbox.Step srv.maxSessions) d (tr'.filterMap (Act.directoryEv t.ids)) d' ∧
      Refines t d' := by
  induction rn' with
  | refl => exact ⟨d, .refl, ref⟩
  | @tail tr' t a u rn' st ih =>
    obtain ⟨d', run, ref'⟩ := ih
    obtain ⟨d'', run', ref''⟩ := st.refines (rn.trans rn') ref'
    have old : tr'.filterMap (Act.directoryEv u.ids) = tr'.filterMap (Act.directoryEv t.ids) :=
      List.filterMap_congr fun b mem =>
        directoryEv_stays (rn.trans rn') st (List.mem_append_right _ mem)
    refine ⟨d'', ?_, ref''⟩
    rw [List.filterMap_append, old, List.filterMap_cons, List.filterMap_nil]
    have last := run.trans run'
    cases e : a.directoryEv u.ids with
    | none => rwa [e] at last
    | some ev => rwa [e] at last

/-- So is one from the start. -/
lemma directory_run (rn : Run (Step srv) init tr s) :
    ∃ d, Run (Mailbox.Step srv.maxSessions) .empty (tr.filterMap (Act.directoryEv s.ids)) d ∧
      Refines s d :=
  refines_init.run .refl rn

/-- What the directory promises of a session's box, the bridge keeps of its inbox: what was taken out
is a prefix of what was put in, and while the inbox is open what waits is the rest. -/
lemma mailbox_promises (rn : Run (Step srv) init tr s) (h : s.session g = some x) :
    let es := (tr.filterMap (Act.directoryEv s.ids)).filterMap (Ev.at x.id)
    takes es <+: puts es ∧
      (x.inbox.isOpen = true → takes es ++ x.inbox.queue.map Prod.snd = puts es) := by
  intro es
  obtain ⟨d, run, ref⟩ := directory_run rn
  have acc : Account es (d.box x.id) := account (box_run run x.id)
  refine ⟨acc.pre, fun open' => ?_⟩
  by_cases stage : x.stage = .opening
  · have quiet : es = [] := acc.vacant ((ref.box g x h).trans (Session.box_opening stage))
    rw [quiet, opening_new rn h stage]
    rfl
  · refine acc.serving _ ?_
    rw [ref.box g x h, Session.box_past stage, inboxBox, if_pos open']

/-- Every run of the bridge is, action by action, a run of a directory that lists at most
`maxSessions` mailboxes; so no more sessions are listed, and letters are taken out of an inbox as they
were put into it. -/
theorem refines_directory (rn : Run (Step srv) init tr s) :
    (∃ d, Run (Mailbox.Step srv.maxSessions) .empty (tr.filterMap (Act.directoryEv s.ids)) d ∧
      Refines s d ∧ d.listed.card ≤ srv.maxSessions) ∧
    ∀ g x, s.session g = some x →
      let es := (tr.filterMap (Act.directoryEv s.ids)).filterMap (Ev.at x.id)
      takes es <+: puts es ∧
        (x.inbox.isOpen = true → takes es ++ x.inbox.queue.map Prod.snd = puts es) := by
  obtain ⟨d, run, ref⟩ := directory_run rn
  exact ⟨⟨d, run, ref, listed_le run⟩, fun g x h => mailbox_promises rn h⟩

/-- The bridge serving 32 clients of one session, as a directory of one mailbox. -/
theorem refines_directory_pings :
    ∃ s d, Run (Step Server.sample) init (pings bufferSize) s ∧
      Run (Mailbox.Step 1) .empty ((pings bufferSize).filterMap (Act.directoryEv s.ids)) d ∧
      Refines s d := by
  obtain ⟨s, rn, -⟩ := pings_run (Nat.le_refl bufferSize)
  obtain ⟨⟨d, run, ref, -⟩, -⟩ := refines_directory rn
  exact ⟨s, d, rn, run, ref⟩

end OxmlMcp.Sse
