import OxmlMcp.Mpsc.Parking
import OxmlMcp.Sse.Delivery

/-!
# How full an inbox gets

Each `POST` clones the inbox's sender, and a fresh clone may enqueue one message even when the buffer
is full; it is parked then, and its handler waits until a receive unparks it. So what waits past the
buffer is held against handlers that still run, as long as no handler is dropped while it is parked:
a dropped handler leaves its message behind.

* `State.ParkedAt`: the senders parked in an inbox are `POST`s that wait at their send
  (`parked_wait`), or were dropped there (`parked_sent`).
* `finish`: any `POST` can be brought to its end without taking a message out of an inbox.
* `inbox_exact`: an inbox holds at most its buffer and one message for each running `POST` in every
  run that drops no parked handler; dropping one can be run on past that bound.
* `inbox_flood`: 33 clients, the last of which hangs up, leave 33 messages and no handler.
-/

namespace OxmlMcp.Sse
open OxmlMcp.Lts OxmlMcp.Http OxmlMcp.Access OxmlMcp.Mpsc

variable {Msg Reply : Type} {srv : Server Msg Reply}

/-- Whether the handler of a `POST` still runs. -/
def PostPhase.running : PostPhase Msg → Bool
  | .answered _ => false
  | .dropped => false
  | _ => true

/-- The number of `POST` handlers for the session `id` that still run. -/
def State.running (s : State Msg Reply) (id : String) : Nat :=
  s.posts.countP fun q => q.request.sessionId == id && q.phase.running

/-- A client's disconnect drops no handler that is parked at its send. -/
def KeepsParked (s : State Msg Reply) (a : Act Msg Reply) : Prop :=
  ∀ p g x, a = .post p .drop → s.session g = some x → p ∉ x.inbox.parked

/-- The senders parked in an inbox are `POST`s that stand at their send, or where `ok` says. -/
def State.ParkedAt (s : State Msg Reply) (ok : PostPhase Msg → Prop) : Prop :=
  ∀ g x (p : Nat), s.session g = some x → p ∈ x.inbox.parked →
    ∃ req phase, s.posts[p]? = some ⟨req, phase⟩ ∧ (phase = .sent g ∨ ok phase)

/-- A change of a session parks at most the sender of that moment. -/
lemma Change.parked {g x a x'} (ch : Change srv g x a x') :
    x'.inbox.parked.Sublist x.inbox.parked ∨
    ∃ p m, a = .send p g m ∧ x'.inbox.parked = x.inbox.parked ++ [p] := by
  cases ch with
  | send sd =>
    obtain ⟨-, -, -, -, e⟩ := Chan.startSend_inv sd
    split at e
    · exact .inr ⟨_, _, rfl, e⟩
    · exact .inl (by rw [e])
  | own st =>
    cases st with
    | recv _ rc =>
      obtain ⟨-, -, -, -, less⟩ := Chan.nextMessage_inv rc
      exact .inl less
    | dropInbox _ _ => exact .inl (List.nil_sublist _)
    | _ => exact .inl (List.Sublist.refl _)
  | _ => exact .inl (List.Sublist.refl _)

/-- A `POST` waits at its send until it is flushed or dropped. -/
lemma Step.sent_stays {s t : State Msg Reply} {a req g} {p : Nat} (st : Step srv s a t)
    (h : s.posts[p]? = some ⟨req, .sent g⟩) :
    t.posts[p]? = some ⟨req, .sent g⟩ ∨ a = .post p .drop ∨
    (a = .post p .flush ∧ ∃ x, s.session g = some x ∧ x.inbox.Flushed p) := by
  cases st with
  | @postEnter req' =>
    have ne : p ≠ s.posts.length := by
      rintro rfl
      rw [List.getElem?_eq_none le_rfl] at h
      cases h
    exact .inl (by rw [getElem?_concat, if_neg ne]; exact h)
  | @post p' q b phase post pst =>
    by_cases e : p = p'
    · subst e
      cases h.symm.trans post
      cases pst with
      | flush hx fl => exact .inr (.inr ⟨rfl, _, hx, fl⟩)
      | dropSent => exact .inr (.inl rfl)
    · exact .inl (by rw [State.setPost_posts, getElem?_set_of_some post, if_neg e]; exact h)
  | @send p' req' g' m headers x inbox post get sd =>
    by_cases e : p = p'
    · subst e
      cases h.symm.trans post
    · exact .inl (by
        rw [State.setPost_posts, State.setGet_posts, getElem?_set_of_some post, if_neg e]; exact h)
  | _ => exact .inl h

/-- A sender that is parked in an inbox was parked there before, or stands at its send. -/
lemma Step.parked_inv {s t : State Msg Reply} {a g x'} {p : Nat} (st : Step srv s a t)
    (h' : t.session g = some x') (mem : p ∈ x'.inbox.parked) :
    (∃ x, s.session g = some x ∧ p ∈ x.inbox.parked) ∨
    ∃ req, t.posts[p]? = some ⟨req, .sent g⟩ := by
  rcases st.session_inv h' with ⟨_, id, _, rfl, _⟩ | ⟨x, h, ch⟩
  · cases mem
  · rcases ch.parked with sub | ⟨q, m, rfl, e⟩
    · exact .inl ⟨x, h, sub.subset mem⟩
    · rw [e] at mem
      rcases List.mem_append.1 mem with mem | mem
      · exact .inl ⟨x, h, mem⟩
      · cases st with
        | send post get sd =>
          rw [List.mem_singleton.1 mem, State.setPost_posts, State.setGet_posts,
            getElem?_set_of_some post, if_pos rfl]
          exact .inr ⟨_, rfl⟩

/-- A step keeps the parked senders at their send, unless it drops one, or where `ok` says. -/
lemma Step.parkedAt {s t : State Msg Reply} {a} {ok : PostPhase Msg → Prop} (st : Step srv s a t)
    (drops : ∀ p g x, a = .post p .drop → s.session g = some x → p ∈ x.inbox.parked → ok .dropped)
    (stays : ∀ (p : Nat) req phase, s.posts[p]? = some ⟨req, phase⟩ → ok phase →
      t.posts[p]? = some ⟨req, phase⟩)
    (at' : s.ParkedAt ok) : t.ParkedAt ok := by
  intro g x' p h' mem
  rcases st.parked_inv h' mem with ⟨x, h, mem⟩ | ⟨req, hp⟩
  · obtain ⟨req, phase, hp, rfl | good⟩ := at' g x p h mem
    · rcases st.sent_stays hp with hp' | rfl | ⟨_, x0, h0, closed | free⟩
      · exact ⟨req, _, hp', .inl rfl⟩
      · cases st with
        | post post pst =>
          cases hp.symm.trans post
          cases pst with
          | dropSent =>
            refine ⟨req, .dropped, ?_, .inr (drops p g x rfl h mem)⟩
            rw [State.setPost_posts, getElem?_set_of_some post, if_pos rfl]
      · -- a parked sender is not flushed
        cases h.symm.trans h0
        simp [Chan.isOpen_of_parked mem] at closed
      · cases h.symm.trans h0
        exact absurd mem free
    · exact ⟨req, phase, stays p req phase hp good, .inr good⟩
  · exact ⟨req, _, hp, .inl rfl⟩

/-- In a run that drops no parked handler the parked senders wait at their send. -/
lemma parked_wait {s : State Msg Reply} {tr} (rn : Run (Guarded (Step srv) KeepsParked) init tr s) :
    s.ParkedAt fun _ => False := by
  apply rn.invariant (P := fun s => s.ParkedAt fun _ => False)
  · intro g x p h
    cases h
  · rintro t a u at' ⟨st, keep⟩
    exact st.parkedAt (fun p g x e h mem => keep p g x e h mem) (fun p req phase _ no => no.elim) at'

/-- In any run the parked senders wait at their send or were dropped there. -/
lemma parked_sent {s : State Msg Reply} {tr} (rn : Run (Step srv) init tr s) :
    s.ParkedAt fun phase => phase = .dropped := by
  apply rn.invariant (P := fun s => s.ParkedAt fun phase => phase = .dropped)
  · intro g x p h
    cases h
  · intro t a u at' st
    refine st.parkedAt (fun p g x _ _ _ => rfl) ?_ at'
    rintro p req _ h rfl
    obtain ⟨q, h', ch⟩ := st.post_fwd h
    cases ch with
    | other _ => exact h'
    | own pst => cases pst

/-- Where no parked handler was dropped, as many senders are parked at most as handlers run. -/
lemma parked_le {s : State Msg Reply} {tr g x} (rn : Run (Guarded (Step srv) KeepsParked) init tr s)
    (h : s.session g = some x) : x.inbox.parked.length ≤ s.running x.id := by
  have nd : x.inbox.parked.Nodup :=
    (sent_nodup rn.unguard).sublist (parked_sublist (inbox_run rn.unguard h))
  refine length_le_countP nd fun p mem => ?_
  obtain ⟨req, phase, hp, rfl | no⟩ := parked_wait rn g x p h mem
  · obtain ⟨m, _, _, x', h', e, _⟩ := accounts_run rn.unguard hp
    cases h.symm.trans h'
    exact ⟨_, hp, by simp [PostPhase.running, e]⟩
  · exact no.elim

/-- Session `g` has the id `id`, its receiver is alive and at least `n` messages wait for it. -/
def State.Crowded (s : State Msg Reply) (g : Nat) (id : String) (n : Nat) : Prop :=
  ∃ x, s.session g = some x ∧ x.id = id ∧ x.inbox.isOpen = true ∧ n ≤ x.inbox.queue.length

/-- `POST` number `p` can be brought to its end, the other `POST`s where they are, and nothing taken
out of the inbox of session `g`. -/
def State.Ends (srv : Server Msg Reply) (s : State Msg Reply) (g : Nat) (id : String) (n p : Nat) :
    Prop :=
  ∃ tr t, Run (Step srv) s tr t ∧ t.Crowded g id n ∧ t.posts.length = s.posts.length ∧
    (∀ j, j ≠ p → t.posts[j]? = s.posts[j]?) ∧
    ∀ q, t.posts[p]? = some q → q.phase.running = false

/-- A `POST` takes a step on the way to its end. -/
lemma State.Ends.head {s t : State Msg Reply} {a g id n p q q'} (h : s.posts[p]? = some q)
    (st : Step srv s a t) (e : t.posts = s.posts.set p q') (ends : t.Ends srv g id n p) :
    s.Ends srv g id n p := by
  obtain ⟨tr, u, rn, cr, len, other, fin⟩ := ends
  refine ⟨a :: tr, u, .head st rn, cr, ?_, ?_, fin⟩
  · rw [len, e, List.length_set]
  · intro j ne
    rw [other j ne, e, getElem?_set_of_some h, if_neg ne]

/-- A `POST` that is not under way has ended. -/
lemma State.Ends.done {s : State Msg Reply} {g id n p} (cr : s.Crowded g id n)
    (fin : ∀ q, s.posts[p]? = some q → q.phase.running = false) : s.Ends srv g id n p :=
  ⟨[], s, .refl, cr, rfl, fun _ _ => rfl, fin⟩

/-- A step may be the last of a `POST`. -/
lemma State.Ends.last {s : State Msg Reply} {g id n p q a phase} (cr : s.Crowded g id n)
    (h : s.posts[p]? = some q) (st : PostStep srv s p q a phase) (fin : phase.running = false) :
    s.Ends srv g id n p := by
  refine .head h (.post h st) rfl (.done cr ?_)
  intro q' h'
  rw [State.setPost_posts, getElem?_set_of_some h, if_pos rfl] at h'
  cases h'
  exact fin

/-- A `POST` that holds a sender can be brought to its end. -/
lemma finish_holding {s : State Msg Reply} {tr g id n p req g' m} (rn : Run (Step srv) init tr s)
    (cr : s.Crowded g id n) (h : s.posts[p]? = some ⟨req, .holding g' m⟩) :
    s.Ends srv g id n p := by
  obtain ⟨_, _, y, hy, _⟩ := accounts_run rn h
  obtain ⟨headers, get⟩ := State.get_of_session hy
  cases open' : y.inbox.isOpen with
  | false => exact .last cr h (.gone hy open') rfl
  | true =>
    obtain ⟨inbox, sd⟩ := Chan.startSend_open open' p m
    have sent : Step srv s _ _ := .send h get sd
    refine .head h sent rfl ?_
    refine .last ?_ (q := ⟨req, .sent g'⟩) ?_ .dropSent rfl
    · -- the send leaves the inbox of session `g` no emptier
      obtain ⟨x, hx, e, op, le⟩ := cr
      rcases sent.session_fwd hx with ⟨x', hx', ch⟩ | ⟨absurd', _⟩
      · refine ⟨x', hx', ch.id_eq.trans e, ?_⟩
        cases ch with
        | send sd' =>
          obtain ⟨-, op', -, eq, -⟩ := Chan.startSend_inv sd'
          refine ⟨op', le.trans ?_⟩
          simp [eq]
        | other _ => exact ⟨op, le⟩
      · cases absurd'
    · rw [State.setPost_posts, State.setGet_posts, getElem?_set_of_some h, if_pos rfl]

/-- Every `POST` can be brought to its end. -/
lemma finish {s : State Msg Reply} {tr g id n} (rn : Run (Step srv) init tr s)
    (cr : s.Crowded g id n) (p : Nat) : s.Ends srv g id n p := by
  cases h : s.posts[p]? with
  | none => exact .done cr (by simp [h])
  | some q =>
    obtain ⟨req, phase⟩ := q
    cases phase with
    | entered => exact .last cr h .dropEntered rfl
    | parsed m =>
      cases found : s.sessions.get req.sessionId with
      | none => exact .last cr h (.miss found) rfl
      | some g' =>
        have hit : Step srv s _ _ := .post h (.hit found)
        have held : (s.setPost p ⟨req, .holding g' m⟩).posts[p]? = some ⟨req, .holding g' m⟩ := by
          rw [State.setPost_posts, getElem?_set_of_some h, if_pos rfl]
        exact .head h hit rfl (finish_holding (rn.tail hit) cr held)
    | holding g' m => exact finish_holding rn cr h
    | sent g' => exact .last cr h .dropSent rfl
    | answered r => exact .done cr (by simp [h, PostPhase.running])
    | dropped => exact .done cr (by simp [h, PostPhase.running])

/-- All `POST`s can be brought to their end without taking a message out of an inbox. -/
lemma finish_all {s : State Msg Reply} {tr g id n} (rn : Run (Step srv) init tr s)
    (cr : s.Crowded g id n) :
    ∃ tr' t, Run (Step srv) s tr' t ∧ t.Crowded g id n ∧ t.running id = 0 := by
  -- by induction on the number of `POST`s brought to their end so far
  have upTo : ∀ k, ∃ tr' t, Run (Step srv) s tr' t ∧ t.Crowded g id n ∧
      t.posts.length = s.posts.length ∧
      ∀ (j : Nat) (q : Post Msg), j < k → t.posts[j]? = some q → q.phase.running = false := by
    intro k
    induction k with
    | zero => exact ⟨[], s, .refl, cr, rfl, fun _ _ lt => absurd lt (Nat.not_lt_zero _)⟩
    | succ k ih =>
      obtain ⟨tr1, t, rn1, cr1, len1, fin1⟩ := ih
      obtain ⟨tr2, u, rn2, cr2, len2, other, fin2⟩ := finish (rn.trans rn1) cr1 k
      refine ⟨tr1 ++ tr2, u, rn1.trans rn2, cr2, len2.trans len1, ?_⟩
      intro j q lt h
      by_cases e : j = k
      · exact fin2 q (e ▸ h)
      · exact fin1 j q (by omega) (by rwa [← other j e])
  obtain ⟨tr', t, rn', cr', len, fin⟩ := upTo s.posts.length
  refine ⟨tr', t, rn', cr', ?_⟩
  rw [State.running, List.countP_eq_zero]
  intro q mem
  obtain ⟨j, lt, e⟩ := List.getElem_of_mem mem
  have h : t.posts[j]? = some q := by rw [List.getElem?_eq_getElem lt, e]
  simp [fin j q (by omega) h]

/-- An inbox holds at most its buffer and one message for each running `POST` of its session, in
every run in which no parked handler is dropped; and dropping one can be run on past that bound. -/
theorem inbox_exact (srv : Server Msg Reply) :
    (∀ {tr} {s : State Msg Reply} {g x}, Run (Guarded (Step srv) KeepsParked) init tr s →
      s.session g = some x → x.inbox.queue.length ≤ bufferSize + s.running x.id) ∧
    (∀ {tr a} {s t : State Msg Reply}, Run (Step srv) init tr s → Step srv s a t →
      ¬ KeepsParked s a → ∃ tr' u g x, Run (Step srv) t tr' u ∧ u.session g = some x ∧
        bufferSize + u.running x.id < x.inbox.queue.length) := by
  constructor
  · intro tr s g x rn h
    have parked := parked_le rn h
    have queue := x.inbox.queue_le
    rw [run_buffer (inbox_run rn.unguard h)] at queue
    omega
  · intro tr a s t rn st drops
    simp only [KeepsParked, not_forall, not_not] at drops
    obtain ⟨p, g, x, rfl, h, mem⟩ := drops
    have len := Chan.queue_eq mem
    have pos := List.length_pos_of_mem mem
    rw [run_buffer (inbox_run rn h)] at len
    -- the handler is gone and its message waits
    have cr : t.Crowded g x.id (bufferSize + 1) := by
      cases st with
      | post _ _ => exact ⟨x, h, rfl, Chan.isOpen_of_parked mem, by omega⟩
    obtain ⟨tr', u, rn', ⟨y, hy, e, _, le⟩, none'⟩ := finish_all (rn.tail st) cr
    refine ⟨tr', u, g, y, rn', hy, ?_⟩
    rw [e, none']
    omega

/-- A message to the session `a`. -/
def ping : PostRequest := ⟨localHeaders, "a", [112, 105, 110, 103]⟩

/-- What `POST` number `p` does up to its send. -/
def pingUpToSend (p : Nat) : List (Act String String) :=
  [.postEnter ping, .post p .parse, .post p (.hit 0), .send p 0 "ping"]

/-- A client opens the session `a` and `n` clients post to it and are answered. -/
def pings (n : Nat) : List (Act String String) :=
  [.getEnter localHeaders, .getOpen 0 "a", .getAdmit 0] ++
    (List.range n).flatMap fun p => pingUpToSend p ++ [.post p .flush]

/-- The sends of the clients, by the numbers of their `POST`s. -/
lemma mem_pings_send {p g n : Nat} {m : String} : Act.send p g m ∈ pings n ↔ p < n ∧ g = 0 ∧ m = "ping" := by
  simp [pings, pingUpToSend]

/-- One of the steps up to the send is a send. -/
lemma mem_pingUpToSend_send {p g n : Nat} {m : String} :
    Act.send p g m ∈ pingUpToSend n ↔ p = n ∧ g = 0 ∧ m = "ping" := by
  simp [pingUpToSend]

/-- The session `a` is open, `n` messages wait in its inbox, and their `POST`s were answered. -/
structure Waiting (s : State String String) (n : Nat) : Prop where
  found : s.sessions.get "a" = some 0
  inbox : ∃ x, s.session 0 = some x ∧ x.id = "a" ∧ x.inbox.isOpen = true ∧
    x.inbox.queue.length = n ∧ x.inbox.buffer = bufferSize
  posts : s.posts = List.replicate n ⟨ping, .answered (.accepted, "")⟩

/-- There are as many `POST`s as messages, -/
lemma Waiting.length {s : State String String} {n} (wt : Waiting s n) : s.posts.length = n := by
  rw [wt.posts, List.length_replicate]

/-- and none of them is under way. -/
lemma Waiting.quiet {s : State String String} {n} (wt : Waiting s n) : s.running "a" = 0 := by
  rw [State.running, wt.posts, List.countP_replicate]
  rfl

/-- The last `POST` takes a step. -/
lemma PostStep.last {s : State Msg Reply} {l q a phase} (e : s.posts = l ++ [q])
    (st : PostStep srv s l.length q a phase) :
    Step srv s (.post l.length a) { s with posts := l ++ [{ q with phase := phase }] } := by
  have h : s.posts[l.length]? = some q := by rw [e, getElem?_concat, if_pos rfl]
  have st := Step.post h st
  rwa [State.setPost, e, List.set_append_right _ _ (Nat.le_refl _), Nat.sub_self] at st

/-- One more client posts, up to its send. -/
lemma Waiting.send {s : State String String} {n} (wt : Waiting s n) :
    ∃ t x, Run (Step Server.sample) s (pingUpToSend n) t ∧
      t.sessions = s.sessions ∧ t.posts = s.posts ++ [⟨ping, .sent 0⟩] ∧
      t.session 0 = some x ∧ x.id = "a" ∧ x.inbox.isOpen = true ∧
      x.inbox.queue.length = n + 1 ∧ x.inbox.buffer = bufferSize := by
  obtain rfl := wt.length
  obtain ⟨found, ⟨x, h, id, op, len, buf⟩, _⟩ := wt
  obtain ⟨headers, get⟩ := State.get_of_session h
  obtain ⟨inbox, sd⟩ := Chan.startSend_open op s.posts.length "ping"
  obtain ⟨-, op', buf', queue, -⟩ := Chan.startSend_inv sd
  have enter : Step Server.sample s (.postEnter ping)
      { s with posts := s.posts ++ [⟨ping, .entered⟩] } := .postEnter
  have parse : Step Server.sample _ _ _ := PostStep.last
    (s := { s with posts := s.posts ++ [⟨ping, .entered⟩] }) rfl (.parse (m := "ping") rfl)
  have hit : Step Server.sample _ _ _ := PostStep.last
    (s := { s with posts := s.posts ++ [⟨ping, .parsed "ping"⟩] }) rfl (.hit found)
  have held : (s.posts ++ [(⟨ping, .holding 0 "ping"⟩ : Post String)])[s.posts.length]? =
      some ⟨ping, .holding 0 "ping"⟩ := by
    rw [getElem?_concat, if_pos rfl]
  have send : Step Server.sample _ _ _ := Step.send
    (s := { s with posts := s.posts ++ [⟨ping, .holding 0 "ping"⟩] }) held get sd
  refine ⟨_, { x with inbox := inbox }, .head enter <| .head parse <| .head hit <| .single send,
    rfl, ?_, ?_, id, op', ?_, buf'.trans buf⟩
  · rw [State.setPost_posts, State.setGet_posts, List.set_append_right _ _ (Nat.le_refl _),
      Nat.sub_self]
    rfl
  · show ((s.gets.set 0 _)[0]?.bind Get.session) = _
    rw [getElem?_set_of_some get, if_pos rfl]
    rfl
  · rw [queue, List.length_append, len]
    rfl

/-- Up to the size of the buffer every client is answered. -/
lemma pings_run {n : Nat} (le : n ≤ bufferSize) :
    ∃ s, Run (Step Server.sample) init (pings n) s ∧ Waiting s n := by
  induction n with
  | zero =>
    refine ⟨_, .head .getEnter <| .head (.getOpen rfl rfl ?_) <| .single (.getAdmit rfl rfl rfl),
      rfl, ⟨_, rfl, rfl, rfl, rfl, rfl⟩, rfl⟩
    intro g x h
    rcases g with _ | g <;> cases h
  | succ n ih =>
    obtain ⟨s, rn, wt⟩ := ih (by omega)
    obtain ⟨t, x, rn', tab, posts, h, id, op, len, buf⟩ := wt.send
    have posts' : s.posts.length = n := wt.length
    -- the buffer is not full, so the sender is not parked
    have free : x.inbox.parked = [] := by
      have := x.inbox.parked_length
      rw [len, buf] at this
      exact List.eq_nil_of_length_eq_zero (by omega)
    have flush : Step Server.sample _ _ _ :=
      PostStep.last posts (.flush h (.inr (by simp [free])))
    rw [posts'] at flush
    refine ⟨{ t with posts := s.posts ++ [⟨ping, .answered (.accepted, "")⟩] }, ?_, tab ▸ wt.found,
      ⟨x, h, id, op, len, buf⟩, ?_⟩
    · have trace : pings (n + 1) = pings n ++ (pingUpToSend n ++ [.post n .flush]) := by
        simp [pings, List.range_succ]
      exact trace ▸ rn.trans (rn'.tail flush)
    · rw [wt.posts, List.replicate_succ']

/-- 32 clients are answered and the next one waits, parked; the client after it is gone before its
message is sent. That meets the condition of `inbox_exact`, and the bound is reached. -/
theorem inbox_exact_parked :
    ∃ s x, Run (Guarded (Step Server.sample) KeepsParked) init
        (pings bufferSize ++ pingUpToSend bufferSize ++
          [.postEnter ping, .post (bufferSize + 1) .drop]) s ∧
      s.session 0 = some x ∧ x.inbox.queue.length ≤ bufferSize + s.running x.id ∧
      x.inbox.queue.length = bufferSize + 1 := by
  obtain ⟨s, rn, wt⟩ := pings_run (Nat.le_refl bufferSize)
  obtain ⟨t, x, rn', _, posts, h, _, _, len, _⟩ := wt.send
  have rnt := rn.trans rn'
  -- no handler is dropped up to here
  have stay : ∀ a ∈ pings bufferSize ++ pingUpToSend bufferSize, ∀ s, KeepsParked s a := by
    intro a mem s p g x e
    subst e
    simp [pings, pingUpToSend] at mem
  have enter : Step Server.sample t (.postEnter ping)
      { t with posts := t.posts ++ [⟨ping, .entered⟩] } := .postEnter
  have drop : Step Server.sample _ _ _ := PostStep.last
    (s := { t with posts := t.posts ++ [⟨ping, .entered⟩] }) rfl .dropEntered
  have number : t.posts.length = bufferSize + 1 := by
    rw [posts, List.length_append, wt.length, List.length_singleton]
  rw [number] at drop
  -- and the one that then is has sent nothing
  have free : KeepsParked { t with posts := t.posts ++ [⟨ping, .entered⟩] }
      (.post (bufferSize + 1) .drop : Act String String) := by
    intro p g y e hy mem
    cases e
    have sent := (parked_sublist (inbox_run rnt hy)).subset mem
    obtain ⟨⟨p, m⟩, sent, e⟩ := List.mem_map.1 sent
    cases e
    have act := mem_sent.1 sent
    rw [List.mem_append, mem_pings_send, mem_pingUpToSend_send] at act
    rcases act with ⟨lt, -⟩ | ⟨e, -⟩
    · exact absurd lt (by decide)
    · exact absurd e (by decide)
  have whole : Run (Guarded (Step Server.sample) KeepsParked) init
      (pings bufferSize ++ pingUpToSend bufferSize ++
        [.postEnter ping, .post (bufferSize + 1) .drop]) _ :=
    (rnt.guard stay).trans (.head ⟨enter, fun p g x e => by cases e⟩ (.single ⟨drop, free⟩))
  exact ⟨_, x, whole, h, (inbox_exact Server.sample).1 whole h, len⟩

/-- 33 clients post to one session and the last of them, parked, hangs up: 33 messages wait and no
handler runs. -/
theorem inbox_flood :
    ∃ s x, Run (Step Server.sample) init
        (pings bufferSize ++ pingUpToSend bufferSize ++ [.post bufferSize .drop]) s ∧
      s.session 0 = some x ∧ bufferSize + s.running x.id < x.inbox.queue.length := by
  obtain ⟨s, rn, wt⟩ := pings_run (Nat.le_refl bufferSize)
  obtain ⟨t, x, rn', _, posts, h, id, _, len, _⟩ := wt.send
  have posts' : s.posts.length = bufferSize := wt.length
  have drop : Step Server.sample _ _ _ := PostStep.last posts .dropSent
  rw [posts'] at drop
  refine ⟨_, x, (rn.trans rn').tail drop, h, ?_⟩
  have quiet := wt.quiet
  rw [State.running] at quiet
  rw [id, State.running, List.countP_append, quiet, len]
  exact Nat.lt_succ_self _

end OxmlMcp.Sse
