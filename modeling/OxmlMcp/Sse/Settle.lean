import Mathlib.Data.Finset.Dedup
import Mathlib.Data.Fintype.EquivFin
import OxmlMcp.Lts.Rest
import OxmlMcp.Sse.Inbox
import OxmlMcp.Sse.Outbox

/-!
# The bridge comes to rest

When no request arrives any more, no client gives up a `POST` and no service emits, what is under way
comes to an end, in whatever order the server takes its steps and whatever it was doing. Clients may
hang up and services may quit all the while; but nothing says that they do, and a client that stays
keeps its slot.

* `State.work`: a measure that every such step lowers (`Step.work_lt`).
* `Due`: the steps that are sure to come: all of those but the quits of services, and the hang-ups of
  streams that are not over.
* `at_rest`: where no such step is left, every stream is closed or has been read as far as its service
  emitted, every `POST` is answered and every message sent to a living service is received.
* `settles`: so every run ends there, after `State.work` steps at most, and none of the `POST`s that
  had put their message in an inbox fails.
-/

namespace OxmlMcp.Sse
open OxmlMcp.Lts OxmlMcp.Http OxmlMcp.Access OxmlMcp.Mpsc

variable {Msg Reply : Type} {srv : Server Msg Reply}

/-- The actions other than a new request, a client giving up a `POST` and a service emitting. -/
def Act.Calm : Act Msg Reply → Prop
  | .getEnter _ => False
  | .postEnter _ => False
  | .post _ .drop => False
  | .session _ (.emit _) => False
  | _ => True

/-- The steps of what is under way. -/
abbrev CalmStep (srv : Server Msg Reply) :=
  Guarded (Step srv) fun _ a => a.Calm

/-- The stream of a session is over: it failed, or the service has quit and all it emitted was read. -/
def Session.Over (x : Session Msg Reply) : Prop :=
  x.stage = .failed ∨
    x.stage = .streaming ∧ x.endpoint = false ∧ x.inbox.isOpen = false ∧ x.outbox.queue = []

/-- The calm actions that wait for nobody's decision: services receive, clients read what there is and
streams that are over are dropped. -/
def Due (s : State Msg Reply) : Act Msg Reply → Prop
  | .session _ .dropInbox => False
  | .session g .hangUp => ∃ x, s.session g = some x ∧ x.Over
  | a => a.Calm

/-- The steps that are sure to come. -/
abbrev DueStep (srv : Server Msg Reply) :=
  Guarded (Step srv) Due

/-- What is due is calm. -/
lemma Due.calm {s : State Msg Reply} {a} (due : Due s a) : a.Calm := by
  unfold Due at due
  split at due
  · exact due.elim
  · trivial
  · exact due

/-- The stages a session has still to go through. -/
def Stage.rank : Stage → Nat
  | .opening => 6
  | .admitted => 5
  | .spawned => 4
  | .streaming => 3
  | .failed => 2
  | .hungUp => 1
  | .closed => 0

/-- What is left to do for a session: its stages, its endpoint event, what waits in its channels, and
that its service quits. -/
def Session.work (x : Session Msg Reply) : Nat :=
  x.stage.rank + x.endpoint.toNat + x.inbox.isOpen.toNat + x.inbox.queue.length +
    x.outbox.queue.length

/-- What is left to do for a `GET`. -/
def Get.work (y : Get Msg Reply) : Nat :=
  match y.phase with
  | .entered => 9
  | .refused _ => 0
  | .opened x => x.work

/-- What is left to do for a `POST`. -/
def Post.work (q : Post Msg) : Nat :=
  match q.phase with
  | .entered => 5
  | .parsed _ => 4
  -- the message it is to send is then left to receive
  | .holding _ _ => 3
  | .sent _ => 1
  | .answered _ => 0
  | .dropped => 0

/-- What is left to do for the requests that have arrived. -/
def State.work (s : State Msg Reply) : Nat :=
  (s.gets.map Get.work).sum + (s.posts.map Post.work).sum

@[simp] lemma Get.work_entered (headers : HeaderMap) :
    (⟨headers, .entered⟩ : Get Msg Reply).work = 9 := rfl
@[simp] lemma Get.work_refused (headers : HeaderMap) (r : Refusal) :
    (⟨headers, .refused r⟩ : Get Msg Reply).work = 0 := rfl
@[simp] lemma Get.work_opened (headers : HeaderMap) (x : Session Msg Reply) :
    (⟨headers, .opened x⟩ : Get Msg Reply).work = x.work := rfl

/-- A session's own calm step lowers what is left to do for it. -/
lemma SessionStep.work_lt {x : Session Msg Reply} {g a x'} (st : SessionStep srv x a x')
    (calm : (Act.session g a : Act Msg Reply).Calm) : x'.work < x.work := by
  cases st with
  | spawn stage => simp [Session.work, stage, Stage.rank]
  | respond stage => simp [Session.work, stage, Stage.rank]
  | endpoint _ unread => simp [Session.work, unread]
  | message _ _ rc _ =>
    obtain ⟨-, -, -, queue, -⟩ := Chan.nextMessage_inv rc
    simp [Session.work, queue]
  | fail stage _ rc _ =>
    obtain ⟨-, -, -, queue, -⟩ := Chan.nextMessage_inv rc
    simp [Session.work, queue, stage, Stage.rank]
    omega
  | hangUp stage => rcases stage with stage | stage <;> simp [Session.work, stage, Stage.rank] <;> omega
  | recv _ rc =>
    obtain ⟨open', open'', -, queue, -⟩ := Chan.nextMessage_inv rc
    simp [Session.work, queue, open', open'']
  | emit _ _ _ _ => exact calm.elim
  | dropInbox _ open' =>
    simp [Session.work, open']
    omega

/-- A `POST`'s own calm step lowers what is left to do for it. -/
lemma PostStep.work_lt {s : State Msg Reply} {p q a phase} (st : PostStep srv s p q a phase)
    (calm : (Act.post p a : Act Msg Reply).Calm) : Post.work { q with phase := phase } < q.work := by
  cases st with
  | dropEntered => exact calm.elim
  | dropSent => exact calm.elim
  | _ => simp [Post.work]

/-- A `GET` moves on. -/
lemma State.work_setGet {s : State Msg Reply} {g : Nat} {y} (h : s.gets[g]? = some y) (y') :
    (s.setGet g y').work + y.work = s.work + y'.work := by
  have := sum_set (f := Get.work) h y'
  simp only [State.work, State.setGet_gets, State.setGet_posts]
  omega

/-- A `POST` moves on. -/
lemma State.work_setPost {s : State Msg Reply} {p : Nat} {q} (h : s.posts[p]? = some q) (q') :
    (s.setPost p q').work + q.work = s.work + q'.work := by
  have := sum_set (f := Post.work) h q'
  simp only [State.work, State.setPost_gets, State.setPost_posts]
  omega

/-- Every calm step lowers what is left to do. -/
lemma Step.work_lt {s t : State Msg Reply} {a} (st : Step srv s a t) (calm : a.Calm) :
    t.work < s.work := by
  cases st with
  | getEnter => exact calm.elim
  | @getForbid g headers r get _ =>
    have := State.work_setGet get ⟨headers, .refused r⟩
    simp only [Get.work_entered, Get.work_refused] at this
    omega
  | @getOpen g headers id get _ _ =>
    have := State.work_setGet get ⟨headers, .opened (.new id)⟩
    have new : (Session.new id : Session Msg Reply).work = 8 := rfl
    simp only [Get.work_entered, Get.work_opened, new] at this
    omega
  | @getFull g headers x r get stage _ =>
    have := State.work_setGet get ⟨headers, .refused r⟩
    have pos : 0 < x.work := by
      have first : x.stage.rank = 6 := congrArg Stage.rank stage
      unfold Session.work
      omega
    simp only [Get.work_opened, Get.work_refused] at this
    omega
  | @getAdmit g headers x t get stage _ =>
    have := State.work_setGet get ⟨headers, .opened { x with stage := .admitted }⟩
    have less : ({ x with stage := .admitted } : Session Msg Reply).work < x.work := by
      simp [Session.work, stage, Stage.rank]
    simp only [Get.work_opened] at this
    change (s.setGet g _).work < s.work
    omega
  | @session g headers x a x' get sst =>
    have := State.work_setGet get ⟨headers, .opened x'⟩
    have less := sst.work_lt calm
    simp only [Get.work_opened] at this
    omega
  | @dropGuard g headers x get stage =>
    have := State.work_setGet get ⟨headers, .opened { x with stage := .closed }⟩
    have less : ({ x with stage := .closed } : Session Msg Reply).work < x.work := by
      simp [Session.work, stage, Stage.rank]
    simp only [Get.work_opened] at this
    change (s.setGet g _).work < s.work
    omega
  | postEnter => exact calm.elim
  | @post p q a phase post pst =>
    have := State.work_setPost post { q with phase := phase }
    have less := pst.work_lt calm
    omega
  | @send p req g m headers x inbox post get sd =>
    have get' := State.work_setGet get ⟨headers, .opened { x with inbox := inbox }⟩
    have post' := State.work_setPost (s := s.setGet g ⟨headers, .opened { x with inbox := inbox }⟩)
      post ⟨req, .sent g⟩
    obtain ⟨open', open'', -, queue, -⟩ := Chan.startSend_inv sd
    have more : ({ x with inbox := inbox } : Session Msg Reply).work = x.work + 1 := by
      simp [Session.work, queue, open', open'']
      omega
    have held : (⟨req, .holding g m⟩ : Post Msg).work = 3 := rfl
    have sent : (⟨req, .sent g⟩ : Post Msg).work = 1 := rfl
    simp only [Get.work_opened] at get'
    omega

/-- Some id no session has had is left. -/
lemma exists_fresh (s : State Msg Reply) : ∃ id, s.Fresh id := by
  obtain ⟨id, new⟩ := Infinite.exists_notMem_finset
    (s.gets.filterMap fun y => y.session.map Session.id).toFinset
  refine ⟨id, fun g x h e => new ?_⟩
  obtain ⟨headers, get⟩ := State.get_of_session h
  rw [List.mem_toFinset, List.mem_filterMap]
  exact ⟨_, List.mem_of_getElem? get, by simp [e]⟩

/-- A stream that is still read: its client is there and has read the endpoint event and all that the
service emitted, and the service runs. -/
structure Session.Idle (srv : Server Msg Reply) (tr : List (Act Msg Reply)) (g : Nat)
    (x : Session Msg Reply) : Prop where
  stage : x.stage = .streaming
  runs : .session g .dropInbox ∉ tr
  read : (reads g tr).map some = expected srv x.id (emits g tr)

/-- The server at rest, after a run with history `tr`. -/
structure AtRest (srv : Server Msg Reply) (tr : List (Act Msg Reply)) (s : State Msg Reply) :
    Prop where
  /-- Every `GET` was refused, or its stream is closed, or is still read; -/
  gets : ∀ (g : Nat) y, s.gets[g]? = some y →
    (∃ r, y.phase = .refused r) ∨
      ∃ x, y.phase = .opened x ∧ (x.stage = .closed ∨ x.Idle srv tr g)
  /-- the table lists the streams that are still read; -/
  table : ∀ id g, (id, g) ∈ s.sessions ↔ ∃ x, s.session g = some x ∧ x.id = id ∧ x.Idle srv tr g
  /-- no `POST` is under way; -/
  posts : ∀ (p : Nat) q, s.posts[p]? = some q → q.phase.running = false
  /-- and a service that has not quit has received whatever was sent to it. -/
  drained : ∀ g x, s.session g = some x → .session g .dropInbox ∉ tr → received g tr = sent g tr

/-- A session at rest is closed or its stream still read, and nothing waits in its inbox. -/
lemma session_at_rest {s : State Msg Reply} {tr g x} (rn : Run (Step srv) init tr s)
    (stuck : Stuck (DueStep srv) s) (h : s.session g = some x) :
    (x.stage = .closed ∨ x.Idle srv tr g) ∧ x.inbox.queue = [] := by
  obtain ⟨headers, get⟩ := State.get_of_session h
  -- a due step of the session is none
  have quiet : ∀ {a x'}, SessionStep srv x a x' → ¬ Due s (.session g a) :=
    fun st due => stuck _ _ ⟨.session get st, due⟩
  have rest : x.stage = .closed ∨ x.Idle srv tr g := by
    cases stage : x.stage with
    | opening =>
      cases adm : admitSession s.sessions srv.maxSessions x.id g with
      | error r => exact absurd ⟨.getFull get stage adm, trivial⟩ (stuck _ _)
      | ok t => exact absurd ⟨.getAdmit get stage adm, trivial⟩ (stuck _ _)
    | admitted => exact (quiet (.spawn stage) trivial).elim
    | spawned => exact (quiet (.respond stage) trivial).elim
    | streaming =>
      right
      have read : x.endpoint = false := by
        rw [← Bool.not_eq_true]
        exact fun unread => quiet (.endpoint stage unread) trivial
      have none' : x.outbox.queue = [] := by
        cases next : x.outbox.nextMessage 0 with
        | none => exact Chan.nextMessage_eq_none.1 next
        | some got =>
          obtain ⟨⟨⟨⟩, r⟩, outbox⟩ := got
          cases json : srv.toJson r with
          | none => exact (quiet (.fail stage read next json) trivial).elim
          | some j => exact (quiet (.message stage read next json) trivial).elim
      have runs : ¬ x.inbox.isOpen = false := fun quit =>
        quiet (.hangUp (.inl stage)) ⟨x, h, .inr ⟨stage, read, quit, none'⟩⟩
      have open' : x.outbox.isOpen = true := by
        rw [← Bool.not_eq_false, (run_outboxOk rn h).closed_iff]
        simp [stage]
      exact ⟨stage, fun mem => runs ((inbox_closed_iff rn h).2 mem),
        reads_all rn h stage read open' none'⟩
    | failed => exact (quiet (.hangUp (.inr stage)) ⟨x, h, .inl stage⟩).elim
    | hungUp => exact absurd ⟨.dropGuard get stage, trivial⟩ (stuck _ _)
    | closed => exact .inl rfl
  refine ⟨rest, ?_⟩
  have serving : x.stage.Serving := by
    rcases rest with stage | idle
    · rw [stage]
      trivial
    · rw [idle.stage]
      trivial
  cases next : x.inbox.nextMessage 0 with
  | none => exact Chan.nextMessage_eq_none.1 next
  | some got =>
    obtain ⟨⟨p, m⟩, inbox⟩ := got
    exact (quiet (.recv serving next) trivial).elim

/-- No `POST` is under way at rest. -/
lemma post_at_rest {s : State Msg Reply} {tr q} {p : Nat} (rn : Run (Step srv) init tr s)
    (stuck : Stuck (DueStep srv) s) (h : s.posts[p]? = some q) : q.phase.running = false := by
  have quiet : ∀ {a phase}, PostStep srv s p q a phase → ¬ Due s (.post p a) :=
    fun st due => stuck _ _ ⟨.post h st, due⟩
  have acc := accounts_run rn h
  obtain ⟨req, phase⟩ := q
  cases phase with
  | entered =>
    cases checks : postChecks srv req with
    | error r => exact (quiet (.refuse checks) trivial).elim
    | ok m => exact (quiet (.parse checks) trivial).elim
  | parsed m =>
    cases found : s.sessions.get req.sessionId with
    | none => exact (quiet (.miss found) trivial).elim
    | some g => exact (quiet (.hit found) trivial).elim
  | holding g m =>
    obtain ⟨-, -, x, hx, -⟩ := acc
    cases open' : x.inbox.isOpen with
    | false => exact (quiet (.gone hx open') trivial).elim
    | true =>
      obtain ⟨headers, get⟩ := State.get_of_session hx
      obtain ⟨inbox, sd⟩ := Chan.startSend_open open' p m
      exact absurd ⟨.send h get sd, trivial⟩ (stuck _ _)
  | sent g =>
    obtain ⟨m, -, -, x, hx, -⟩ := acc
    have free : x.inbox.parked = [] := by
      have e := x.inbox.parked_length
      rw [(session_at_rest rn stuck hx).2] at e
      exact List.eq_nil_of_length_eq_zero (by simpa using e)
    exact (quiet (.flush hx (.inr (by simp [free]))) trivial).elim
  | answered r => rfl
  | dropped => rfl

/-- A reachable state in which no step is due is at rest. -/
lemma at_rest {s : State Msg Reply} {tr} (rn : Run (Step srv) init tr s)
    (stuck : Stuck (DueStep srv) s) : AtRest srv tr s where
  gets g y get := by
    obtain ⟨headers, phase⟩ := y
    cases phase with
    | entered =>
      cases ok : srv.guard.check srv.http headers with
      | error r => exact absurd ⟨.getForbid get ok, trivial⟩ (stuck _ _)
      | ok _ =>
        obtain ⟨id, fresh⟩ := exists_fresh s
        exact absurd ⟨.getOpen get ok fresh, trivial⟩ (stuck _ _)
    | refused r => exact .inl ⟨r, rfl⟩
    | opened x =>
      exact .inr ⟨x, rfl, (session_at_rest rn stuck (State.session_of_get get)).1⟩
  table id g := by
    rw [(run_tableOk rn).mem_iff]
    constructor
    · rintro ⟨x, h, e, listed⟩
      rcases (session_at_rest rn stuck h).1 with stage | idle
      · rw [stage] at listed
        exact listed.elim
      · exact ⟨x, h, e, idle⟩
    · rintro ⟨x, h, e, idle⟩
      refine ⟨x, h, e, ?_⟩
      rw [idle.stage]
      trivial
  posts p q h := post_at_rest rn stuck h
  drained g x h alive := by
    have e := (session_delivery rn h).alive alive
    rwa [(session_at_rest rn stuck h).2, List.append_nil] at e

/-- A `POST` that has put its message in an inbox is answered `202` or is left where it is. -/
lemma sent_calm {s t : State Msg Reply} {tr req g} {p : Nat} (rn : Run (CalmStep srv) s tr t)
    (h : s.posts[p]? = some ⟨req, .sent g⟩) :
    t.posts[p]? = some ⟨req, .sent g⟩ ∨ t.posts[p]? = some ⟨req, .answered (.accepted, "")⟩ := by
  induction rn with
  | refl => exact .inl h
  | tail _ st ih =>
    obtain ⟨st, calm⟩ := st
    rcases ih with h | h
    · obtain ⟨q', h', ch⟩ := st.post_fwd h
      cases ch with
      | other _ => exact .inl h'
      | own pst =>
        cases pst with
        | flush _ _ => exact .inr h'
        | dropSent => exact calm.elim
    · obtain ⟨q', h', ch⟩ := st.post_fwd h
      cases ch with
      | other _ => exact .inr h'
      | own pst => cases pst

/-- Whatever the server was doing, once no request arrives any more, no client gives up a `POST` and
no service emits, it takes at most `State.work` steps more, in any order. Where none of them is due
the server is at rest, and each `POST` that had put its message in an inbox was answered `202`; and
the steps that are due lead there. -/
theorem settles {s : State Msg Reply} {tr} (rn : Run (Step srv) init tr s) :
    (∀ {tr' t}, Run (CalmStep srv) s tr' t → tr'.length ≤ s.work) ∧
    (∀ {tr' t}, Run (CalmStep srv) s tr' t → Stuck (DueStep srv) t →
      AtRest srv (tr ++ tr') t ∧
      ∀ (p : Nat) req g, s.posts[p]? = some ⟨req, .sent g⟩ →
        t.posts[p]? = some ⟨req, .answered (.accepted, "")⟩) ∧
    ∃ tr' t, Run (DueStep srv) s tr' t ∧ Stuck (DueStep srv) t := by
  have less : ∀ (s : State Msg Reply) a t, CalmStep srv s a t → t.work < s.work := by
    rintro s a t ⟨st, calm⟩
    exact st.work_lt calm
  have less' : ∀ (s : State Msg Reply) a t, DueStep srv s a t → t.work < s.work := by
    rintro s a t ⟨st, due⟩
    exact st.work_lt due.calm
  refine ⟨?_, ?_, exists_stuck less' s⟩
  · intro tr' t rn'
    exact (Nat.le_add_right _ _).trans (rn'.length_le less)
  · intro tr' t rn' stuck
    have whole := rn.trans rn'.unguard
    refine ⟨at_rest whole stuck, fun p req g h => ?_⟩
    rcases sent_calm rn' h with h' | h'
    · -- a `POST` at its send is still under way
      cases post_at_rest whole stuck h'
    · exact h'

/-- A client has opened its stream and another has posted to it: they come to rest, the second
answered. -/
theorem settles_ping :
    ∃ s, Run (Step Server.sample) init (pings 0 ++ pingUpToSend 0) s ∧
      ∃ tr t, Run (CalmStep Server.sample) s tr t ∧
        AtRest Server.sample (pings 0 ++ pingUpToSend 0 ++ tr) t ∧
        t.posts[0]? = some ⟨ping, .answered (.accepted, "")⟩ := by
  obtain ⟨s, rn, wt⟩ := pings_run (Nat.zero_le bufferSize)
  obtain ⟨t, x, rn', _, posts, _⟩ := wt.send
  refine ⟨t, rn.trans rn', ?_⟩
  obtain ⟨-, rest, tr, u, due, stuck⟩ := settles (rn.trans rn')
  have calm : Run (CalmStep Server.sample) t tr u := due.mono fun st => ⟨st.1, st.2.calm⟩
  obtain ⟨quiet, answered⟩ := rest calm stuck
  refine ⟨tr, u, calm, quiet, answered 0 ping 0 ?_⟩
  rw [posts, wt.posts]
  rfl

end OxmlMcp.Sse
