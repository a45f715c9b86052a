import Mathlib.Algebra.GroupWithZero.Nat
import OxmlMcp.Mpsc.Parking
import OxmlMcp.Sse.Channels
import OxmlMcp.Sse.Slots

/-!
# What waits for the clients

The other side of a session from its inbox: what its service has emitted and its client has not
read. An outbox has a single sender, the service, which waits until it is flushed before it sends
again; so an outbox exceeds its buffer by one message at most, and a client that reads nothing
stops its service instead of filling the server's memory.

* `outbox_polite`: what a run does to an outbox is a run in which only unparked senders send.
* `OutboxOk`: an outbox is empty before its service runs, and closed once its client is gone.
* `outbox_bound`: the bound on one outbox and on all of them.
-/

namespace OxmlMcp.Sse
open OxmlMcp.Lts OxmlMcp.Http OxmlMcp.Access OxmlMcp.Mpsc

variable {Msg Reply : Type} {srv : Server Msg Reply}

/-- A service sends only when it is flushed. -/
lemma Change.outbox_polite {g x a x'} (ch : Change srv g x a x') :
    Seen (Guarded Mpsc.Step Polite) x.outbox (a.outboxEv g) x'.outbox := by
  have seen := ch.outbox
  cases e : a.outboxEv g with
  | none =>
    rw [e] at seen
    exact seen
  | some ev =>
    rw [e] at seen
    refine ⟨seen, ?_⟩
    rintro i m rfl
    cases ch with
    | getAdmit _ => cases e
    | dropGuard _ => cases e
    | send _ => cases e
    | other ne =>
      rw [(Act.unseen ne).2.1] at e
      cases e
    | own st =>
      cases st with
      | emit _ _ fl sd =>
        rcases fl with closed | free
        · simp [(Chan.startSend_inv sd).1] at closed
        · exact free
      | _ => simp [Act.outboxEv] at e

/-- What a run does to an outbox is a run of the channel in which only unparked senders send. -/
theorem outbox_polite {s : State Msg Reply} {tr g x} (rn : Run (Step srv) init tr s)
    (h : s.session g = some x) :
    Run (Guarded Mpsc.Step Polite) (channel bufferSize) (tr.filterMap (Act.outboxEv g))
      x.outbox := by
  obtain ⟨tr1, id, tr2, rfl, quiet, life⟩ := session_run rn h
  rw [filterMap_quiet (fun ne => (Act.unseen ne).2.1) quiet rfl]
  exact life.project Session.outbox Change.outbox_polite

/-- An outbox at the stages of its session: empty before the service runs, and closed exactly once
the client is gone. -/
structure OutboxOk (x : Session Msg Reply) : Prop where
  early : ¬ x.stage.Serving → x.outbox.queue = []
  closed_iff : x.outbox.isOpen = false ↔ x.stage = .hungUp ∨ x.stage = .closed

lemma SessionStep.outboxOk {x : Session Msg Reply} {a x'} (st : SessionStep srv x a x')
    (ok : OutboxOk x) : OutboxOk x' := by
  obtain ⟨early, closed⟩ := ok
  cases st with
  | spawn stage => exact ⟨by simp [Stage.Serving], by simpa [stage] using closed⟩
  | respond stage => exact ⟨by simp [Stage.Serving], by simpa [stage] using closed⟩
  | endpoint stage _ => exact ⟨early, closed⟩
  | message stage _ rc _ =>
    obtain ⟨-, open', -⟩ := Chan.nextMessage_inv rc
    exact ⟨by simp [stage, Stage.Serving], by simp [stage, open']⟩
  | fail stage _ rc _ =>
    obtain ⟨-, open', -⟩ := Chan.nextMessage_inv rc
    exact ⟨by simp [Stage.Serving], by simp [open']⟩
  | hangUp stage => exact ⟨fun _ => rfl, by simp⟩
  | recv _ _ => exact ⟨early, closed⟩
  | emit serving _ _ sd =>
    obtain ⟨was, open', -⟩ := Chan.startSend_inv sd
    refine ⟨fun not => absurd serving not, ?_⟩
    rw [← closed, open', was]
  | dropInbox _ _ => exact ⟨early, closed⟩

lemma Change.outboxOk {g x a x'} (ch : Change srv g x a x') (ok : OutboxOk x) : OutboxOk x' := by
  cases ch with
  | getAdmit stage => exact ⟨fun _ => ok.early (by simp [stage, Stage.Serving]),
      by simpa [stage] using ok.closed_iff⟩
  | own st => exact st.outboxOk ok
  | dropGuard stage => exact ⟨by simp [Stage.Serving], by simpa [stage] using ok.closed_iff⟩
  | send _ => exact ⟨ok.early, ok.closed_iff⟩
  | other _ => exact ok

lemma run_outboxOk {s : State Msg Reply} {tr g x} (rn : Run (Step srv) init tr s)
    (h : s.session g = some x) : OutboxOk x := by
  obtain ⟨tr1, id, tr2, rfl, quiet, life⟩ := session_run rn h
  apply life.invariant (P := OutboxOk)
  · exact ⟨fun _ => rfl, by simp [Session.new]⟩
  · intro x a x' ok ch
    exact ch.outboxOk ok

/-- What waits in the outbox of a `GET`. -/
def Get.buffered (y : Get Msg Reply) : Nat :=
  (y.session.map fun x => x.outbox.queue.length).getD 0

/-- The messages of a session that wait for its client are those of a session in the table. -/
lemma listed_of_buffered {s : State Msg Reply} {tr g x} (rn : Run (Step srv) init tr s)
    (h : s.session g = some x) (some' : x.outbox.queue ≠ []) : (x.id, g) ∈ s.sessions := by
  refine ((run_tableOk rn).mem_iff _ _).2 ⟨x, h, rfl, ?_⟩
  obtain ⟨early, closed⟩ := run_outboxOk rn h
  cases stage : x.stage with
  | opening => exact absurd (early (by simp [stage, Stage.Serving])) some'
  | closed => exact absurd (x.outbox.closed_queue (closed.2 (.inr stage))) some'
  | _ => trivial

/-- An outbox holds 33 messages at most, and none unless its session holds a slot of the table; so
all of them hold at most 33 messages for each slot. -/
theorem outbox_bound {s : State Msg Reply} {tr} (rn : Run (Step srv) init tr s) :
    (s.gets.map Get.buffered).sum ≤ srv.maxSessions * (bufferSize + 1) ∧
    ∀ g x, s.session g = some x →
      x.outbox.queue.length ≤ bufferSize + 1 ∧
      (x.outbox.queue ≠ [] → (x.id, g) ∈ s.sessions) := by
  have each : ∀ g x, s.session g = some x → x.outbox.queue.length ≤ bufferSize + 1 := by
    intro g x h
    exact polite_bound (outbox_polite rn h)
  refine ⟨?_, fun g x h => ⟨each g x h, listed_of_buffered rn h⟩⟩
  have few : s.gets.countP (fun y => 0 < y.buffered) ≤ s.sessions.length := by
    rw [← List.length_map (f := Prod.snd)]
    refine countP_le_length fun g y get pos => ?_
    cases h : y.session with
    | none => simp [Get.buffered, h] at pos
    | some x =>
      have some' : x.outbox.queue ≠ [] := by
        rw [← List.length_pos_iff]
        simpa [Get.buffered, h] using pos
      have mem := listed_of_buffered rn ((State.session_of_get get).trans h) some'
      exact List.mem_map_of_mem (f := Prod.snd) mem
  have sum : ∀ l : List (Get Msg Reply), (∀ y ∈ l, y.buffered ≤ bufferSize + 1) →
      (l.map Get.buffered).sum ≤ l.countP (fun y => 0 < y.buffered) * (bufferSize + 1) := by
    intro l le
    induction l with
    | nil => exact Nat.zero_le _
    | cons y l ih =>
      have rest := ih fun z mem => le z (.tail _ mem)
      have first := le y List.mem_cons_self
      rw [List.map_cons, List.sum_cons, List.countP_cons, Nat.add_mul]
      cases e : y.buffered with
      | zero => simpa using rest
      | succ n =>
        rw [e] at first
        simp only [Nat.zero_lt_succ, decide_true, if_true, Nat.one_mul]
        omega
  refine (sum _ fun y mem => ?_).trans (Nat.mul_le_mul_right _ (few.trans (run_tableOk rn).cap))
  obtain ⟨g, get⟩ := List.mem_iff_getElem?.1 mem
  cases h : y.session with
  | none => simp [Get.buffered, h]
  | some x => simpa [Get.buffered, h] using each g x ((State.session_of_get get).trans h)

/-- A service that emits one message: one message waits, under a bound of 33. -/
theorem outbox_bound_pong :
    ∃ s, Run (Step Server.sample) init [.getEnter localHeaders, .getOpen 0 "a", .getAdmit 0,
        .session 0 .spawn, .session 0 (.emit "pong")] s ∧
      (s.gets.map Get.buffered).sum = 1 ∧ (s.gets.map Get.buffered).sum ≤ 1 * (bufferSize + 1) := by
  have rn : ∃ s, Run (Step Server.sample) init [.getEnter localHeaders, .getOpen 0 "a", .getAdmit 0,
      .session 0 .spawn, .session 0 (.emit "pong")] s ∧ (s.gets.map Get.buffered).sum = 1 := by
    refine ⟨_, .head .getEnter <| .head (.getOpen rfl rfl ?_) <| .head (.getAdmit rfl rfl rfl) <|
      .head (.session rfl (.spawn rfl)) <|
      .head (.session rfl (.emit trivial rfl (.inr nofun) rfl)) .refl, rfl⟩
    intro g x h
    rcases g with _ | g <;> cases h
  obtain ⟨s, rn, one⟩ := rn
  exact ⟨s, rn, one, (outbox_bound rn).1⟩

end OxmlMcp.Sse
