import Mathlib.Data.Finset.Card
import OxmlMcp.Lts.Run

/-!
# The capped session manager

Model of `src/transport/sessions.rs`: `CappedSessions` wraps the SDK's in-memory manager and refuses
to create a session past a ceiling `max`. The wrapped manager keeps its sessions in a map behind an
`RwLock`; only the key set matters here, so `State.sessions` is the set of live ids.

Each operation is a sequence of atomic steps. `create_session` reads the length under the read lock,
releases it, and only then calls the inner manager, which takes the write lock; `restore_session`
reads the membership, then (for an absent id) the length, then calls the inner manager;
`close_session` is the inner call alone. A `Call` is what one such operation has left to do, and
`Step` interleaves the calls of any number of clients. An operation is an `async fn`, so its caller
may drop it between two steps (`Step.drop`).

The inner manager is a package of its own. What is taken of it is that creating and restoring insert
the id and answer in one step, and that any of its operations may fail instead, which the wrapper
passes on as `CappedError::Inner`. A failing insertion leaves the map as it is. Closing removes the id
and then waits for the session's worker, so a close that fails, or is dropped, may have removed it.

The operations the wrapper passes through (`initialize_session`, `has_session`, `create_stream`,
`accept_message`, `resume` and so on) change no key of the map and are left out.
-/

namespace OxmlMcp.Sessions
open OxmlMcp.Lts

/-- The id of a session: a string, fresh for every created session. -/
abbrev SessionId := String

/-- What an operation answers: a value, or a `CappedError`. -/
inductive Outcome where
  | created (id : SessionId)
  | restored
  | alreadyPresent
  | closed
  | full (max : Nat)
  /-- `CappedError::Inner`: the wrapped manager failed. -/
  | inner (e : String)
deriving DecidableEq, Repr

/-- Where one call of an operation stands. -/
inductive Call where
  /-- `create_session`, before its length check. -/
  | create
  /-- `create_session`, past its length check and before `inner.create_session`. -/
  | creating
  /-- `restore_session`, before its membership check. -/
  | restore (id : SessionId)
  /-- `restore_session` of an id read as absent, before its length check. -/
  | restoreAbsent (id : SessionId)
  /-- `restore_session`, past its checks and before `inner.restore_session`. -/
  | restoring (id : SessionId)
  /-- `close_session`, before `inner.close_session`. -/
  | close (id : SessionId)
  /-- Answered. -/
  | answered (o : Outcome)
  /-- Dropped by its caller before it answered. -/
  | dropped
deriving DecidableEq, Repr

/-- The keys of the inner manager's map, and the calls made so far, by number. -/
structure State where
  sessions : Finset SessionId
  calls : List Call
deriving DecidableEq

/-- `CappedSessions::new`: no session and no call. -/
def init : State := ⟨∅, []⟩

/-- A new call. -/
def State.enter (s : State) (k : Call) : State :=
  { s with calls := s.calls ++ [k] }

/-- Call `c` moves on to `k`, leaving the map with the keys `ids`. -/
def State.settle (s : State) (c : Nat) (k : Call) (ids : Finset SessionId) : State :=
  ⟨ids, s.calls.set c k⟩

/-- Call `c` moves on to `k`. -/
def State.become (s : State) (c : Nat) (k : Call) : State :=
  s.settle c k s.sessions

/-- `sessions.read().await.len() >= self.max`. -/
def atCap (max : Nat) (s : State) : Bool :=
  s.sessions.card ≥ max

/-- What follows the length check of `create_session`. -/
def afterCreateLen (max : Nat) (s : State) : Call :=
  if atCap max s then .answered (.full max) else .creating

/-- What follows the membership check of `restore_session`. -/
def afterContains (s : State) (id : SessionId) : Call :=
  if id ∈ s.sessions then .restoring id else .restoreAbsent id

/-- What follows the length check of `restore_session`. -/
def afterRestoreLen (max : Nat) (s : State) (id : SessionId) : Call :=
  if atCap max s then .answered (.full max) else .restoring id

/-- The answer of `inner.restore_session`. -/
def restoreOutcome (s : State) (id : SessionId) : Outcome :=
  if id ∈ s.sessions then .alreadyPresent else .restored

/-- The ids after a close that did not succeed: `gone` says that it had removed its own. -/
def unclosed (ids : Finset SessionId) (id : SessionId) (gone : Bool) : Finset SessionId :=
  if gone then ids.erase id else ids

/-- The atomic actions, by the number of the call that takes them. -/
inductive Act where
  | call (k : Call)
  | createLen (c : Nat)
  | createInner (c : Nat) (id : SessionId)
  | createFailed (c : Nat) (e : String)
  | contains (c : Nat) (id : SessionId)
  | restoreLen (c : Nat) (id : SessionId)
  | restoreInner (c : Nat) (id : SessionId)
  | restoreFailed (c : Nat) (id : SessionId) (e : String)
  | closeInner (c : Nat) (id : SessionId)
  | closeFailed (c : Nat) (id : SessionId) (gone : Bool) (e : String)
  | closeDropped (c : Nat) (id : SessionId)
  | drop (c : Nat)
deriving DecidableEq, Repr

/-- A call as a client makes it. -/
inductive Call.Entry : Call → Prop where
  | create : Entry .create
  | restore {id} : Entry (.restore id)
  | close {id} : Entry (.close id)

/-- A call that has not answered and has not been dropped. -/
def Call.Live : Call → Prop
  | .answered _ => False
  | .dropped => False
  | _ => True

/-- One atomic step of one of the clients. -/
inductive Step (max : Nat) : State → Act → State → Prop where
  | call {s k} :
    Call.Entry k →
    Step max s (.call k) (s.enter k)
  | createLen {s c} :
    s.calls[c]? = some .create →
    Step max s (.createLen c) (s.become c (afterCreateLen max s))
  | createInner {s c id} :
    s.calls[c]? = some .creating →
    -- the inner manager draws an id no live session has
    id ∉ s.sessions →
    Step max s (.createInner c id)
      (s.settle c (.answered (.created id)) (insert id s.sessions))
  | createFailed {s c e} :
    s.calls[c]? = some .creating →
    Step max s (.createFailed c e) (s.become c (.answered (.inner e)))
  | contains {s c id} :
    s.calls[c]? = some (.restore id) →
    Step max s (.contains c id) (s.become c (afterContains s id))
  | restoreLen {s c id} :
    s.calls[c]? = some (.restoreAbsent id) →
    Step max s (.restoreLen c id) (s.become c (afterRestoreLen max s id))
  | restoreInner {s c id} :
    s.calls[c]? = some (.restoring id) →
    -- inserting an id that is present leaves the map as it is
    Step max s (.restoreInner c id)
      (s.settle c (.answered (restoreOutcome s id)) (insert id s.sessions))
  | restoreFailed {s c id e} :
    s.calls[c]? = some (.restoring id) →
    Step max s (.restoreFailed c id e) (s.become c (.answered (.inner e)))
  | closeInner {s c id} :
    s.calls[c]? = some (.close id) →
    Step max s (.closeInner c id)
      (s.settle c (.answered .closed) (s.sessions.erase id))
  | closeFailed {s c id gone e} :
    s.calls[c]? = some (.close id) →
    Step max s (.closeFailed c id gone e)
      (s.settle c (.answered (.inner e)) (unclosed s.sessions id gone))
  | closeDropped {s c id} :
    s.calls[c]? = some (.close id) →
    -- dropped while the inner call waits for the worker, its id removed
    Step max s (.closeDropped c id) (s.settle c .dropped (s.sessions.erase id))
  | drop {s c k} :
    s.calls[c]? = some k →
    k.Live →
    Step max s (.drop c) (s.become c .dropped)

@[simp] lemma State.enter_sessions (s : State) (k : Call) : (s.enter k).sessions = s.sessions := rfl
@[simp] lemma State.become_sessions (s : State) (c : Nat) (k : Call) :
    (s.become c k).sessions = s.sessions := rfl
@[simp] lemma State.enter_calls (s : State) (k : Call) : (s.enter k).calls = s.calls ++ [k] := rfl
@[simp] lemma State.become_calls (s : State) (c : Nat) (k : Call) :
    (s.become c k).calls = s.calls.set c k := rfl
@[simp] lemma State.settle_sessions (s : State) (c : Nat) (k : Call) (ids : Finset SessionId) :
    (s.settle c k ids).sessions = ids := rfl
@[simp] lemma State.settle_calls (s : State) (c : Nat) (k : Call) (ids : Finset SessionId) :
    (s.settle c k ids).calls = s.calls.set c k := rfl

lemma unclosed_subset (ids : Finset SessionId) (id : SessionId) (gone : Bool) :
    unclosed ids id gone ⊆ ids := by
  cases gone with
  | true => exact Finset.erase_subset id ids
  | false => exact subset_rfl

@[simp] lemma atCap_eq_true {max : Nat} {s : State} : atCap max s = true ↔ max ≤ s.sessions.card := by
  simp [atCap]

end OxmlMcp.Sessions
