import Mathlib.Algebra.GroupWithZero.Nat
import OxmlMcp.Sessions.Cap

/-!
# How far the cap can be passed

The cap fails only by the calls that stand past their checks with the insertion still to make
(`Sessions/Cap.lean`). If no more than `c` calls stand there at once, the cap is passed by at most
`c - 1` sessions, and `c` calls can bring about every one of them.

* `Step.reserved_inv`: a step reserves nothing new, or it is a check that read a length below the
  cap.
* `overshoot`: the bound `max + (c - 1)` over every run, and a run that reaches it.
-/

namespace OxmlMcp.Sessions
open OxmlMcp.Lts

/-- The calls past their checks, with an insertion still to make. -/
def State.promised (s : State) : Nat :=
  s.calls.countP Call.isPromised

/-- The steps of a server on which at most `c` calls stand past their checks at once. -/
def AtOnce (c max : Nat) (s : State) (a : Act) (t : State) : Prop :=
  Step max s a t ∧ t.promised ≤ c

/-- Every session reserved is live or the promise of one call. -/
lemma State.reserved_le_promised (s : State) : s.reserved ≤ s.sessions.card + s.promised := by
  have count : ∀ l : List Call,
      (l.filterMap Call.restoringId).length + l.countP Call.isCreating = l.countP Call.isPromised := by
    intro l
    induction l with
    | nil => rfl
    | cons k l ih =>
      rw [List.countP_cons, List.countP_cons, List.filterMap_cons]
      cases k with
      | creating => simp [Call.restoringId, Call.isCreating, Call.isPromised, ← ih, Nat.add_assoc]
      | restoring id =>
        simp [Call.restoringId, Call.isCreating, Call.isPromised, ← ih, Nat.add_right_comm]
      | _ => exact ih
  have restores := List.toFinset_card_le (s.calls.filterMap Call.restoringId)
  have union := Finset.card_union_le s.sessions s.restoring
  have all := count s.calls
  simp only [State.reserved, State.restoring, State.creating, State.promised] at *
  omega

/-- A step reserves nothing new, or it is a check that read a length below the cap. -/
lemma Step.reserved_inv {max s a t} (st : Step max s a t) :
    t.reserved ≤ s.reserved ∨ t.sessions = s.sessions ∧ s.sessions.card < max := by
  cases st with
  | call en => exact .inl (State.enter_reserved en).le
  | createLen h =>
    unfold afterCreateLen
    split
    · exact .inl (State.become_reserved_le h rfl rfl subset_rfl)
    · exact .inr ⟨rfl, by simpa using ‹¬ atCap max s = true›⟩
  | createInner h _ => exact .inl (State.created_reserved h).1
  | contains h =>
    unfold afterContains
    left
    split
    · have mem := Finset.mem_union_left s.restoring ‹_›
      rw [State.restoring_reserved h rfl rfl, Finset.insert_eq_self.2 mem]
      exact le_rfl
    · exact State.become_reserved_le h rfl rfl subset_rfl
  | restoreLen h =>
    unfold afterRestoreLen
    split
    · exact .inl (State.become_reserved_le h rfl rfl subset_rfl)
    · exact .inr ⟨rfl, by simpa using ‹¬ atCap max s = true›⟩
  | restoreInner h => exact .inl (State.restored_reserved h).le
  | createFailed h => exact .inl (State.become_reserved_le h rfl rfl subset_rfl)
  | restoreFailed h => exact .inl (State.become_reserved_le h rfl rfl subset_rfl)
  | closeInner h => exact .inl (State.become_reserved_le h rfl rfl (Finset.erase_subset _ _))
  | closeFailed h => exact .inl (State.become_reserved_le h rfl rfl (unclosed_subset _ _ _))
  | closeDropped h => exact .inl (State.become_reserved_le h rfl rfl (Finset.erase_subset _ _))
  | drop h _ => exact .inl (State.become_reserved_le h rfl rfl subset_rfl)

lemma AtOnce.reserved_le {c max s a t} (st : AtOnce c max s a t)
    (le : s.reserved ≤ max + (c - 1)) : t.reserved ≤ max + (c - 1) := by
  obtain ⟨st, few⟩ := st
  rcases st.reserved_inv with less | ⟨same, lt⟩
  · exact less.trans le
  · -- the length just read is the length now, and the promises are counted
    have sum := t.reserved_le_promised
    rw [same] at sum
    omega

/-- A creation that passes its check below the cap, no insertion yet made. -/
lemma promise_one (c max : Nat) {s} (lt : (s : State).sessions.card < max) (few : s.promised < c) :
    ∃ tr t, Run (AtOnce c max) s tr t ∧
      t.sessions = s.sessions ∧ t.promised = s.promised + 1 ∧ t.reserved = s.reserved + 1 := by
  have here : (s.enter .create).calls[s.calls.length]? = some .create := by
    rw [State.enter_calls, List.getElem?_concat_length]
  have below : atCap max (s.enter .create) = false := by simpa [atCap] using lt
  have enter : Step max s (.call .create) (s.enter .create) := .call .create
  have check : Step max _ _ _ := .createLen here
  rw [afterCreateLen, below, if_neg Bool.false_ne_true] at check
  have entered : (s.enter .create).promised = s.promised := by
    simp [State.promised, Call.isPromised]
  have checked : ((s.enter .create).become s.calls.length .creating).promised = s.promised + 1 := by
    simp [State.promised, Call.isPromised]
  refine ⟨_, _, .head ⟨enter, ?_⟩ (.single ⟨check, ?_⟩), rfl, checked, ?_⟩
  · omega
  · omega
  · rw [State.creating_reserved here, State.enter_reserved .create]

lemma promise_many (c max : Nat) {s} {n : Nat} (lt : (s : State).sessions.card < max)
    (few : s.promised + n ≤ c) :
    ∃ tr t, Run (AtOnce c max) s tr t ∧
      t.sessions = s.sessions ∧ t.promised = s.promised + n ∧ t.reserved = s.reserved + n := by
  induction n with
  | zero => exact ⟨[], s, .refl, rfl, rfl, rfl⟩
  | succ n ih =>
    obtain ⟨tr1, t, rn1, same1, count1, res1⟩ := ih (by omega)
    obtain ⟨tr2, u, rn2, same2, count2, res2⟩ :=
      promise_one c max (s := t) (by rwa [same1]) (by omega)
    refine ⟨tr1 ++ tr2, u, rn1.trans rn2, same2.trans same1, ?_, ?_⟩
    · omega
    · omega

/-- The insertions promised can be made one after the other, with never more of them promised. -/
lemma keep_promises (c max : Nat) {s} (few : (s : State).promised ≤ c) :
    ∃ tr t, Run (AtOnce c max) s tr t ∧ t.promised = 0 ∧ t.sessions.card = s.reserved := by
  generalize e : s.promised = n
  induction n generalizing s with
  | zero =>
    refine ⟨[], s, .refl, e, (State.reserved_eq_card fun k mem => ?_).symm⟩
    simpa using List.countP_eq_zero.1 e k mem
  | succ n ih =>
    have some' : 0 < s.calls.countP Call.isPromised := by
      rw [← State.promised, e]
      exact Nat.succ_pos n
    obtain ⟨k, mem, pr⟩ := List.countP_pos_iff.1 some'
    obtain ⟨i, h⟩ := List.mem_iff_getElem?.1 mem
    obtain ⟨lt, rfl⟩ := List.getElem?_eq_some_iff.1 h
    obtain ⟨a, t, o, st, keep, calls⟩ := spend max h pr
    have less : t.promised = n := by
      rw [State.promised] at *
      rw [calls, List.countP_set lt, if_pos pr, e]
      rfl
    obtain ⟨tr, u, rn, none', card⟩ := ih (by omega) less
    exact ⟨a :: tr, u, .head ⟨st, by omega⟩ rn, none', card.trans keep⟩

/-- One creation after the other fills the map up to the cap. -/
lemma fill {c max m : Nat} (pos : 0 < c) (le : m ≤ max) :
    ∃ tr t, Run (AtOnce c max) init tr t ∧ t.promised = 0 ∧ t.sessions.card = m := by
  induction m with
  | zero => exact ⟨[], init, .refl, rfl, rfl⟩
  | succ m ih =>
    obtain ⟨tr1, t, rn1, none1, card1⟩ := ih (by omega)
    obtain ⟨tr2, u, rn2, same, count, res⟩ :=
      promise_one c max (s := t) (by omega) (by omega)
    obtain ⟨tr3, v, rn3, none3, card3⟩ := keep_promises c max (s := u) (by omega)
    refine ⟨_, v, (rn1.trans rn2).trans rn3, none3, ?_⟩
    have upper := t.reserved_le_promised
    have lower := t.card_le_reserved
    omega

/-- With at most `c` calls at once past their checks, the insertion still to make, at most
`max + (c - 1)` sessions are ever live, and `c` such calls can bring them all about: a server whose
calls come one at a time holds its cap, and each further call at once costs it one session. -/
theorem overshoot (max c : Nat) :
    (∀ {tr s}, Run (AtOnce c max) init tr s → s.sessions.card ≤ max + (c - 1)) ∧
    (0 < max → 0 < c →
      ∃ tr s, Run (AtOnce c max) init tr s ∧ s.sessions.card = max + (c - 1)) := by
  constructor
  · intro tr s rn
    have le : s.reserved ≤ max + (c - 1) := by
      apply rn.invariant (P := fun s => s.reserved ≤ max + (c - 1))
      · exact Nat.zero_le _
      · intro t a u le st
        exact st.reserved_le le
    exact s.card_le_reserved.trans le
  · intro hmax hc
    obtain ⟨tr1, t, rn1, none', card⟩ := fill (m := max - 1) hc (Nat.sub_le max 1)
    obtain ⟨tr2, u, rn2, -, count, res⟩ :=
      promise_many c max (s := t) (n := c) (by omega) (by omega)
    obtain ⟨tr3, v, rn3, -, full⟩ := keep_promises c max (s := u) (by omega)
    refine ⟨_, v, (rn1.trans rn2).trans rn3, ?_⟩
    have upper := t.reserved_le_promised
    have lower := t.card_le_reserved
    omega

/-- Two creations at once under a cap of one: two sessions, and no more. -/
theorem overshoot_pair :
    ∃ tr s, Run (AtOnce 2 1) init tr s ∧ s.sessions.card = 2 ∧
      ∀ tr' t, Run (AtOnce 2 1) init tr' t → t.sessions.card ≤ s.sessions.card := by
  obtain ⟨tr, s, rn, card⟩ := (overshoot 1 2).2 (by decide) (by decide)
  refine ⟨tr, s, rn, card, fun tr' t rn' => ?_⟩
  rw [card]
  exact (overshoot 1 2).1 rn'

end OxmlMcp.Sessions
