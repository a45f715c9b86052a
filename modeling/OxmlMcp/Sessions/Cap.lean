import Mathlib.Data.Finset.Dedup
import Mathlib.Data.Fintype.EquivFin
import Mathlib.Data.Finset.Option
import OxmlMcp.Sessions.Step

/-!
# The session cap

The length check of `create_session` and `restore_session` and the insertion that follows it are
separate steps, so the length that was read says nothing about the insertions other calls are still
to make. What bounds the map is the number of sessions that are live *or promised*: `State.reserved`
counts the live ids, the ids of restores past their checks and the creations past their check.

* `Step.reserved_le`: a step that meets `RoomLeft` keeps `reserved` within the cap.
* `drain`: from any state the promised insertions can all be made, so `reserved` is reached.
* `cap_exact`: the cap holds in every run whose length checks pass only while there is room left;
  a check that passes without room can be run on past the cap; `Full` is always truthful.
* `cap_overrun`: two creations interleaved exceed a cap of one.
-/

namespace OxmlMcp.Sessions
open OxmlMcp.Lts

/-- The id a call past its checks is about to restore. -/
def Call.restoringId : Call → Option SessionId
  | .restoring id => some id
  | _ => none

/-- Whether a call past its check is about to create a session. -/
def Call.isCreating : Call → Bool
  | .creating => true
  | _ => false

/-- The ids that restores past their checks are about to insert. -/
def State.restoring (s : State) : Finset SessionId :=
  (s.calls.filterMap Call.restoringId).toFinset

/-- The number of creations past their length check. -/
def State.creating (s : State) : Nat :=
  s.calls.countP Call.isCreating

/-- The sessions that are live or promised by a check that has passed. -/
def State.reserved (s : State) : Nat :=
  (s.sessions ∪ s.restoring).card + s.creating

/-- A length check passes only while there is room for one more promise (or, for a restore, while
the id is live or promised already). -/
def RoomLeft (max : Nat) (s : State) : Act → Prop
  | .createLen _ => s.sessions.card < max → s.reserved < max
  | .restoreLen _ id =>
    s.sessions.card < max → s.reserved < max ∨ id ∈ s.sessions ∪ s.restoring
  | _ => True

lemma State.card_le_reserved (s : State) : s.sessions.card ≤ s.reserved :=
  (Finset.card_le_card Finset.subset_union_left).trans (Nat.le_add_right _ _)

lemma State.enter_reserved {s k} (en : Call.Entry k) : (State.enter s k).reserved = s.reserved := by
  have ids : (s.enter k).restoring = s.restoring := by
    cases en <;> simp [State.restoring, Call.restoringId, List.filterMap_cons]
  have mk : (s.enter k).creating = s.creating := by
    cases en <;> simp [State.creating, Call.isCreating]
  simp only [State.reserved, State.enter_sessions, ids, mk]

/-- What the other calls have promised, apart from where call `c` stands: the ids `F` and `n`
creations. -/
lemma State.others {s : State} {c k} (h : s.calls[c]? = some k) :
    ∃ (F : Finset SessionId) (n : Nat),
      s.restoring = k.restoringId.toFinset ∪ F ∧
      s.creating = k.isCreating.toNat + n ∧
      ∀ k' S, (s.settle c k' S).reserved
        = (S ∪ (k'.restoringId.toFinset ∪ F)).card + (k'.isCreating.toNat + n) := by
  obtain ⟨lt, e⟩ := List.getElem?_eq_some_iff.1 h
  let rest := s.calls.eraseIdx c
  have ids : ∀ k', ((k' :: rest).filterMap Call.restoringId).toFinset
      = k'.restoringId.toFinset ∪ (rest.filterMap Call.restoringId).toFinset := by
    intro k'
    cases e : k'.restoringId <;> simp [e]
  have count : ∀ k', (k' :: rest).countP Call.isCreating
      = k'.isCreating.toNat + rest.countP Call.isCreating := by
    intro k'
    cases e : k'.isCreating <;> simp [e, Nat.add_comm]
  have perm : s.calls.Perm (k :: rest) := by
    rw [← e]
    exact (List.getElem_cons_eraseIdx_perm lt).symm
  refine ⟨(rest.filterMap Call.restoringId).toFinset, rest.countP Call.isCreating, ?_, ?_, ?_⟩
  · rw [← ids]
    exact List.toFinset_eq_of_perm _ _ (perm.filterMap _)
  · rw [← count]
    exact perm.countP_eq _
  · intro k' S
    have permSet : (s.calls.set c k').Perm (k' :: rest) := List.set_perm_cons_eraseIdx lt k'
    rw [← ids, ← count, ← List.toFinset_eq_of_perm _ _ (permSet.filterMap _), ← permSet.countP_eq]
    rfl

/-- A call that moves on without a promise, while the map only shrinks, reserves nothing new. -/
lemma State.become_reserved_le {s : State} {c k k' S} (h : s.calls[c]? = some k)
    (ids : k'.restoringId = none) (mk : k'.isCreating = false) (sub : S ⊆ s.sessions) :
    (s.settle c k' S).reserved ≤ s.reserved := by
  obtain ⟨F, n, e1, e2, e3⟩ := State.others h
  have sub' : S ∪ F ⊆ s.sessions ∪ (k.restoringId.toFinset ∪ F) :=
    Finset.union_subset_union sub Finset.subset_union_right
  have card := Finset.card_le_card sub'
  have now := e3 k' S
  simp only [ids, mk, Option.toFinset_none, Finset.empty_union, Bool.toNat_false] at now
  rw [now, State.reserved, e1, e2]
  omega

/-- A creation that passes its check promises one session more. -/
lemma State.creating_reserved {s : State} {c} (h : s.calls[c]? = some .create) :
    (s.become c .creating).reserved = s.reserved + 1 := by
  obtain ⟨F, n, e1, e2, e3⟩ := State.others h
  have now : (s.become c .creating).reserved = (s.sessions ∪ F).card + (1 + n) := by
    simpa [State.become, Call.restoringId, Call.isCreating] using e3 .creating s.sessions
  have was : s.reserved = (s.sessions ∪ F).card + n := by
    simp [State.reserved, Call.restoringId, Call.isCreating, e1, e2]
  omega

/-- A restore that passes its checks promises its id. -/
lemma State.restoring_reserved {s : State} {c k id} (h : s.calls[c]? = some k)
    (ids : k.restoringId = none) (mk : k.isCreating = false) :
    (s.become c (.restoring id)).reserved
      = (insert id (s.sessions ∪ s.restoring)).card + s.creating := by
  obtain ⟨F, n, e1, e2, e3⟩ := State.others h
  have now : (s.become c (.restoring id)).reserved = (insert id (s.sessions ∪ F)).card + n := by
    simpa [State.become, Call.restoringId, Call.isCreating] using e3 (.restoring id) s.sessions
  simp only [ids, mk, Option.toFinset_none, Finset.empty_union, Bool.toNat_false, zero_add] at e1 e2
  rw [now, e1, e2]

/-- The insertion of a creation spends its promise: at most what was reserved still is, and exactly
that if nobody is about to restore the fresh id. -/
lemma State.created_reserved {s : State} {c id o} (h : s.calls[c]? = some .creating) :
    (s.settle c (.answered o) (insert id s.sessions)).reserved ≤ s.reserved ∧
    (id ∉ s.sessions ∪ s.restoring →
      (s.settle c (.answered o) (insert id s.sessions)).reserved
        = s.reserved) := by
  obtain ⟨F, n, e1, e2, e3⟩ := State.others h
  have now : (s.settle c (.answered o) (insert id s.sessions)).reserved
      = (insert id (s.sessions ∪ F)).card + n := by
    simpa [Call.restoringId, Call.isCreating] using e3 (.answered o) (insert id s.sessions)
  have ids : s.restoring = F := by simpa [Call.restoringId] using e1
  have was : s.reserved = (s.sessions ∪ F).card + (1 + n) := by
    simp [State.reserved, Call.isCreating, ids, e2]
  rw [now, was, ids]
  constructor
  · have := Finset.card_insert_le id (s.sessions ∪ F)
    omega
  · intro fresh
    rw [Finset.card_insert_of_notMem fresh]
    omega

lemma State.restored_reserved {s : State} {c id o} (h : s.calls[c]? = some (.restoring id)) :
    (s.settle c (.answered o) (insert id s.sessions)).reserved
      = s.reserved := by
  obtain ⟨F, n, e1, e2, e3⟩ := State.others h
  have now : (s.settle c (.answered o) (insert id s.sessions)).reserved
      = (insert id (s.sessions ∪ F)).card + n := by
    simpa [Call.restoringId, Call.isCreating] using e3 (.answered o) (insert id s.sessions)
  rw [now, State.reserved, e1, e2]
  simp [Call.restoringId, Call.isCreating]

/-- Every step that meets `RoomLeft` keeps the reserved sessions within the cap. -/
lemma Step.reserved_le {max s a t} (st : Step max s a t) (room : RoomLeft max s a)
    (le : s.reserved ≤ max) : t.reserved ≤ max := by
  cases st with
  | call en =>
    rw [State.enter_reserved en]
    exact le
  | @createLen c h =>
    unfold afterCreateLen
    split
    · exact (State.become_reserved_le h rfl rfl subset_rfl).trans le
    · have lt : s.reserved < max := room (by simpa using ‹¬ atCap max s = true›)
      rw [State.creating_reserved h]
      exact lt
  | createInner h _ => exact (State.created_reserved h).1.trans le
  | @contains c id h =>
    unfold afterContains
    split
    · have mem : id ∈ s.sessions ∪ s.restoring := Finset.mem_union_left _ ‹_›
      rw [State.restoring_reserved h rfl rfl, Finset.insert_eq_self.2 mem]
      exact le
    · exact (State.become_reserved_le h rfl rfl subset_rfl).trans le
  | @restoreLen c id h =>
    unfold afterRestoreLen
    split
    · exact (State.become_reserved_le h rfl rfl subset_rfl).trans le
    · rw [State.restoring_reserved h rfl rfl]
      rcases room (by simpa using ‹¬ atCap max s = true›) with lt | mem
      · have := Finset.card_insert_le id (s.sessions ∪ s.restoring)
        rw [State.reserved] at lt
        omega
      · rw [Finset.insert_eq_self.2 mem]
        exact le
  | restoreInner h =>
    rw [State.restored_reserved h]
    exact le
  | createFailed h => exact (State.become_reserved_le h rfl rfl subset_rfl).trans le
  | restoreFailed h => exact (State.become_reserved_le h rfl rfl subset_rfl).trans le
  | closeInner h => exact (State.become_reserved_le h rfl rfl (Finset.erase_subset _ _)).trans le
  | closeFailed h => exact (State.become_reserved_le h rfl rfl (unclosed_subset _ _ _)).trans le
  | closeDropped h => exact (State.become_reserved_le h rfl rfl (Finset.erase_subset _ _)).trans le
  | drop h _ => exact (State.become_reserved_le h rfl rfl subset_rfl).trans le

/-- A length check that passes without room promises more than the cap. -/
lemma Step.reserved_gt {max s a t} (st : Step max s a t) (full : ¬ RoomLeft max s a) :
    max < t.reserved := by
  cases st with
  | @createLen c h =>
    obtain ⟨lt, ge⟩ := Classical.not_imp.1 full
    have open' : atCap max s = false := by simpa [atCap] using lt
    simp only [afterCreateLen, open', Bool.false_eq_true, if_false, State.creating_reserved h]
    omega
  | @restoreLen c id h =>
    obtain ⟨lt, ge⟩ := Classical.not_imp.1 full
    obtain ⟨ge, mem⟩ := not_or.1 ge
    have open' : atCap max s = false := by simpa [atCap] using lt
    simp only [afterRestoreLen, open', Bool.false_eq_true, if_false,
      State.restoring_reserved h rfl rfl, Finset.card_insert_of_notMem mem]
    rw [State.reserved] at ge
    omega
  | _ => exact absurd trivial full

/-- A call past its checks, with an insertion still to make. -/
def Call.isPromised : Call → Bool
  | .creating => true
  | .restoring _ => true
  | _ => false

lemma State.reserved_eq_card {s : State} (none' : ∀ k ∈ s.calls, k.isPromised = false) :
    s.reserved = s.sessions.card := by
  have ids : s.calls.filterMap Call.restoringId = [] := by
    rw [List.filterMap_eq_nil_iff]
    intro k mem
    have := none' k mem
    cases k <;> simp_all [Call.isPromised, Call.restoringId]
  have mk : s.creating = 0 := by
    rw [State.creating, List.countP_eq_zero]
    intro k mem
    have := none' k mem
    cases k <;> simp_all [Call.isPromised, Call.isCreating]
  simp [State.reserved, State.restoring, ids, mk]

/-- A promised insertion can be made, and spends exactly its own promise. -/
lemma spend (max : Nat) {s c k} (h : (s : State).calls[c]? = some k) (pr : k.isPromised = true) :
    ∃ a t o, Step max s a t ∧ t.reserved = s.reserved ∧ t.calls = s.calls.set c (.answered o) := by
  cases k with
  | creating =>
    obtain ⟨id, fresh⟩ := Infinite.exists_notMem_finset (s.sessions ∪ s.restoring)
    have fresh' : id ∉ s.sessions := fun mem => fresh (Finset.mem_union_left _ mem)
    exact ⟨_, _, _, .createInner h fresh', (State.created_reserved h).2 fresh, rfl⟩
  | restoring id => exact ⟨_, _, _, .restoreInner h, State.restored_reserved h, rfl⟩
  | _ => cases pr

/-- From any state the promised insertions can all be made: the map then holds every reserved
session. -/
lemma drain (max : Nat) (s : State) :
    ∃ tr t, Run (Step max) s tr t ∧ t.sessions.card = s.reserved := by
  -- by induction on the number of insertions still to make
  generalize e : s.calls.countP Call.isPromised = n
  induction n generalizing s with
  | zero =>
    refine ⟨[], s, .refl, (State.reserved_eq_card fun k mem => ?_).symm⟩
    simpa using List.countP_eq_zero.1 e k mem
  | succ n ih =>
    obtain ⟨k, mem, pr⟩ := List.countP_pos_iff.1 (by omega : 0 < s.calls.countP Call.isPromised)
    obtain ⟨c, h⟩ := List.mem_iff_getElem?.1 mem
    obtain ⟨lt, rfl⟩ := List.getElem?_eq_some_iff.1 h
    obtain ⟨a, t, o, st, keep, calls⟩ := spend max h pr
    have less : t.calls.countP Call.isPromised = n := by
      rw [calls, List.countP_set lt, if_pos pr, e]
      rfl
    obtain ⟨tr, u, rn, card⟩ := ih t less
    exact ⟨a :: tr, u, .head st rn, card.trans keep⟩

/-- A call that moves on to something else than `Full` leaves the answers `Full` as they were. -/
lemma State.settle_full {s : State} {c c' n : Nat} {k' ids} (ne : k' ≠ .answered (.full n))
    (full : (s.settle c' k' ids).calls[c]? = some (.answered (.full n))) :
    s.calls[c]? = some (.answered (.full n)) := by
  rw [State.settle_calls, List.getElem?_set] at full
  split at full
  · split at full
    · exact absurd (Option.some.inj full) ne
    · cases full
  · exact full

/-- A length check that moves call `c'` on to `k'`, which is `Full` at the cap and a promise below
it, is the only step of the two checks that answers `Full`. -/
lemma State.check_full {s : State} {max c c' n : Nat} {k' promise}
    (e : k' = if atCap max s then .answered (.full max) else promise)
    (ne : promise ≠ .answered (.full n))
    (full : (s.become c' k').calls[c]? = some (.answered (.full n))) :
    s.calls[c]? = some (.answered (.full n)) ∨ c' = c ∧ n = max ∧ max ≤ s.sessions.card := by
  rw [State.become_calls, List.getElem?_set] at full
  split at full
  · right
    split at full
    · rw [e] at full
      split at full
      · cases full
        exact ⟨‹_›, rfl, atCap_eq_true.1 ‹_›⟩
      · exact absurd (Option.some.inj full) ne
    · cases full
  · exact .inl full

lemma Step.full_inv {max s a t} {c n : Nat} (st : Step max s a t)
    (full : t.calls[c]? = some (.answered (.full n))) :
    s.calls[c]? = some (.answered (.full n)) ∨
    n = max ∧ max ≤ s.sessions.card ∧
      (s.calls[c]? = some .create ∨ ∃ id, s.calls[c]? = some (.restoreAbsent id)) := by
  cases st with
  | @call k en =>
    left
    rw [State.enter_calls, List.getElem?_append] at full
    split at full
    · exact full
    · obtain ⟨_, mem⟩ := List.getElem?_eq_some_iff.1 full
      cases en <;> simp at mem
  | @createLen c' h =>
    rcases State.check_full rfl (by simp) full with before | ⟨rfl, e, ge⟩
    · exact .inl before
    · exact .inr ⟨e, ge, .inl h⟩
  | @restoreLen c' id h =>
    rcases State.check_full rfl (by simp) full with before | ⟨rfl, e, ge⟩
    · exact .inl before
    · exact .inr ⟨e, ge, .inr ⟨id, h⟩⟩
  | contains h =>
    left
    refine State.settle_full ?_ full
    unfold afterContains
    split <;> simp
  | restoreInner h =>
    left
    refine State.settle_full ?_ full
    unfold restoreOutcome
    split <;> simp
  | createInner _ _ => exact .inl (State.settle_full (by simp) full)
  | createFailed _ => exact .inl (State.settle_full (by simp) full)
  | restoreFailed _ => exact .inl (State.settle_full (by simp) full)
  | closeInner _ => exact .inl (State.settle_full (by simp) full)
  | closeFailed _ => exact .inl (State.settle_full (by simp) full)
  | closeDropped _ => exact .inl (State.settle_full (by simp) full)
  | drop _ _ => exact .inl (State.settle_full (by simp) full)

/-- An answer `Full` names the cap, which was reached at the length check the call made. -/
lemma full_truthful {max s tr} {c n : Nat} (rn : Run (Step max) init tr s)
    (full : s.calls[c]? = some (.answered (.full n))) :
    n = max ∧ ∃ tr1 tr2 t, tr = tr1 ++ tr2 ∧
      Run (Step max) init tr1 t ∧ Run (Step max) t tr2 s ∧
      (t.calls[c]? = some .create ∨ ∃ id, t.calls[c]? = some (.restoreAbsent id)) ∧
      max ≤ t.sessions.card := by
  induction rn with
  | refl => simp [init] at full
  | @tail tr s a u rn st ih =>
    rcases st.full_inv full with before | ⟨e, ge, entry⟩
    · obtain ⟨e, tr1, tr2, t, rfl, rn1, rn2, entry, ge⟩ := ih before
      exact ⟨e, tr1, tr2 ++ [a], t, by simp, rn1, .tail rn2 st, entry, ge⟩
    · exact ⟨e, tr, [a], s, rfl, rn, .single st, entry, ge⟩

/-- The cap and its exact condition. Where every length check that passes leaves room for what is
promised already, no interleaving exceeds the cap; a check that passes without room leaves a run to
a state past it; and whatever the interleaving, `Full` is answered only by a call during which the
cap was reached. -/
theorem cap_exact (max : Nat) :
    (∀ {tr s}, Run (Guarded (Step max) (RoomLeft max)) init tr s → s.sessions.card ≤ max) ∧
    (∀ {tr s a t}, Run (Step max) init tr s → Step max s a t → ¬ RoomLeft max s a →
      ∃ tr' u, Run (Step max) t tr' u ∧ max < u.sessions.card) ∧
    (∀ {tr s} {c n : Nat}, Run (Step max) init tr s → s.calls[c]? = some (.answered (.full n)) →
      n = max ∧ ∃ tr1 tr2 t, tr = tr1 ++ tr2 ∧
        Run (Step max) init tr1 t ∧ Run (Step max) t tr2 s ∧
        (t.calls[c]? = some .create ∨ ∃ id, t.calls[c]? = some (.restoreAbsent id)) ∧
        max ≤ t.sessions.card) := by
  refine ⟨?_, ?_, full_truthful⟩
  · intro tr s rn
    have le : s.reserved ≤ max := by
      apply rn.invariant (P := fun s => s.reserved ≤ max)
      · exact Nat.zero_le max
      · rintro t a u le ⟨st, room⟩
        exact st.reserved_le room le
    exact s.card_le_reserved.trans le
  · intro tr s a t _ st full
    obtain ⟨tr', u, rn, card⟩ := drain max t
    refine ⟨tr', u, rn, ?_⟩
    rw [card]
    exact st.reserved_gt full

/-- Two creations interleaved meet the condition of `cap_exact` under a cap of two, and a third is
then told so. -/
theorem cap_exact_pair :
    ∃ s, Run (Guarded (Step 2) (RoomLeft 2)) init
      [.call .create, .call .create, .createLen 0, .createLen 1,
        .createInner 1 "b", .createInner 0 "a", .call .create, .createLen 2] s ∧
      s.sessions.card ≤ 2 ∧ s.calls[2]? = some (.answered (.full 2)) := by
  have rn : Run (Guarded (Step 2) (RoomLeft 2)) init
      [.call .create, .call .create, .createLen 0, .createLen 1,
        .createInner 1 "b", .createInner 0 "a", .call .create, .createLen 2]
      ⟨{"a", "b"},
        [.answered (.created "a"), .answered (.created "b"), .answered (.full 2)]⟩ :=
    .head ⟨.call .create, trivial⟩ <| .head ⟨.call .create, trivial⟩ <|
    .head ⟨.createLen rfl, fun _ => by decide⟩ <|
    .head ⟨.createLen rfl, fun _ => by decide⟩ <|
    .head ⟨.createInner rfl (by decide), trivial⟩ <|
    .head ⟨.createInner rfl (by decide), trivial⟩ <|
    .head ⟨.call .create, trivial⟩ <|
    .head ⟨.createLen rfl, fun lt => absurd lt (by decide)⟩ .refl
  exact ⟨_, rn, (cap_exact 2).1 rn, rfl⟩

/-- Two creations under a cap of one: both read the length before either inserts. -/
theorem cap_overrun :
    ∃ s, Run (Step 1) init
      [.call .create, .call .create, .createLen 0, .createLen 1,
        .createInner 0 "a", .createInner 1 "b"] s ∧
      1 < s.sessions.card :=
  ⟨⟨{"b", "a"}, [.answered (.created "a"), .answered (.created "b")]⟩,
    .head (.call .create) <| .head (.call .create) <|
    .head (.createLen rfl) <| .head (.createLen rfl) <|
    .head (.createInner rfl (by decide)) <| .head (.createInner rfl (by decide)) .refl,
    by decide⟩

end OxmlMcp.Sessions
