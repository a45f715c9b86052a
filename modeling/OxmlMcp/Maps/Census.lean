import OxmlMcp.Maps.Counts
import Mathlib.Algebra.BigOperators.Group.List.Basic
import Mathlib.Algebra.GroupWithZero.Nat
import Mathlib.Data.Set.Card

/-!
# A census of a population

The members of a population are visited, and those that have a key are counted by it. When every
member that has one is visited, and none twice, the counts are those of the population.

* `mem_census_iff`: the entries are the keys that occur, each with the number of its members.
* `sum_census`: the counts add up to the number of members that have a key.
-/

namespace OxmlMcp.Maps

variable {κ α : Type*} [LinearOrder κ] {x k : κ} {n : Nat} {es : List (κ × Nat)}

/-- An entry of a map is a key with its count. -/
lemma mem_entries_iff (sorted : (es.map Prod.fst).Pairwise (· < ·)) :
    (x, n) ∈ es ↔ x ∈ es.map Prod.fst ∧ countOf x es = n := by
  induction es with
  | nil => exact iff_of_false List.not_mem_nil fun h => List.not_mem_nil h.1
  | cons e es ih =>
    obtain ⟨k, m⟩ := e
    obtain ⟨least, tail⟩ := List.pairwise_cons.1 sorted
    rw [countOf_cons, List.map_cons, List.mem_cons, List.mem_cons, ih tail]
    by_cases same : x = k
    · have none' : x ∉ es.map Prod.fst := fun mem => (least x mem).ne same.symm
      simp [same, same ▸ none', eq_comm]
    · simp [same]

lemma sum_bumpEntries (k : κ) (es : List (κ × Nat)) :
    ((bumpEntries k es).map Prod.snd).sum = (es.map Prod.snd).sum + 1 := by
  induction es with
  | nil => rfl
  | cons e es ih =>
    rw [bumpEntries]
    split
    · simp [Nat.add_comm]
    · split
      · simp only [List.map_cons, List.sum_cons]
        omega
      · simp only [List.map_cons, List.sum_cons, ih]
        omega

lemma sum_foldl_bump (keys : List κ) (m : Counts κ) :
    ((keys.foldl Counts.bump m).entries.map Prod.snd).sum =
      (m.entries.map Prod.snd).sum + keys.length := by
  induction keys generalizing m with
  | nil => rfl
  | cons k keys ih =>
    rw [List.foldl_cons, ih, List.length_cons]
    show ((bumpEntries k m.entries).map Prod.snd).sum + _ = _
    rw [sum_bumpEntries]
    omega

/-- The counts of a list of keys add up to its length. -/
lemma sum_ofList (keys : List κ) :
    ((Counts.ofList keys).entries.map Prod.snd).sum = keys.length := by
  rw [Counts.ofList, sum_foldl_bump]
  exact Nat.zero_add _

section Population

variable {ids : List α} (once : ids.Nodup)
include once

/-- The members of a kind are counted when they are visited. -/
lemma ncard_eq_countP {p : α → Bool} (visited : ∀ a, p a → a ∈ ids) :
    { a | p a }.ncard = ids.countP p := by
  classical
  have same : { a | p a } = ↑(ids.filter p).toFinset := by
    ext a
    simpa using visited a
  rw [same, Set.ncard_coe_finset, List.toFinset_card_of_nodup (once.filter p),
    List.countP_eq_length_filter]

variable {f : α → Option κ} (visited : ∀ a, (f a).isSome → a ∈ ids)
include visited

/-- The entries of a census are the keys that occur, each with the number of its members. -/
theorem mem_census_iff :
    (x, n) ∈ (Counts.ofList (ids.filterMap f)).entries ↔
      (∃ a, f a = some x) ∧ n = { a | f a = some x }.ncard := by
  have count : { a | f a = some x }.ncard = (ids.filterMap f).count x := by
    have counted := ncard_eq_countP once (p := fun a => f a == some x) fun a has => by
      apply visited
      rw [beq_iff_eq.1 has]
      rfl
    rw [List.count_filterMap, ← counted]
    simp
  rw [mem_entries_iff (Counts.sorted _), mem_keys_ofList, countOf_ofList, count, List.mem_filterMap,
    eq_comm]
  refine and_congr_left' ⟨fun ⟨a, _, has⟩ => ⟨a, has⟩, fun ⟨a, has⟩ => ⟨a, visited a ?_, has⟩⟩
  rw [has]
  rfl

/-- The counts of a census add up to the number of members that have a key. -/
theorem sum_census :
    ((Counts.ofList (ids.filterMap f)).entries.map Prod.snd).sum = { a | (f a).isSome }.ncard := by
  rw [sum_ofList, List.length_filterMap_eq_countP, ncard_eq_countP once visited]

end Population

end OxmlMcp.Maps
