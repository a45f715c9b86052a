import Mathlib.Algebra.GroupWithZero.Nat
import Mathlib.Tactic.Common
import Mathlib.Data.List.Range

/-!
# Numbered parties

The parties of a concurrent system that may be joined by new ones at any time: a list, in which a
party's number is its position. A party moves with `List.set` and joins at the end.

* `Agree`: two systems in which some of the parties stand at the same place.
-/

namespace OxmlMcp.Lts

variable {α : Type*}

/-- Where the parties stand after one of them has moved. -/
lemma getElem?_set_of_some {l : List α} {i : Nat} {a : α} (h : l[i]? = some a) (b : α) (j : Nat) :
    (l.set i b)[j]? = if j = i then some b else l[j]? := by
  obtain ⟨lt, -⟩ := List.getElem?_eq_some_iff.1 h
  rw [List.getElem?_set, if_pos lt]
  simp only [eq_comm]

/-- Where the parties stand after a new one has joined. -/
lemma getElem?_concat (l : List α) (b : α) (j : Nat) :
    (l ++ [b])[j]? = if j = l.length then some b else l[j]? := by
  split
  · subst j
    exact List.getElem?_concat_length
  · rcases Nat.lt_or_gt_of_ne ‹_› with lt | gt
    · exact List.getElem?_append_left lt
    · rw [List.getElem?_eq_none (by simp; omega), List.getElem?_eq_none (by omega)]

/-- The parties that meet a condition, counted by their numbers. -/
lemma countP_range (l : List α) (P : α → Bool) :
    (List.range l.length).countP (fun i => l[i]?.any P) = l.countP P := by
  induction l using List.reverseRecOn with
  | nil => rfl
  | append_singleton l b ih =>
    have old : (List.range l.length).countP (fun i => (l ++ [b])[i]?.any P) =
        (List.range l.length).countP (fun i => l[i]?.any P) := by
      refine List.countP_congr fun i mem => ?_
      rw [List.getElem?_append_left (List.mem_range.1 mem)]
    rw [List.length_append, List.length_singleton, List.range_succ, List.countP_append,
      List.countP_append, old, ih]
    simp

/-- Different parties that meet a condition are no more than all that do. -/
lemma length_le_countP {l : List α} {P : α → Bool} {is : List Nat} (nd : is.Nodup)
    (all : ∀ i ∈ is, ∃ a, l[i]? = some a ∧ P a) : is.length ≤ l.countP P := by
  rw [← countP_range, List.countP_eq_length_filter]
  refine nd.length_le_of_subset fun i mem => ?_
  obtain ⟨a, h, pa⟩ := all i mem
  obtain ⟨lt, -⟩ := List.getElem?_eq_some_iff.1 h
  exact List.mem_filter.2 ⟨List.mem_range.2 lt, by simp [h, pa]⟩

/-- Parties that meet a condition are no more than a list that names all of them. -/
lemma countP_le_length {l : List α} {P : α → Bool} {is : List Nat}
    (all : ∀ (i : Nat) a, l[i]? = some a → P a → i ∈ is) : l.countP P ≤ is.length := by
  rw [← countP_range, List.countP_eq_length_filter]
  have nd : ((List.range l.length).filter fun i => l[i]?.any P).Nodup :=
    List.nodup_range.filter _
  refine nd.length_le_of_subset fun i mem => ?_
  obtain ⟨lt, pa⟩ := List.mem_filter.1 mem
  rw [List.getElem?_eq_getElem (List.mem_range.1 lt), Option.any_some] at pa
  exact all i _ (List.getElem?_eq_getElem (List.mem_range.1 lt)) pa

/-- One party's move changes the sum of all by its own change. -/
lemma sum_set {l : List α} {f : α → Nat} {i : Nat} {a : α} (h : l[i]? = some a) (b : α) :
    ((l.set i b).map f).sum + f a = (l.map f).sum + f b := by
  induction l generalizing i with
  | nil => cases h
  | cons c l ih =>
    cases i with
    | zero =>
      cases h
      simp [Nat.add_comm, Nat.add_left_comm]
    | succ i =>
      have := ih (i := i) h
      simp only [List.set_cons_succ, List.map_cons, List.sum_cons]
      omega

/-- As many parties, and those in `K` stand at the same place. -/
structure Agree (K : Nat → Prop) (l l' : List α) : Prop where
  length : l'.length = l.length
  same : ∀ i, K i → l'[i]? = l[i]?

/-- A new party joins in both. -/
lemma Agree.concat {K : Nat → Prop} {l l' : List α} (ag : Agree K l l') (b : α) :
    Agree K (l ++ [b]) (l' ++ [b]) where
  length := by simp [ag.length]
  same i k := by rw [getElem?_concat, getElem?_concat, ag.length, ag.same i k]

/-- A party moves in both. -/
lemma Agree.set {K : Nat → Prop} {l l' : List α} (ag : Agree K l l') (i : Nat) (b : α) :
    Agree K (l.set i b) (l'.set i b) where
  length := by simp [ag.length]
  same j k := by rw [List.getElem?_set, List.getElem?_set, ag.length, ag.same j k]

/-- The move of a party that is not in `K`. -/
lemma Agree.set_other {K : Nat → Prop} {l l' : List α} (ag : Agree K l l') {i : Nat} (out : ¬ K i)
    (b : α) : Agree K (l.set i b) l' where
  length := by simp [ag.length]
  same j k := by
    have ne : i ≠ j := by
      rintro rfl
      exact out k
    rw [List.getElem?_set_ne ne, ag.same j k]

end OxmlMcp.Lts
