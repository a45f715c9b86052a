import Mathlib.Order.Lattice
import Mathlib.Data.List.Perm.Basic

/-!
# Counting in an ordered map

A map from keys to counts, with its entries in the order of the keys, as a `BTreeMap` lists them. Keys
are counted by `entry(key).or_default() += 1`.

* `countOf_ofList`: the map of a list of keys has each key as often as the list.
* `ofList_eq_iff`: two lists of keys have the same map exactly when one is a permutation of the other.
-/

namespace OxmlMcp.Maps

variable {κ : Type*} [LinearOrder κ]

/-- The entries with one more of a key. -/
def bumpEntries (k : κ) : List (κ × Nat) → List (κ × Nat)
  | [] => [(k, 1)]
  | (k', n) :: es =>
    if k < k' then (k, 1) :: (k', n) :: es
    else if k = k' then (k', n + 1) :: es
    else (k', n) :: bumpEntries k es

/-- The count of a key among some entries. -/
def countOf (k : κ) (es : List (κ × Nat)) : Nat :=
  (es.lookup k).getD 0

variable {k x : κ} {n : Nat} {es fs : List (κ × Nat)}

/-- What the first entry counts. -/
lemma countOf_cons (x k : κ) (n : Nat) (es : List (κ × Nat)) :
    countOf x ((k, n) :: es) = if x = k then n else countOf x es := by
  rw [countOf, List.lookup_cons]
  by_cases same : x = k
  · rw [if_pos same, beq_iff_eq.2 same]
    rfl
  · rw [if_neg same, beq_false_of_ne same]
    rfl

/-- A key that is before all entries is not counted. -/
lemma countOf_eq_zero (below : ∀ y ∈ es.map Prod.fst, x < y) : countOf x es = 0 := by
  induction es with
  | nil => rfl
  | cons e es ih =>
    rw [countOf_cons, if_neg (below e.1 List.mem_cons_self).ne]
    exact ih fun y mem => below y (List.mem_cons_of_mem _ mem)

/-- Counting a key once more adds it to the keys, -/
lemma mem_keys_bumpEntries :
    x ∈ (bumpEntries k es).map Prod.fst ↔ x = k ∨ x ∈ es.map Prod.fst := by
  induction es with
  | nil => simp [bumpEntries]
  | cons e es ih =>
    rw [bumpEntries]
    split
    · simp
    · split
      · next same => simp [same]
      · simp only [List.map_cons, List.mem_cons, ih]
        exact or_left_comm

/-- keeps them in order, -/
lemma sorted_bumpEntries (sorted : (es.map Prod.fst).Pairwise (· < ·)) :
    ((bumpEntries k es).map Prod.fst).Pairwise (· < ·) := by
  induction es with
  | nil => exact List.pairwise_singleton _ _
  | cons e es ih =>
    obtain ⟨least, tail⟩ := List.pairwise_cons.1 sorted
    rw [bumpEntries]
    split
    · next lt =>
      refine List.pairwise_cons.2 ⟨fun y mem => ?_, sorted⟩
      rcases List.mem_cons.1 mem with rfl | later
      · exact lt
      · exact lt.trans (least y later)
    · next le =>
      split
      · exact sorted
      · next ne =>
        refine List.pairwise_cons.2 ⟨fun y mem => ?_, ih tail⟩
        rcases mem_keys_bumpEntries.1 mem with rfl | later
        · exact lt_of_le_of_ne (not_lt.1 le) (Ne.symm ne)
        · exact least y later

/-- A key that is counted is not below the first. -/
lemma not_lt_of_countOf (sorted : (((k, n) :: es).map Prod.fst).Pairwise (· < ·))
    (counted : countOf x ((k, n) :: es) ≠ 0) : ¬ x < k := by
  intro lt
  refine counted (countOf_eq_zero fun y mem => ?_)
  rcases List.mem_cons.1 mem with rfl | later
  · exact lt
  · exact lt.trans ((List.pairwise_cons.1 sorted).1 y later)

/-- Bumping a key adds one to its count, and to no other. -/
lemma countOf_bumpEntries (sorted : (es.map Prod.fst).Pairwise (· < ·)) :
    countOf x (bumpEntries k es) = countOf x es + if x = k then 1 else 0 := by
  induction es with
  | nil => rw [bumpEntries, countOf_cons]; exact (Nat.zero_add _).symm
  | cons e es ih =>
    obtain ⟨k', n⟩ := e
    obtain ⟨least, tail⟩ := List.pairwise_cons.1 sorted
    rw [bumpEntries]
    split
    · next lt =>
      rw [countOf_cons]
      split
      · next same =>
        have zero : countOf x ((k', n) :: es) = 0 := by
          by_contra counted
          exact not_lt_of_countOf sorted counted (same ▸ lt)
        rw [zero]
      · rfl
    · split
      · next same =>
        rw [countOf_cons, countOf_cons, same]
        split
        · rfl
        · rfl
      · next ne =>
        rw [countOf_cons, countOf_cons, ih tail]
        split
        · next same => rw [if_neg fun h => ne (h.symm.trans same)]; rfl
        · rfl

/-- A map from keys to positive counts, in the order of the keys. -/
structure Counts (κ : Type*) [LinearOrder κ] where
  entries : List (κ × Nat)
  sorted : (entries.map Prod.fst).Pairwise (· < ·)
  pos : ∀ e ∈ entries, 0 < e.2

/-- `BTreeMap::new`. -/
def Counts.new : Counts κ where
  entries := []
  sorted := .nil
  pos := nofun

/-- and counts no key as often as never. -/
lemma pos_bumpEntries (pos : ∀ e ∈ es, 0 < e.2) : ∀ e ∈ bumpEntries k es, 0 < e.2 := by
  induction es with
  | nil => simp [bumpEntries]
  | cons e es ih =>
    obtain ⟨first, rest⟩ := List.forall_mem_cons.1 pos
    rw [bumpEntries]
    split
    · exact List.forall_mem_cons.2 ⟨Nat.one_pos, pos⟩
    · split
      · exact List.forall_mem_cons.2 ⟨Nat.succ_pos _, rest⟩
      · exact List.forall_mem_cons.2 ⟨first, ih rest⟩

/-- `*map.entry(k).or_default() += 1`. -/
def Counts.bump (m : Counts κ) (k : κ) : Counts κ where
  entries := bumpEntries k m.entries
  sorted := sorted_bumpEntries m.sorted
  pos := pos_bumpEntries m.pos

/-- The map that counts the keys of a list. -/
def Counts.ofList (keys : List κ) : Counts κ :=
  keys.foldl bump new

/-- Entries in order are known by what they count. -/
lemma entries_ext (hes : (es.map Prod.fst).Pairwise (· < ·))
    (hfs : (fs.map Prod.fst).Pairwise (· < ·))
    (pes : ∀ e ∈ es, 0 < e.2) (pfs : ∀ e ∈ fs, 0 < e.2)
    (same : ∀ x, countOf x es = countOf x fs) : es = fs := by
  induction es generalizing fs with
  | nil =>
    cases fs with
    | nil => rfl
    | cons f fs =>
      have h := same f.1
      rw [countOf_cons, if_pos rfl] at h
      exact absurd h (Nat.ne_of_lt (pfs f List.mem_cons_self))
  | cons e es ih =>
    cases fs with
    | nil =>
      have h := same e.1
      rw [countOf_cons, if_pos rfl] at h
      exact absurd h.symm (Nat.ne_of_lt (pes e List.mem_cons_self))
    | cons f fs =>
      obtain ⟨k, n⟩ := e
      obtain ⟨k', n'⟩ := f
      obtain ⟨least, tail⟩ := List.pairwise_cons.1 hes
      obtain ⟨least', tail'⟩ := List.pairwise_cons.1 hfs
      obtain ⟨first, rest⟩ := List.forall_mem_cons.1 pes
      obtain ⟨first', rest'⟩ := List.forall_mem_cons.1 pfs
      have counted : countOf k ((k', n') :: fs) = n := by
        rw [← same, countOf_cons, if_pos rfl]
      have counted' : countOf k' ((k, n) :: es) = n' := by
        rw [same, countOf_cons, if_pos rfl]
      obtain rfl : k = k' := le_antisymm
        (not_lt.1 (not_lt_of_countOf hes (counted' ▸ Nat.ne_of_gt first')))
        (not_lt.1 (not_lt_of_countOf hfs (counted ▸ Nat.ne_of_gt first)))
      obtain rfl : n = n' := by
        rw [← counted, countOf_cons, if_pos rfl]
      rw [ih tail tail' rest rest' fun x => ?_]
      by_cases h : x = k
      · rw [h, countOf_eq_zero least, countOf_eq_zero least']
      · have later := same x
        rw [countOf_cons, countOf_cons, if_neg h, if_neg h] at later
        exact later

/-- The keys that are counted one after the other are those of the map, -/
lemma mem_keys_foldl_bump (keys : List κ) (m : Counts κ) :
    x ∈ (keys.foldl Counts.bump m).entries.map Prod.fst ↔
      x ∈ keys ∨ x ∈ m.entries.map Prod.fst := by
  induction keys generalizing m with
  | nil => simp
  | cons k keys ih =>
    rw [List.foldl_cons, ih, List.mem_cons]
    show _ ∨ x ∈ (bumpEntries k m.entries).map Prod.fst ↔ _
    rw [mem_keys_bumpEntries, or_left_comm, or_assoc]

/-- The map of a list of keys has the keys of the list. -/
theorem mem_keys_ofList (keys : List κ) :
    x ∈ (Counts.ofList keys).entries.map Prod.fst ↔ x ∈ keys := by
  rw [Counts.ofList, mem_keys_foldl_bump]
  exact or_iff_left List.not_mem_nil

/-- each as often as it is among them. -/
lemma countOf_foldl_bump (keys : List κ) (m : Counts κ) :
    countOf x (keys.foldl Counts.bump m).entries = countOf x m.entries + keys.count x := by
  induction keys generalizing m with
  | nil => rfl
  | cons k keys ih =>
    rw [List.foldl_cons, ih, List.count_cons]
    show countOf x (bumpEntries k m.entries) + _ = _
    rw [countOf_bumpEntries m.sorted]
    by_cases same : x = k
    · simp [same, Nat.add_assoc, Nat.add_comm]
    · simp [same, Ne.symm same]

/-- The map of a list of keys has each key as often as the list. -/
theorem countOf_ofList (keys : List κ) (x : κ) :
    countOf x (Counts.ofList keys).entries = keys.count x := by
  rw [Counts.ofList, countOf_foldl_bump]
  exact Nat.zero_add _

/-- Maps with the same entries are the same. -/
@[ext]
lemma Counts.ext {m m' : Counts κ} (h : m.entries = m'.entries) : m = m' := by
  cases m
  cases m'
  cases h
  rfl

/-- Two lists of keys have the same map exactly when one is a permutation of the other. -/
theorem ofList_eq_iff {keys keys' : List κ} :
    Counts.ofList keys = Counts.ofList keys' ↔ keys.Perm keys' := by
  rw [List.perm_iff_count]
  constructor
  · intro h x
    rw [← countOf_ofList, ← countOf_ofList, h]
  · intro same
    apply Counts.ext
    refine entries_ext (Counts.sorted _) (Counts.sorted _) (Counts.pos _) (Counts.pos _) fun x => ?_
    rw [countOf_ofList, countOf_ofList, same]

end OxmlMcp.Maps
