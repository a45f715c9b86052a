import OxmlMcp.Lines.Limit
import Mathlib.Data.List.DropRight
import Mathlib.Data.Prod.Lex
import Mathlib.Algebra.GroupWithZero.Nat

/-!
# Positions in a text

The position of a reader in a text is a line and a column, both counted from one. A symbol that ends a
line moves the reader to the next one, and any other moves it one column on (`advance`).

* `position_eq`: the position after some text, by the lines that it ends and by the length of its last.
* `position_le`: a reader that is further on in a text has a greater position, line first.
* `seek_position`: so a text is read to a position in one way only.
-/

namespace OxmlMcp.Lines

variable {α : Type*} [DecidableEq α]

/-- The position after one more symbol. -/
def advance (nl : α) (pos : Nat × Nat) (a : α) : Nat × Nat :=
  if a = nl then (pos.1 + 1, 1) else (pos.1, pos.2 + 1)

/-- The position after a text. -/
def position (nl : α) (text : List α) : Nat × Nat :=
  text.foldl (advance nl) (1, 1)

/-- How much of a text lies before a position, for a reader that stands at a position already. The
symbols of the text have different widths. -/
def seek (nl : α) (width : α → Nat) (target : Nat × Nat) : Nat × Nat → List α → Nat
  | _, [] => 0
  | pos, a :: text =>
    if pos = target then 0 else width a + seek nl width target (advance nl pos a) text

variable {nl : α}

lemma lt_advance (pos : Nat × Nat) (a : α) : toLex pos < toLex (advance nl pos a) := by
  rw [Prod.Lex.toLex_lt_toLex, advance]
  split
  · exact .inl (Nat.lt_succ_self _)
  · exact .inr ⟨rfl, Nat.lt_succ_self _⟩

lemma le_foldl_advance (nl : α) (pos : Nat × Nat) (text : List α) :
    toLex pos ≤ toLex (text.foldl (advance nl) pos) := by
  induction text generalizing pos with
  | nil => exact le_rfl
  | cons a text ih => exact (lt_advance pos a).le.trans (ih (advance nl pos a))

/-- A reader that is further on has a greater position. -/
theorem position_le {before text : List α} (h : before <+: text) :
    toLex (position nl before) ≤ toLex (position nl text) := by
  obtain ⟨more, rfl⟩ := h
  rw [position, position, List.foldl_append]
  exact le_foldl_advance nl _ more

lemma seek_foldl (width : α → Nat) (pos : Nat × Nat) (before after : List α) :
    seek nl width (before.foldl (advance nl) pos) pos (before ++ after) =
      (before.map width).sum := by
  induction before generalizing pos with
  | nil =>
    cases after with
    | nil => rfl
    | cons a after => exact if_pos rfl
  | cons a before ih =>
    have later : pos ≠ before.foldl (advance nl) (advance nl pos a) := by
      intro same
      have lt := (lt_advance pos a).trans_le (le_foldl_advance nl (advance nl pos a) before)
      exact lt.ne (congrArg toLex same)
    rw [List.foldl_cons, List.cons_append, seek, if_neg later, ih, List.map_cons, List.sum_cons]

/-- A text is read to the position after some of it. -/
theorem seek_position (nl : α) (width : α → Nat) (before after : List α) :
    seek nl width (position nl before) (1, 1) (before ++ after) = (before.map width).sum :=
  seek_foldl width (1, 1) before after

/-- The last line of a text, as what follows the last symbol that ends a line. -/
lemma lastLength_eq (text : List α) :
    lastLength nl 0 text = (text.rtakeWhile (· ≠ nl)).length := by
  induction text using List.reverseRecOn with
  | nil => rfl
  | append_singleton text a ih =>
    rw [lastLength_append, lastLength_cons, lastLength_nil, ih]
    by_cases h : a = nl
    · rw [if_pos h, List.rtakeWhile_concat_neg _ _ _ (by simpa using h)]
      rfl
    · rw [if_neg h, List.rtakeWhile_concat_pos _ _ _ (by simpa using h)]
      simp

/-- The line of a position is one more than the lines that end before it, and its column one more
than what there is of the last line. -/
theorem position_eq (text : List α) :
    position nl text = (text.count nl + 1, lastLength nl 0 text + 1) := by
  induction text using List.reverseRecOn with
  | nil => rfl
  | append_singleton text a ih =>
    rw [position] at ih ⊢
    rw [List.foldl_append, ih, lastLength_append, List.count_append]
    by_cases h : a = nl
    · simp [advance, h]
    · simp [advance, h]

lemma rtakeWhile_append_cons {before last : List α} (one : nl ∉ last) :
    (before ++ nl :: last).rtakeWhile (· ≠ nl) = last := by
  have plain : ∀ a ∈ last.reverse, decide (a ≠ nl) = true := by
    intro a mem
    exact decide_eq_true fun same => one (same ▸ List.mem_reverse.1 mem)
  rw [List.rtakeWhile, List.reverse_append, List.reverse_cons, List.append_assoc,
    List.takeWhile_append_of_pos plain, List.singleton_append, List.takeWhile_cons_of_neg (by simp),
    List.append_nil, List.reverse_reverse]

/-- The last piece of a text that is cut where its lines end is its last line. -/
lemma getLast?_splitOn (text : List α) :
    (text.splitOn nl).getLast? = some (text.rtakeWhile (· ≠ nl)) := by
  by_cases cut : nl ∈ text
  · obtain ⟨after, before, e, one⟩ := List.eq_append_cons_of_mem (List.mem_reverse.2 cut)
    have one : nl ∉ after.reverse := fun mem => one (List.mem_reverse.1 mem)
    have e : text = before.reverse ++ nl :: after.reverse := by
      rw [← text.reverse_reverse, e]
      simp
    rw [e, rtakeWhile_append_cons one, List.splitOn_append_cons_self, List.splitOn_eq_singleton one,
      List.getLast?_concat]
  · have all : text.rtakeWhile (· ≠ nl) = text := by
      refine List.rtakeWhile_eq_self_iff.2 fun a mem => ?_
      exact decide_eq_true fun same => cut (same ▸ mem)
    rw [List.splitOn_eq_singleton cut, all, List.getLast?_singleton]

end OxmlMcp.Lines
