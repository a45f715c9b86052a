import Mathlib.Tactic.Common
import Mathlib.Algebra.GroupWithZero.Nat

/-!
# Numbers as the standard library reads them

`str::parse` of Rust at an unsigned integer type, here at the numbers below a limit: one `+` may come
first, at least one decimal digit follows, and the number is refused as soon as it is too large.

* `parseUnsigned_iff`: what is read of a text is the value of the numeral that it is.
* `digits_repr`: the decimal digits of a number are a numeral of it.
-/

namespace OxmlMcp.Text

variable {limit : Nat}

/-- A number with one digit more, unless it is then too large. -/
def pushDigit (n : Fin limit) (c : Char) : Option (Fin limit) :=
  if h : c.isDigit ∧ 10 * n.1 + (c.toNat - '0'.toNat) < limit then some ⟨_, h.2⟩ else none

/-- `str::parse` at the type of the numbers below a limit. -/
def parseUnsigned (limit : Nat) [NeZero limit] (s : String) : Option (Fin limit) :=
  let digits := if s.toList.head? = some '+' then s.toList.tail else s.toList
  if digits.isEmpty then none else digits.foldlM pushDigit 0

/-- Some decimal digits, at least one, of the value `n`. -/
structure Digits (cs : List Char) (n : Nat) : Prop where
  ne : cs ≠ []
  digit : ∀ c ∈ cs, c.isDigit
  value : Nat.ofDigitChars 10 cs 0 = n

/-- A numeral of an unsigned number: its digits, perhaps with a sign. -/
def Numeral (s : String) (n : Nat) : Prop :=
  Digits s.toList n ∨ ∃ digits, s.toList = '+' :: digits ∧ Digits digits n

lemma le_ofDigitChars (cs : List Char) (n : Nat) : n ≤ Nat.ofDigitChars 10 cs n := by
  induction cs generalizing n with
  | nil => exact Nat.le_of_eq Nat.ofDigitChars_nil.symm
  | cons c cs ih =>
    rw [Nat.ofDigitChars_cons]
    exact Nat.le_trans (by omega) (ih _)

/-- A number grows with its digits, so that it is refused exactly when it is too large in the end. -/
lemma foldlM_pushDigit {cs : List Char} {m n : Fin limit} :
    cs.foldlM pushDigit m = some n ↔
      (∀ c ∈ cs, c.isDigit) ∧ Nat.ofDigitChars 10 cs m = n := by
  induction cs generalizing m with
  | nil =>
    rw [List.foldlM_nil, Nat.ofDigitChars_nil, Fin.val_inj]
    simp
  | cons c cs ih =>
    rw [List.foldlM_cons, pushDigit, Nat.ofDigitChars_cons, List.forall_mem_cons]
    split
    · next push =>
      show cs.foldlM pushDigit _ = some n ↔ _
      rw [ih, and_iff_right push.1]
    · next stop =>
      refine iff_of_false nofun fun ⟨⟨digit, _⟩, same⟩ => stop ⟨digit, ?_⟩
      have le := le_ofDigitChars cs (10 * m.1 + (c.toNat - '0'.toNat))
      rw [same] at le
      exact Nat.lt_of_le_of_lt le n.2

variable [NeZero limit]

lemma foldlM_pushDigit_iff {cs : List Char} {n : Fin limit} :
    (if cs.isEmpty then none else cs.foldlM pushDigit (0 : Fin limit)) = some n ↔ Digits cs n := by
  split
  · next empty => exact iff_of_false nofun fun h => h.ne (List.isEmpty_iff.1 empty)
  · next ne =>
    rw [foldlM_pushDigit]
    exact ⟨fun ⟨digit, value⟩ => ⟨by simpa using ne, digit, value⟩,
      fun ⟨_, digit, value⟩ => ⟨digit, value⟩⟩

lemma Digits.head {cs : List Char} {n : Nat} (h : Digits cs n) : cs.head? ≠ some '+' := by
  intro head
  have digit := h.digit _ (List.mem_of_head? head)
  exact absurd digit (by decide)

/-- What is read of a text is the value of the numeral that it is. -/
theorem parseUnsigned_iff {s : String} {n : Fin limit} :
    parseUnsigned limit s = some n ↔ Numeral s n := by
  rw [parseUnsigned, foldlM_pushDigit_iff, Numeral]
  split
  · next sign =>
    obtain ⟨digits, e⟩ := List.head?_eq_some_iff.1 sign
    rw [e, List.tail_cons]
    constructor
    · intro h
      exact .inr ⟨digits, rfl, h⟩
    · rintro (h | ⟨_, ⟨rfl⟩, h⟩)
      · exact absurd rfl h.head
      · exact h
  · next plain =>
    refine ⟨.inl, ?_⟩
    rintro (h | ⟨_, e, _⟩)
    · exact h
    · rw [e] at plain
      exact absurd rfl plain

lemma digits_repr (n : Nat) : Digits n.repr.toList n where
  ne := by
    rw [Nat.toList_repr]
    exact Nat.toDigits_ne_nil
  digit c mem := by
    rw [Nat.toList_repr] at mem
    exact Nat.isDigit_of_mem_toDigits (by decide) (by decide) mem
  value := by rw [Nat.toList_repr, Nat.ofDigitChars_ten_toDigits]

/-- Leading zeros and a sign are read; a sign alone, another sign, and a number too large are not. -/
example : parseUnsigned 65536 "+00080" = some 80 ∧ parseUnsigned 65536 "+" = none ∧
    parseUnsigned 65536 "-0" = none ∧ parseUnsigned 65536 "65536" = none := by
  decide

end OxmlMcp.Text
