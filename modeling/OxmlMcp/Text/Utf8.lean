import OxmlMcp.Lines.Limit
import OxmlMcp.Text.Str
import Mathlib.Algebra.GroupWithZero.Nat

/-!
# Text by bytes and by pieces

The operations of Rust's `str` that count bytes, and those that cut a text at every occurrence of a
character.

* `isCharBoundary`, `floorCharBoundary`: the offsets at which a text may be cut, and the greatest of
  them not above an offset.
* `sliceTo`: the text up to such an offset. It takes the proof that the offset is a boundary: with
  another, the slice panics.
* `floorCharBoundary_le`, `le_floorCharBoundary`: the loop down from an offset ends at that boundary.
* `split_join`: pieces without the character that they are joined with are read back by splitting.
-/

namespace OxmlMcp.Text

/-- Whether an offset is a boundary between the characters of a text. -/
def isBoundary : List Char → Nat → Bool
  | _, 0 => true
  | [], _ + 1 => false
  | c :: cs, i + 1 => c.utf8Size ≤ i + 1 && isBoundary cs (i + 1 - c.utf8Size)

/-- `str::is_char_boundary`. -/
def isCharBoundary (s : String) (i : Nat) : Bool :=
  isBoundary s.toList i

lemma isCharBoundary_zero (s : String) : isCharBoundary s 0 := by
  rw [isCharBoundary]
  cases s.toList with
  | nil => rfl
  | cons => rfl

/-- From an offset down to a boundary: the loop
`while end > 0 && !s.is_char_boundary(end) { end -= 1 }`. -/
def floorCharBoundary (s : String) : Nat → { i // isCharBoundary s i }
  | 0 => ⟨0, isCharBoundary_zero s⟩
  | i + 1 => if h : isCharBoundary s (i + 1) then ⟨i + 1, h⟩ else floorCharBoundary s i

/-- The characters that lie within the first `i` bytes. -/
def takeBytes : List Char → Nat → List Char
  | [], _ => []
  | c :: cs, i => if c.utf8Size ≤ i then c :: takeBytes cs (i - c.utf8Size) else []

/-- `&s[..i]`, at a boundary. -/
def sliceTo (s : String) (i : { i // isCharBoundary s i }) : String :=
  .ofList (takeBytes s.toList i)

/-- The number of bytes of some characters. -/
def byteSize (cs : List Char) : Nat :=
  (cs.map Char.utf8Size).sum

/-- `str::split` at a character. -/
def split (x : Char) (s : String) : List String :=
  (s.toList.splitOn x).map String.ofList

/-- `str::rsplit` at a character. -/
def rsplit (x : Char) (s : String) : List String :=
  (split x s).reverse

/-- `str::split_once` at a character. -/
def splitOnce (x : Char) (s : String) : Option (String × String) :=
  if x ∈ s.toList then
    some (.ofList (s.toList.takeWhile (· ≠ x)), .ofList (s.toList.dropWhile (· ≠ x)).tail)
  else none

/-- `str::contains` of a text. -/
def contains (s part : String) : Bool :=
  part.toList <:+: s.toList

/-- `<[String]>::join` with a character. -/
def join (x : Char) (values : List String) : String :=
  (String.singleton x).intercalate values

lemma utf8ByteSize_eq (s : String) : s.utf8ByteSize = byteSize s.toList := by
  obtain ⟨cs, rfl⟩ : ∃ cs, s = .ofList cs := ⟨s.toList, String.ofList_toList.symm⟩
  rw [String.toList_ofList]
  induction cs with
  | nil => rfl
  | cons c cs ih =>
    rw [String.ofList_cons, String.utf8ByteSize_append, String.utf8ByteSize_singleton, ih]
    simp [byteSize]

lemma takeBytes_prefix (cs : List Char) (i : Nat) : takeBytes cs i <+: cs := by
  induction cs generalizing i with
  | nil => exact List.prefix_rfl
  | cons c cs ih =>
    rw [takeBytes]
    split
    · exact (List.prefix_cons_inj c).2 (ih _)
    · exact List.nil_prefix

/-- More bytes hold more characters. -/
lemma takeBytes_mono (cs : List Char) {i j : Nat} (le : i ≤ j) :
    takeBytes cs i <+: takeBytes cs j := by
  induction cs generalizing i j with
  | nil => exact List.prefix_rfl
  | cons c cs ih =>
    rw [takeBytes, takeBytes]
    split
    · rw [if_pos (by omega)]
      exact (List.prefix_cons_inj c).2 (ih (by omega))
    · exact List.nil_prefix

lemma byteSize_takeBytes {cs : List Char} {i : Nat} (h : isBoundary cs i) :
    byteSize (takeBytes cs i) = i := by
  induction cs generalizing i with
  | nil =>
    cases i with
    | zero => rfl
    | succ i => cases h
  | cons c cs ih =>
    cases i with
    | zero => rw [takeBytes, if_neg (by simpa using c.utf8Size_pos.ne')]; rfl
    | succ i =>
      obtain ⟨fits, h⟩ := (Bool.and_eq_true _ _).mp h
      have fits := of_decide_eq_true fits
      have rest := ih h
      rw [takeBytes, if_pos fits]
      simp only [byteSize, List.map_cons, List.sum_cons] at rest ⊢
      omega

lemma le_of_isCharBoundary {s : String} {i : Nat} (h : isCharBoundary s i) :
    i ≤ s.utf8ByteSize := by
  obtain ⟨rest, e⟩ := takeBytes_prefix s.toList i
  have size := byteSize_takeBytes h
  rw [utf8ByteSize_eq, ← e, byteSize, List.map_append, List.sum_append]
  rw [byteSize] at size
  omega

/-- The text up to a boundary has as many bytes as the boundary says. -/
lemma utf8ByteSize_sliceTo {s : String} (i : { i // isCharBoundary s i }) :
    (sliceTo s i).utf8ByteSize = i.1 := by
  rw [utf8ByteSize_eq, sliceTo, String.toList_ofList]
  exact byteSize_takeBytes i.2

lemma floorCharBoundary_le (s : String) (i : Nat) : (floorCharBoundary s i).1 ≤ i := by
  induction i with
  | zero => exact Nat.le_refl 0
  | succ i ih =>
    rw [floorCharBoundary]
    split
    · exact Nat.le_refl _
    · exact Nat.le_succ_of_le ih

/-- No boundary lies between the floor of an offset and the offset. -/
lemma le_floorCharBoundary {s : String} {i b : Nat} (h : isCharBoundary s b) (le : b ≤ i) :
    b ≤ (floorCharBoundary s i).1 := by
  induction i with
  | zero => exact le
  | succ i ih =>
    rw [floorCharBoundary]
    split
    · exact le
    · next inside =>
      have ne : b ≠ i + 1 := fun e => inside (e ▸ h)
      exact ih (by omega)

lemma floorCharBoundary_eq {s : String} {b : Nat} (h : isCharBoundary s b) :
    (floorCharBoundary s b).1 = b :=
  Nat.le_antisymm (floorCharBoundary_le s b) (le_floorCharBoundary h (Nat.le_refl b))

lemma floorCharBoundary_mono (s : String) {i j : Nat} (le : i ≤ j) :
    (floorCharBoundary s i).1 ≤ (floorCharBoundary s j).1 :=
  le_floorCharBoundary (floorCharBoundary s i).2 ((floorCharBoundary_le s i).trans le)

variable {x : Char} {values : List String}

/-- A text is cut at the first occurrence of the character. -/
lemma splitOnce_eq {s before after : String} (e : s.toList = before.toList ++ x :: after.toList)
    (free : x ∉ before.toList) : splitOnce x s = some (before, after) := by
  have plain : ∀ c ∈ before.toList, decide (c ≠ x) = true :=
    fun c mem => decide_eq_true fun same => free (same ▸ mem)
  rw [splitOnce, if_pos (by simp [e]), e, List.takeWhile_append_of_pos plain,
    List.dropWhile_append_of_pos plain, List.takeWhile_cons_of_neg (by simp),
    List.dropWhile_cons_of_neg (by simp), List.append_nil, List.tail_cons, String.ofList_toList,
    String.ofList_toList]

lemma splitOnce_none {s : String} (free : x ∉ s.toList) : splitOnce x s = none :=
  if_neg free

@[simp] lemma toList_join : (join x values).toList = [x].intercalate (values.map String.toList) := by
  rw [join, String.toList_intercalate, String.toList_singleton]

/-- Only pieces that are free of the character they are joined with can be read back. -/
theorem split_join (ne : values ≠ []) :
    split x (join x values) = values ↔ ∀ v ∈ values, x ∉ v.toList := by
  constructor
  · intro e v mem
    rw [← e, split] at mem
    obtain ⟨piece, cut, rfl⟩ := List.mem_map.1 mem
    rw [String.toList_ofList]
    exact Lines.notMem_of_mem_splitOn cut
  · intro plain
    rw [split, toList_join, List.splitOn_intercalate x, List.map_map]
    · simp
    · intro l mem
      obtain ⟨v, value, rfl⟩ := List.mem_map.1 mem
      exact plain v value
    · simpa using ne

end OxmlMcp.Text
