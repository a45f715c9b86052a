import OxmlMcp.Lines.Position
import OxmlMcp.Tools.Query
import Mathlib.Order.Bounds.Basic

/-!
# Where an expression is at fault

The position that `xpath_line_column` of `src/lib.rs` gives of an offset in an expression.

* `xpathLineColumn_eq`: it is the position after the characters before the offset.
* `xpath_positions`: so it can be read back, and offsets that increase have positions that do.
-/

namespace OxmlMcp.Tools
open OxmlMcp.Lines OxmlMcp.Text

/-- The offset that a position is given of: the greatest boundary not above the offset. -/
def xpathBoundary (input : String) (offset : Nat) : { i // isCharBoundary input i } :=
  floorCharBoundary input (min offset input.utf8ByteSize)

variable {input : String}

/-- The code's column is that of a reader of the last line. -/
lemma column_eq (upto : String) :
    ((rsplit '\n' upto).head?.elim 1 fun line => line.toList.length + 1) =
      lastLength '\n' 0 upto.toList + 1 := by
  rw [rsplit, split, List.head?_reverse, List.getLast?_map, getLast?_splitOn, lastLength_eq]
  simp

/-- The code's position is that of a reader. -/
theorem xpathLineColumn_eq (input : String) (offset : Nat) :
    xpathLineColumn input offset =
      position '\n' (takeBytes input.toList (xpathBoundary input offset).1) := by
  rw [xpathLineColumn, column_eq, position_eq, sliceTo, String.toList_ofList, xpathBoundary]

lemma isGreatest_xpathBoundary (input : String) (offset : Nat) :
    IsGreatest { i | isCharBoundary input i ∧ i ≤ min offset input.utf8ByteSize }
      (xpathBoundary input offset).1 := by
  constructor
  · exact ⟨(xpathBoundary input offset).2, floorCharBoundary_le _ _⟩
  · rintro i ⟨h, le⟩
    exact le_floorCharBoundary h le

lemma xpathBoundary_eq {b : Nat} (h : isCharBoundary input b) : (xpathBoundary input b).1 = b := by
  rw [xpathBoundary, Nat.min_eq_left (le_of_isCharBoundary h), floorCharBoundary_eq h]

/-- Reading an expression to a position leads back to the boundary. -/
lemma seek_xpathLineColumn (input : String) (offset : Nat) :
    seek '\n' Char.utf8Size (xpathLineColumn input offset) (1, 1) input.toList =
      (xpathBoundary input offset).1 := by
  obtain ⟨after, e⟩ := takeBytes_prefix input.toList (xpathBoundary input offset).1
  have read := seek_position '\n' Char.utf8Size
    (takeBytes input.toList (xpathBoundary input offset).1) after
  rw [e] at read
  rw [xpathLineColumn_eq, read]
  exact byteSize_takeBytes (xpathBoundary input offset).2

/-- The position of an offset is that of the greatest boundary not above it. Reading the expression
to it leads back to the boundary, no two boundaries have one position, and positions increase with
offsets. -/
theorem xpath_positions (input : String) :
    (∀ offset, ∃ before after : String, input = before ++ after ∧
      IsGreatest { i | isCharBoundary input i ∧ i ≤ min offset input.utf8ByteSize }
        before.utf8ByteSize ∧
      xpathLineColumn input offset =
        (1 + before.toList.count '\n', 1 + (before.toList.rtakeWhile (· ≠ '\n')).length) ∧
      seek '\n' Char.utf8Size (xpathLineColumn input offset) (1, 1) input.toList =
        before.utf8ByteSize) ∧
    Set.InjOn (xpathLineColumn input) { b | isCharBoundary input b } ∧
    Monotone fun offset => toLex (xpathLineColumn input offset) := by
  refine ⟨fun offset => ?_, fun b h b' h' same => ?_, fun offset offset' le => ?_⟩
  · obtain ⟨after, e⟩ := takeBytes_prefix input.toList (xpathBoundary input offset).1
    refine ⟨sliceTo input (xpathBoundary input offset), .ofList after, ?_, ?_, ?_, ?_⟩
    · rw [sliceTo, ← String.ofList_append, e, String.ofList_toList]
    · rw [utf8ByteSize_sliceTo]
      exact isGreatest_xpathBoundary input offset
    · rw [xpathLineColumn_eq, position_eq, lastLength_eq, sliceTo, String.toList_ofList,
        Nat.add_comm, Nat.add_comm _ 1]
    · rw [seek_xpathLineColumn, utf8ByteSize_sliceTo]
  · rw [← xpathBoundary_eq h, ← xpathBoundary_eq h', ← seek_xpathLineColumn, same,
      seek_xpathLineColumn]
  · show toLex (xpathLineColumn input offset) ≤ toLex (xpathLineColumn input offset')
    rw [xpathLineColumn_eq, xpathLineColumn_eq]
    apply position_le
    apply takeBytes_mono
    exact floorCharBoundary_mono input (by omega)

/-- An offset inside the second character, at the end, and past it. -/
example : xpathLineColumn "\né" 2 = (2, 1) ∧ xpathLineColumn "\né" 3 = (2, 2) ∧
    xpathLineColumn "\né" 9 = (2, 2) ∧ xpathLineColumn "é\n" 3 = (2, 1) := by
  decide

end OxmlMcp.Tools
