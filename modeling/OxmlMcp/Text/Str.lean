import Mathlib.Data.List.DropRight

/-!
# Text as the standard library cuts it

The operations of Rust's `str` that the program uses, on `String` through its characters:
`char::is_whitespace`, `trim`, `trim_matches` and `to_ascii_lowercase`.
-/

namespace OxmlMcp.Text

/-- `char::is_whitespace`: the Unicode property `White_Space`. -/
def isWhitespace (c : Char) : Bool :=
  let n := c.toNat
  (9 ≤ n && n ≤ 13) || n == 0x20 || n == 0x85 || n == 0xA0 || n == 0x1680 ||
  (0x2000 ≤ n && n ≤ 0x200A) || n == 0x2028 || n == 0x2029 || n == 0x202F || n == 0x205F ||
  n == 0x3000

/-- `str::trim_matches`: drop the characters of `p` at both ends. -/
def trimMatches (p : Char → Bool) (s : String) : String :=
  .ofList ((s.toList.dropWhile p).rdropWhile p)

/-- `str::trim`. -/
def trim (s : String) : String :=
  trimMatches isWhitespace s

/-- `str::to_ascii_lowercase`. -/
def toAsciiLowercase (s : String) : String :=
  .ofList (s.toList.map Char.toLower)

/-- What is left of a text after trimming is one of its parts. -/
lemma trimMatches_eq {p : Char → Bool} {s : String} :
    ∃ l r, s.toList = l ++ (trimMatches p s).toList ++ r ∧ (∀ c ∈ l, p c) ∧ ∀ c ∈ r, p c := by
  refine ⟨s.toList.takeWhile p, (s.toList.dropWhile p).rtakeWhile p, ?_, ?_, ?_⟩
  · rw [trimMatches, String.toList_ofList, List.append_assoc, List.rdropWhile_append_rtakeWhile,
      List.takeWhile_append_dropWhile]
  · intro c mem
    exact List.mem_takeWhile_imp mem
  · intro c mem
    exact List.mem_rtakeWhile_imp mem

/-- A text trims to nothing exactly when it is all of `p`. -/
lemma trimMatches_eq_empty {p : Char → Bool} {s : String} :
    trimMatches p s = "" ↔ ∀ c ∈ s.toList, p c := by
  constructor
  · intro e c mem
    obtain ⟨l, r, split, hl, hr⟩ := trimMatches_eq (p := p) (s := s)
    rw [e] at split
    rw [split] at mem
    rcases List.mem_append.1 mem with mem | mem
    · exact hl c (by simpa using mem)
    · exact hr c mem
  · intro all
    have drop : s.toList.dropWhile p = [] := List.dropWhile_eq_nil_iff.2 all
    simp [trimMatches, drop]

/-- Lowercase by the numbers of characters: `A` to `Z` move, nothing else does. -/
lemma toNat_toLower (c : Char) :
    c.toLower.toNat = if 65 ≤ c.toNat ∧ c.toNat ≤ 90 then c.toNat + 32 else c.toNat := by
  have upper : (c.val ≥ 'A'.val ∧ c.val ≤ 'Z'.val) ↔ 65 ≤ c.toNat ∧ c.toNat ≤ 90 := Iff.rfl
  unfold Char.toLower
  split
  · have range := upper.1 ‹_›
    have le : c.val.toNat ≤ 90 := range.2
    rw [if_pos range]
    show (c.val + ('a'.val - 'A'.val)).toNat = c.val.toNat + 32
    rw [UInt32.toNat_add]
    show (c.val.toNat + 32) % 2 ^ 32 = c.val.toNat + 32
    omega
  · rw [if_neg fun h => ‹¬ _› (upper.2 h)]

lemma toLower_toLower (c : Char) : c.toLower.toLower = c.toLower := by
  have h1 := toNat_toLower c
  have h2 := toNat_toLower c.toLower
  rw [← Char.toNat_inj]
  split at h1 <;> split at h2 <;> omega

/-- Only a character that is no letter has itself as its lowercase and is that of no other. -/
lemma toLower_eq_iff {c x : Char} (upper : ¬ (65 ≤ x.toNat ∧ x.toNat ≤ 90))
    (lower : ¬ (97 ≤ x.toNat ∧ x.toNat ≤ 122)) : c.toLower = x ↔ c = x := by
  have h := toNat_toLower c
  rw [← Char.toNat_inj, ← Char.toNat_inj]
  split at h <;> omega

@[simp] lemma toAsciiLowercase_idem (s : String) :
    toAsciiLowercase (toAsciiLowercase s) = toAsciiLowercase s := by
  rw [toAsciiLowercase, toAsciiLowercase, String.toList_ofList, List.map_map]
  exact congrArg String.ofList (List.map_congr_left fun c _ => toLower_toLower c)

@[simp] lemma toAsciiLowercase_append (s t : String) :
    toAsciiLowercase (s ++ t) = toAsciiLowercase s ++ toAsciiLowercase t := by
  rw [← String.toList_inj]
  simp [toAsciiLowercase]

lemma mem_toAsciiLowercase {x : Char} {s : String} (upper : ¬ (65 ≤ x.toNat ∧ x.toNat ≤ 90))
    (lower : ¬ (97 ≤ x.toNat ∧ x.toNat ≤ 122)) :
    x ∈ (toAsciiLowercase s).toList ↔ x ∈ s.toList := by
  simp [toAsciiLowercase, toLower_eq_iff upper lower]

lemma bounds_of_isAlpha {c : Char} (plain : c.isAlpha = false) :
    ¬ (65 ≤ c.toNat ∧ c.toNat ≤ 90) ∧ ¬ (97 ≤ c.toNat ∧ c.toNat ≤ 122) := by
  obtain ⟨upper, lower⟩ := Bool.or_eq_false_iff.1 plain
  have range : c.isLower = true ↔ 97 ≤ c.toNat ∧ c.toNat ≤ 122 :=
    Bool.and_eq_true_iff.trans (and_congr decide_eq_true_iff decide_eq_true_iff)
  rw [← range, lower]
  exact ⟨of_decide_eq_false upper, Bool.false_ne_true⟩

/-- A text without letters is the lowercase of no other. -/
lemma eq_of_toAsciiLowercase {s t : String} (plain : t.toList.all (!·.isAlpha))
    (e : toAsciiLowercase s = t) : s = t := by
  have same : ∀ c ∈ s.toList, c.toLower = c := by
    intro c mem
    have mem' : c.toLower ∈ t.toList := by
      rw [← e, toAsciiLowercase, String.toList_ofList]
      exact List.mem_map_of_mem mem
    have noLetter : c.toLower.isAlpha = false := by
      simpa using List.all_eq_true.1 plain _ mem'
    have bounds := bounds_of_isAlpha noLetter
    have fixed : c = c.toLower := (toLower_eq_iff bounds.1 bounds.2).1 rfl
    exact fixed.symm
  rw [← e, ← String.toList_inj, toAsciiLowercase, String.toList_ofList, List.map_congr_left same,
    List.map_id']

lemma trimMatches_idem {p : Char → Bool} {s : String} :
    trimMatches p (trimMatches p s) = trimMatches p s := by
  have front : ((s.toList.dropWhile p).rdropWhile p).dropWhile p =
      (s.toList.dropWhile p).rdropWhile p := by
    rw [List.dropWhile_eq_self_iff]
    intro pos
    have pre := List.rdropWhile_prefix p (s.toList.dropWhile p)
    rw [pre.getElem pos]
    exact List.dropWhile_eq_self_iff.1 (List.dropWhile_idempotent p s.toList) _
  rw [trimMatches, trimMatches, String.toList_ofList, front, List.rdropWhile_idempotent]

/-- Trimming commutes with lowercasing when no letter is trimmed. -/
lemma trimMatches_toAsciiLowercase {p : Char → Bool} (stable : ∀ c, p c.toLower = p c)
    (s : String) : trimMatches p (toAsciiLowercase s) = toAsciiLowercase (trimMatches p s) := by
  have same : p ∘ Char.toLower = p := funext stable
  simp only [trimMatches, toAsciiLowercase, String.toList_ofList, List.rdropWhile,
    List.dropWhile_map, same, ← List.map_reverse]

lemma trimMatches_of_forall {p : Char → Bool} {s : String} (none' : ∀ c ∈ s.toList, p c = false) :
    trimMatches p s = s := by
  rw [trimMatches, List.dropWhile_eq_self_iff.2, List.rdropWhile_eq_self_iff.2, String.ofList_toList]
  · intro ne
    simp [none' _ (List.getLast_mem ne)]
  · intro pos
    simp [none' _ (List.getElem_mem pos)]

/-- Trimming takes one character of `p` off each end of a text that has no others. -/
lemma trimMatches_enclosed {p : Char → Bool} {a b : Char} {s : String} (ha : p a) (hb : p b)
    (ne : s.toList ≠ []) (none' : ∀ c ∈ s.toList, p c = false) :
    trimMatches p (.ofList (a :: (s.toList ++ [b]))) = s := by
  have front : (s.toList ++ [b]).dropWhile p = s.toList ++ [b] := by
    rw [List.dropWhile_eq_self_iff]
    intro pos
    obtain ⟨c, cs, e⟩ := List.exists_cons_of_ne_nil ne
    simp [e, none' c (by simp [e])]
  rw [trimMatches, String.toList_ofList, List.dropWhile_cons_of_pos ha, front,
    List.rdropWhile_concat_pos _ _ _ hb, List.rdropWhile_eq_self_iff.2, String.ofList_toList]
  intro ne
  simp [none' _ (List.getLast_mem ne)]

end OxmlMcp.Text
