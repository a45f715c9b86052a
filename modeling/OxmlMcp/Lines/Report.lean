import Mathlib.Tactic.Common
import Mathlib.Data.List.Basic

/-!
# Reports of marked entries

A report lists entries, each with a label and a value: an indent, the label as it is, and a term that
says the value. A term begins with a mark that occurs nowhere else in a term or in the indent. A label
that has a mark can imitate an entry of its own, and is then read as several (`Cut`).

* `report_eq_iff`: two lists of entries have the same report exactly when they can be cut into the
  same entries.
* `report_append_inj`: a list of entries without marks in the labels can be read back, whatever
  follows it.
-/

namespace OxmlMcp.Lines

/-- How entries with values in `β` are written. -/
structure Layout (α β : Type*) where
  indent : List α
  term : β → List α
  mark : α
  indent_ne_nil : indent ≠ []
  indent_free : mark ∉ indent
  term_eq : ∀ b, ∃ rest, term b = mark :: rest ∧ mark ∉ rest
  term_inj : ∀ {b c x y}, term b ++ x = term c ++ y → b = c ∧ x = y

variable {α β : Type*} {L : Layout α β}

/-- An entry as it is written. -/
def Layout.entry (L : Layout α β) (e : List α × β) : List α :=
  L.indent ++ (e.1 ++ L.term e.2)

/-- A list of entries as it is written. -/
def Layout.report (L : Layout α β) (es : List (List α × β)) : List α :=
  es.flatMap L.entry

/-- The first entries read as the second: some labels are cut where they imitate an entry. -/
inductive Layout.Cut (L : Layout α β) : List (List α × β) → List (List α × β) → Prop where
  | nil : Cut L [] []
  | keep {e es fs} :
    Cut L es fs →
    Cut L (e :: es) (e :: fs)
  | cut {u b v c es fs} :
    Cut L ((v, c) :: es) fs →
    Cut L ((u ++ (L.term b ++ (L.indent ++ v)), c) :: es) ((u, b) :: fs)

@[simp] lemma Layout.report_nil : L.report [] = [] := rfl

lemma Layout.report_cons (e : List α × β) (es : List (List α × β)) :
    L.report (e :: es) = L.indent ++ (e.1 ++ (L.term e.2 ++ L.report es)) := by
  rw [report, List.flatMap_cons, entry, List.append_assoc, List.append_assoc]
  rfl

lemma Layout.report_eq_nil {es : List (List α × β)} : L.report es = [] ↔ es = [] := by
  cases es with
  | nil => exact ⟨fun _ => rfl, fun _ => rfl⟩
  | cons e es =>
    rw [report_cons]
    exact ⟨fun h => absurd (List.append_eq_nil_iff.1 h).1 L.indent_ne_nil, nofun⟩

lemma Layout.Cut.report_eq {es fs} (cut : L.Cut es fs) : L.report es = L.report fs := by
  induction cut with
  | nil => rfl
  | keep _ ih => rw [report_cons, report_cons, ih]
  | cut _ ih =>
    rw [report_cons] at ih ⊢
    rw [report_cons, ← ih]
    simp only [List.append_assoc]

/-- What has no mark ends before the first mark. -/
lemma exists_append_of_free {a : α} {p w x y : List α} (free : a ∉ p)
    (h : p ++ x = w ++ a :: y) : ∃ v, w = p ++ v ∧ x = v ++ a :: y := by
  rcases List.append_eq_append_iff.1 h with ⟨v, rfl, e⟩ | ⟨v, rfl, e⟩
  · exact ⟨v, rfl, e⟩
  · cases v with
    | nil => exact ⟨[], by simp, e.symm⟩
    | cons b v =>
      obtain ⟨rfl, _⟩ := List.cons.inj e
      exact absurd (by simp) free

lemma append_cons_inj_of_free {a : α} {u v x y : List α} (hu : a ∉ u) (hv : a ∉ v)
    (h : u ++ a :: x = v ++ a :: y) : u = v ∧ x = y := by
  obtain ⟨w, rfl, e⟩ := exists_append_of_free hu h
  cases w with
  | nil => exact ⟨by simp, (List.cons.inj e).2⟩
  | cons b w =>
    obtain ⟨rfl, _⟩ := List.cons.inj e
    exact absurd (by simp) hv

/-- Where a label ends before another, the other goes on with the term of the first. -/
lemma Layout.exists_of_append {w x y : List α} {b c : β} (ne : w ≠ [])
    (h : L.term b ++ x = w ++ (L.term c ++ y)) :
    ∃ v, w = L.term b ++ v ∧ x = v ++ (L.term c ++ y) := by
  obtain ⟨rest, eb, free⟩ := L.term_eq b
  obtain ⟨rest', ec, _⟩ := L.term_eq c
  rw [eb, ec] at h ⊢
  obtain ⟨d, w, rfl⟩ := List.exists_cons_of_ne_nil ne
  obtain ⟨rfl, tail⟩ := List.cons.inj h
  obtain ⟨v, rfl, rfl⟩ := exists_append_of_free free tail
  exact ⟨v, rfl, rfl⟩

/-- Two labels, each followed by a term: they are the same, or one goes on with the term of the
other. -/
lemma Layout.label_cases {u v x y : List α} {b c : β}
    (h : u ++ (L.term b ++ x) = v ++ (L.term c ++ y)) :
    (u = v ∧ b = c ∧ x = y) ∨
    (∃ w, v = u ++ (L.term b ++ w) ∧ x = w ++ (L.term c ++ y)) ∨
    ∃ w, u = v ++ (L.term c ++ w) ∧ y = w ++ (L.term b ++ x) := by
  rcases List.append_eq_append_iff.1 h with ⟨w, rfl, e⟩ | ⟨w, rfl, e⟩
  · rcases eq_or_ne w [] with rfl | ne
    · exact .inl ⟨by simp, L.term_inj e⟩
    · obtain ⟨w, rfl, rfl⟩ := L.exists_of_append ne e
      exact .inr (.inl ⟨w, rfl, rfl⟩)
  · rcases eq_or_ne w [] with rfl | ne
    · obtain ⟨rfl, rfl⟩ := L.term_inj e
      exact .inl ⟨by simp, rfl, rfl⟩
    · obtain ⟨w, rfl, rfl⟩ := L.exists_of_append ne e
      exact .inr (.inr ⟨w, rfl, rfl⟩)

lemma Layout.exists_label {es fs : List (List α × β)} {w : List α} {c : β}
    (h : L.report es = w ++ (L.term c ++ L.report fs)) :
    ∃ v, w = L.indent ++ v ∧ L.report es = L.report ((v, c) :: fs) := by
  obtain ⟨rest, ec, _⟩ := L.term_eq c
  cases es with
  | nil => simp [ec] at h
  | cons e es =>
    rw [report_cons] at h ⊢
    rw [ec] at h
    obtain ⟨v, rfl, e'⟩ := exists_append_of_free L.indent_free h
    refine ⟨v, rfl, ?_⟩
    rw [e', report_cons, ec]
    rfl

/-- Entries with the same report can be cut into the same entries. -/
lemma Layout.exists_cut (n : Nat) {es fs : List (List α × β)} (size : es.length + fs.length ≤ n)
    (h : L.report es = L.report fs) : ∃ ls, L.Cut es ls ∧ L.Cut fs ls := by
  induction n generalizing es fs with
  | zero =>
    obtain rfl := List.length_eq_zero_iff.1 (by omega : es.length = 0)
    obtain rfl := List.length_eq_zero_iff.1 (by omega : fs.length = 0)
    exact ⟨[], .nil, .nil⟩
  | succ n ih =>
    cases es with
    | nil =>
      obtain rfl := L.report_eq_nil.1 h.symm
      exact ⟨[], .nil, .nil⟩
    | cons e es =>
      cases fs with
      | nil => cases L.report_eq_nil.1 h
      | cons f fs =>
        obtain ⟨u, b⟩ := e
        obtain ⟨v, c⟩ := f
        rw [List.length_cons, List.length_cons] at size
        rw [report_cons, report_cons] at h
        rcases L.label_cases (List.append_cancel_left h) with
          ⟨rfl, rfl, same⟩ | ⟨w, rfl, same⟩ | ⟨w, rfl, same⟩
        · obtain ⟨ls, k1, k2⟩ := ih (by omega) same
          exact ⟨_, .keep k1, .keep k2⟩
        · -- The second label is cut where the first ends.
          obtain ⟨v, rfl, same⟩ := L.exists_label same
          obtain ⟨ls, k1, k2⟩ := ih (by rw [List.length_cons]; omega) same
          exact ⟨_, .keep k1, .cut k2⟩
        · obtain ⟨v, rfl, same⟩ := L.exists_label same
          obtain ⟨ls, k1, k2⟩ := ih (by rw [List.length_cons]; omega) same
          exact ⟨_, .cut k2, .keep k1⟩

/-- Two lists of entries have the same report exactly when they can be cut into the same entries. -/
theorem Layout.report_eq_iff {es fs : List (List α × β)} :
    L.report es = L.report fs ↔ ∃ ls, L.Cut es ls ∧ L.Cut fs ls := by
  constructor
  · intro h
    exact L.exists_cut _ (Nat.le_refl _) h
  · rintro ⟨ls, k1, k2⟩
    exact k1.report_eq.trans k2.report_eq.symm

/-- Labels that imitate no entry are not cut. -/
lemma Layout.Cut.eq_of_plain {es ls : List (List α × β)} (cut : L.Cut es ls)
    (plain : ∀ e ∈ es, ∀ b, ¬ (L.term b ++ L.indent) <:+: e.1) : ls = es := by
  induction cut with
  | nil => rfl
  | keep _ ih => rw [ih fun e mem => plain e (List.mem_cons_of_mem _ mem)]
  | @cut u b v c es fs _ ih =>
    refine absurd ?_ (plain _ List.mem_cons_self b)
    exact ⟨u, v, by simp⟩

/-- Entries without marks in their labels can be read back, when what follows begins otherwise. -/
theorem Layout.report_append_inj {es fs : List (List α × β)} {x y : List α}
    (hes : ∀ e ∈ es, L.mark ∉ e.1) (hfs : ∀ e ∈ fs, L.mark ∉ e.1)
    (hx : ¬ ∃ r, x = L.indent ++ r) (hy : ¬ ∃ r, y = L.indent ++ r)
    (h : L.report es ++ x = L.report fs ++ y) : es = fs ∧ x = y := by
  induction es generalizing fs with
  | nil =>
    cases fs with
    | nil => exact ⟨rfl, h⟩
    | cons f fs =>
      rw [report_cons, List.append_assoc] at h
      exact absurd ⟨_, h⟩ hx
  | cons e es ih =>
    cases fs with
    | nil =>
      rw [report_cons, List.append_assoc] at h
      exact absurd ⟨_, h.symm⟩ hy
    | cons f fs =>
      obtain ⟨u, b⟩ := e
      obtain ⟨v, c⟩ := f
      have hu := hes _ List.mem_cons_self
      have hv := hfs _ List.mem_cons_self
      obtain ⟨rest, eb, _⟩ := L.term_eq b
      obtain ⟨rest', ec, _⟩ := L.term_eq c
      rw [report_cons, report_cons] at h
      simp only [List.append_assoc] at h
      rcases L.label_cases (List.append_cancel_left h) with
        ⟨rfl, rfl, same⟩ | ⟨w, rfl, _⟩ | ⟨w, rfl, _⟩
      · obtain ⟨rfl, rfl⟩ := ih (fun e mem => hes e (List.mem_cons_of_mem _ mem))
          (fun e mem => hfs e (List.mem_cons_of_mem _ mem)) same
        exact ⟨rfl, rfl⟩
      · rw [eb] at hv
        exact absurd (by simp) hv
      · rw [ec] at hu
        exact absurd (by simp) hu

end OxmlMcp.Lines
