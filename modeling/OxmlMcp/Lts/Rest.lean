import OxmlMcp.Lts.Run

/-!
# Coming to rest

Where every step lowers a measure, a system comes to rest whatever the order of its steps: no run is
longer than the measure it starts with, and every run can be run on to a state that no step leaves.

* `Run.length_le`: the bound on the length of runs.
* `exists_stuck`: a run to a stuck state.
-/

namespace OxmlMcp.Lts

variable {σ α : Type*} {Step : σ → α → σ → Prop} {μ : σ → Nat}

/-- No step leaves it. -/
def Stuck (Step : σ → α → σ → Prop) (s : σ) : Prop :=
  ∀ a t, ¬ Step s a t

/-- A run is no longer than the measure falls. -/
lemma Run.length_le (less : ∀ s a t, Step s a t → μ t < μ s) {s tr t} (rn : Run Step s tr t) :
    tr.length + μ t ≤ μ s := by
  induction rn with
  | refl => simp
  | tail _ st ih =>
    have := less _ _ _ st
    rw [List.length_append, List.length_singleton]
    omega

/-- From every state some run leads to a stuck one. -/
lemma exists_stuck (less : ∀ s a t, Step s a t → μ t < μ s) (s : σ) :
    ∃ tr t, Run Step s tr t ∧ Stuck Step t := by
  -- by strong induction on the measure
  generalize e : μ s = n
  induction n using Nat.strongRecOn generalizing s with
  | ind n ih =>
    by_cases stuck : Stuck Step s
    · exact ⟨[], s, .refl, stuck⟩
    · simp only [Stuck, not_forall, not_not] at stuck
      obtain ⟨a, t, st⟩ := stuck
      obtain ⟨tr, u, rn, stuck⟩ := ih (μ t) (e ▸ less s a t st) t rfl
      exact ⟨a :: tr, u, .head st rn, stuck⟩

end OxmlMcp.Lts
