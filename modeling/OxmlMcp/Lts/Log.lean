import OxmlMcp.Lts.Run

/-!
# Logs of runs

A log beside a run: what its steps tell, for those that tell something, in the order of the steps. The
state of the system does not carry it and no step reads it.

* `Run.log`: every run has a log.
* `Run.log_split`: what is logged of a part of a run is a part of the log.
* `Run.log_refines`: if each step does to what the state shows what it tells, and nothing where it
  tells nothing, then the log is a run of what is shown.
-/

namespace OxmlMcp.Lts

variable {σ τ α β γ : Type*} {Step : σ → α → σ → Prop} {tells : σ → α → Option β}

/-- A step, and what it tells put at the end of the log. -/
def Logged (Step : σ → α → σ → Prop) (tells : σ → α → Option β) (p : σ × List β) (a : α)
    (q : σ × List β) : Prop :=
  Step p.1 a q.1 ∧ q.2 = p.2 ++ (tells p.1 a).toList

/-- A step that tells nothing leaves the log as it is. -/
lemma Logged.quiet {s a t} {h : List β} (st : Step s a t) (none' : tells s a = none) :
    Logged Step tells (s, h) a (t, h) :=
  ⟨st, by simp [none']⟩

/-- What a step tells is the last of the log. -/
lemma Logged.told {s a t b} {h : List β} (st : Step s a t) (some' : tells s a = some b) :
    Logged Step tells (s, h) a (t, h ++ [b]) :=
  ⟨st, by simp [some']⟩

/-- Every run has a log. -/
lemma Run.log {s tr t} (rn : Run Step s tr t) (h : List β) :
    ∃ h', Run (Logged Step tells) (s, h) tr (t, h') := by
  induction rn with
  | refl => exact ⟨h, .refl⟩
  | tail _ st ih =>
    obtain ⟨h', rn⟩ := ih
    exact ⟨_, .tail rn ⟨st, rfl⟩⟩

/-- A log only grows. -/
lemma Run.log_prefix {p q : σ × List β} {tr} (rn : Run (Logged Step tells) p tr q) :
    p.2 <+: q.2 := by
  induction rn with
  | refl => exact List.prefix_rfl
  | tail _ st ih =>
    rw [st.2]
    exact ih.trans (List.prefix_append _ _)

/-- What is logged of a part of a run is a part of the log. -/
lemma Run.log_split {s u h} {tr1 tr2 : List α}
    (rn : Run (Logged Step tells) (s, []) (tr1 ++ tr2) (u, h)) :
    ∃ t h1 h2, Run (Logged Step tells) (s, []) tr1 (t, h1) ∧ h = h1 ++ h2 := by
  obtain ⟨⟨t, h1⟩, rn1, rn2⟩ := rn.split
  obtain ⟨h2, e⟩ := rn2.log_prefix
  exact ⟨t, h1, h2, rn1, e.symm⟩

/-- If each step does to what the state shows what it tells, and nothing where it tells nothing, then
the log, as it is read, is a run of what is shown. -/
lemma Run.log_refines {R : τ → γ → τ → Prop} {I : σ → Prop} (proj : σ → τ) (read : β → γ)
    (keep : ∀ {s a t}, I s → Step s a t → I t)
    (seen : ∀ {s a t}, I s → Step s a t →
      Seen R (proj s) ((tells s a).map read) (proj t))
    {s tr t h} (inv : I s) (rn : Run (Logged Step tells) (s, []) tr (t, h)) :
    I t ∧ Run R (proj s) (h.map read) (proj t) := by
  generalize e : (t, h) = q at rn
  induction rn generalizing t h with
  | refl =>
    cases e
    exact ⟨inv, .refl⟩
  | @tail tr p a q rn st ih =>
    cases e
    obtain ⟨st, e⟩ := st
    obtain ⟨inv', rn'⟩ := ih (t := p.1) (h := p.2) rfl
    refine ⟨keep inv' st, ?_⟩
    have sn := seen inv' st
    simp only at e
    rw [e, List.map_append]
    cases e' : tells p.1 a with
    | none =>
      rw [e'] at sn
      have same : proj t = proj p.1 := sn
      rw [same]
      simpa using rn'
    | some b =>
      rw [e'] at sn
      simpa using rn'.tail sn

end OxmlMcp.Lts
