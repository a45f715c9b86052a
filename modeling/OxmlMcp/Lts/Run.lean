import Mathlib.Tactic.Common
import Mathlib.Data.List.Infix

/-!
# Runs of a labelled step relation

A concurrent program is given as a relation `Step s a t` between states, labelled by the atomic
action `a` that some party takes. A *run* is a finite sequence of such steps; every interleaving of
the parties is one run, so what holds of every run holds of every interleaving.

`Run Step s tr t` keeps the labels `tr` of the run, oldest first. The trace is the history that the
properties of a run talk about (what was sent, what was answered), so no state has to carry it.

* `Run.trans` / `Run.split`: runs compose and decompose along their traces.
* `Run.invariant`: a state predicate kept by every step holds at the end of a run.
* `Run.invariantTr`: the same for a relation between the trace so far and the state.
* `Run.project`: a run seen on one component of the state is a run of that component.
* `Run.shadow`: a run with only some of its labels, of a system that simulates those.
* `Guarded`: the steps of a relation that meet a condition on the state they start from.
-/

namespace OxmlMcp.Lts

variable {σ τ α β : Type*} {Step Step' : σ → α → σ → Prop}

/-- A finite run of `Step` with the labels of its steps, oldest first. -/
inductive Run (Step : σ → α → σ → Prop) (s : σ) : List α → σ → Prop where
  | refl :
    Run Step s [] s
  | tail {tr t a u} :
    Run Step s tr t →
    Step t a u →
    Run Step s (tr ++ [a]) u

/-- The steps that start from a state meeting the condition `C`. -/
def Guarded (Step : σ → α → σ → Prop) (C : σ → α → Prop) (s : σ) (a : α) (t : σ) : Prop :=
  Step s a t ∧ C s a

/-- A step is a run. -/
lemma Run.single {s a t} (st : Step s a t) : Run Step s [a] t :=
  Run.tail .refl st

/-- A run goes on with a run from where it ends. -/
lemma Run.trans {s t u tr1 tr2} (rn1 : Run Step s tr1 t) (rn2 : Run Step t tr2 u) :
    Run Step s (tr1 ++ tr2) u := by
  induction rn2 with
  | refl => simpa using rn1
  | tail _ st ih =>
    rw [← List.append_assoc]
    exact .tail ih st

/-- A step and a run from where it leads. -/
lemma Run.head {s a t u tr} (st : Step s a t) (rn : Run Step t tr u) :
    Run Step s (a :: tr) u :=
  (Run.single st).trans rn

/-- A run of steps that are steps of another relation is a run of that. -/
lemma Run.mono (sub : ∀ {s a t}, Step s a t → Step' s a t) {s tr t}
    (rn : Run Step s tr t) : Run Step' s tr t := by
  induction rn with
  | refl => exact .refl
  | tail _ st ih => exact .tail ih (sub st)

/-- A run of guarded steps is a run. -/
lemma Run.unguard {C : σ → α → Prop} {s tr t} (rn : Run (Guarded Step C) s tr t) :
    Run Step s tr t :=
  rn.mono And.left

/-- A run of actions that meet the condition in every state is a run of guarded steps. -/
lemma Run.guard {C : σ → α → Prop} {s tr t} (rn : Run Step s tr t)
    (ok : ∀ a ∈ tr, ∀ s, C s a) : Run (Guarded Step C) s tr t := by
  induction rn with
  | refl => exact .refl
  | tail _ st ih =>
    refine .tail (ih fun a mem => ok a (List.mem_append_left _ mem)) ⟨st, ?_⟩
    exact ok _ (List.mem_append_right _ (List.mem_singleton_self _)) _

/-- A run decomposes along any decomposition of its trace. -/
lemma Run.split {s u tr1 tr2} (rn : Run Step s (tr1 ++ tr2) u) :
    ∃ t, Run Step s tr1 t ∧ Run Step t tr2 u := by
  generalize e : tr1 ++ tr2 = tr at rn
  induction rn generalizing tr2 with
  | refl =>
    obtain ⟨rfl, rfl⟩ := List.append_eq_nil_iff.1 e
    exact ⟨s, .refl, .refl⟩
  | @tail tr t a u rn st ih =>
    rcases List.eq_nil_or_concat' tr2 with rfl | ⟨tr2, b, rfl⟩
    · rw [List.append_nil] at e
      subst e
      exact ⟨u, .tail rn st, .refl⟩
    · rw [← List.append_assoc] at e
      obtain ⟨e1, e2⟩ := List.append_inj' e rfl
      obtain ⟨t', rn1, rn2⟩ := ih e1
      cases e2
      exact ⟨t', rn1, .tail rn2 st⟩

/-- A run without steps ends where it starts. -/
lemma Run.nil_inv {s t} (rn : Run Step s [] t) : t = s := by
  generalize e : [] = tr at rn
  cases rn with
  | refl => rfl
  | tail _ _ => simp at e

/-- A run begins with a step of its first label. -/
lemma Run.uncons {s u a tr} (rn : Run Step s (a :: tr) u) :
    ∃ t, Step s a t ∧ Run Step t tr u := by
  generalize e : a :: tr = tr' at rn
  induction rn generalizing tr with
  | refl => cases e
  | @tail tr1 t b u rn st ih =>
    cases tr1 with
    | nil =>
      cases e
      cases rn.nil_inv
      exact ⟨u, st, .refl⟩
    | cons c tr1 =>
      cases e
      obtain ⟨v, first, rest⟩ := ih rfl
      exact ⟨v, first, .tail rest st⟩

/-- A label of a run is that of one of its steps. -/
lemma Run.step_of_mem {s u tr a} (rn : Run Step s tr u) (mem : a ∈ tr) :
    ∃ tr1 tr2 t t', tr = tr1 ++ a :: tr2 ∧
      Run Step s tr1 t ∧ Step t a t' ∧ Run Step t' tr2 u := by
  induction rn with
  | refl => cases mem
  | @tail tr t b u rn st ih =>
    rcases List.mem_append.1 mem with mem | mem
    · obtain ⟨tr1, tr2, t1, t2, rfl, rn1, st1, rn2⟩ := ih mem
      exact ⟨tr1, tr2 ++ [b], t1, t2, by simp, rn1, st1, .tail rn2 st⟩
    · cases List.mem_singleton.1 mem
      exact ⟨tr, [], t, u, rfl, rn, st, .refl⟩

/-- A state predicate kept by every step holds at the end of every run. -/
lemma Run.invariant {P : σ → Prop} {s tr t}
    (rn : Run Step s tr t) (base : P s) (step : ∀ {t a u}, P t → Step t a u → P u) : P t := by
  induction rn with
  | refl => exact base
  | tail _ st ih => exact step ih st

/-- A relation between the trace so far and the state, kept by every step, holds of every run. -/
lemma Run.invariantTr {P : List α → σ → Prop} {s tr t}
    (rn : Run Step s tr t) (base : P [] s)
    (step : ∀ {tr t a u}, P tr t → Step t a u → P (tr ++ [a]) u) : P tr t := by
  induction rn with
  | refl => exact base
  | tail _ st ih => exact step ih st

/-- What an action does to a component of the state: nothing when the component does not see it, and
else a step of the component. -/
def Seen (Step : τ → β → τ → Prop) (u : τ) : Option β → τ → Prop
  | none, v => v = u
  | some b, v => Step u b v

/-- A run of the whole is a run of each component, along the actions that the component sees. -/
lemma Run.project {Comp : τ → β → τ → Prop} {see : α → Option β} (proj : σ → τ)
    (seen : ∀ {s a t}, Step s a t → Seen Comp (proj s) (see a) (proj t)) {s tr t}
    (rn : Run Step s tr t) : Run Comp (proj s) (tr.filterMap see) (proj t) := by
  induction rn with
  | refl => exact .refl
  | @tail tr t a u _ st ih =>
    have sn := seen st
    rw [List.filterMap_append]
    cases e : see a with
    | none =>
      rw [e] at sn
      simpa [e, show proj u = proj t from sn] using ih
    | some b =>
      rw [e] at sn
      simpa [e] using ih.tail sn

/-- A run with only some of its labels. The states of the whole run are known to meet a condition `C`
that holds at its end and, before each step, if it holds after. -/
lemma Run.shadow {Kept : τ → α → τ → Prop} {keep : α → Bool} {C : σ → Prop} {R : σ → τ → Prop}
    {s s' tr} {u : τ} (rn : Run Step s tr s') (start : R s u) (fin : C s')
    (back : ∀ {t a t'}, Step t a t' → C t' → C t)
    (step : ∀ {tr t a t' v}, Run Step s tr t → Step t a t' → C t → C t' → R t v →
      if keep a then ∃ v', Kept v a v' ∧ R t' v' else R t' v) :
    ∃ v, Run Kept u (tr.filter keep) v ∧ R s' v := by
  induction rn with
  | refl => exact ⟨u, .refl, start⟩
  | @tail tr t a t' rn st ih =>
    obtain ⟨v, rnv, rel⟩ := ih (back st fin)
    have next := step rn st (back st fin) fin rel
    rw [List.filter_append]
    cases kept : keep a with
    | true =>
      rw [if_pos kept] at next
      obtain ⟨v', st', rel'⟩ := next
      refine ⟨v', ?_, rel'⟩
      rw [List.filter_cons_of_pos kept]
      exact .tail rnv st'
    | false =>
      rw [if_neg (by simp [kept])] at next
      refine ⟨v, ?_, next⟩
      rw [List.filter_cons_of_neg (by simp [kept]), List.filter_nil, List.append_nil]
      exact rnv

end OxmlMcp.Lts
