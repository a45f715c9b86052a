import OxmlMcp.Sse.Inversion

/-!
# The table of live sessions

`TableOk` ties the table to the sessions: an entry for each session whose slot is taken and not yet
given back (`Stage.Listed`), ids used once, and no more entries than the cap. Every step keeps it
(`Step.tableOk`), since the cap is checked and the entry inserted under one lock and ids are fresh.

`mem_sessions_iff` reads the table off the history of the run: an id is in it exactly from the
success of its `admit` to the drop of its own stream's guard.
-/

namespace OxmlMcp.Sse
open OxmlMcp.Lts OxmlMcp.Http OxmlMcp.Access OxmlMcp.Mpsc

variable {Msg Reply : Type} {srv : Server Msg Reply}

@[simp] lemma Sessions.mem_remove {t : Sessions} {id e} :
    e ∈ t.remove id ↔ e ∈ t ∧ e.1 ≠ id := by
  simp [Sessions.remove]

@[simp] lemma Sessions.mem_insert {t : Sessions} {id g e} :
    e ∈ t.insert id g ↔ e = (id, g) ∨ e ∈ t ∧ e.1 ≠ id := by
  simp [Sessions.insert]

/-- Removing an id leaves each id once, -/
lemma Sessions.nodup_remove {t : Sessions} (id : String) (nd : (t.map Prod.fst).Nodup) :
    ((t.remove id).map Prod.fst).Nodup :=
  nd.sublist (List.filter_sublist.map _)

/-- and so does inserting one. -/
lemma Sessions.nodup_insert {t : Sessions} {id g} (nd : (t.map Prod.fst).Nodup) :
    ((t.insert id g).map Prod.fst).Nodup := by
  refine List.nodup_cons.2 ⟨?_, Sessions.nodup_remove id nd⟩
  intro mem
  obtain ⟨e, mem, rfl⟩ := List.mem_map.1 mem
  exact (Sessions.mem_remove.1 mem).2 rfl

/-- What is found is in the table, -/
lemma Sessions.mem_of_get {t : Sessions} {id g} (h : t.get id = some g) : (id, g) ∈ t := by
  obtain ⟨⟨id', g'⟩, find, e⟩ := Option.map_eq_some_iff.1 h
  have key : id' = id := by simpa using List.find?_some find
  have mem := List.mem_of_find?_eq_some find
  cases e
  rwa [key] at mem

/-- and an id that is not found has no entry. -/
lemma Sessions.get_eq_none {t : Sessions} {id} : t.get id = none ↔ ∀ g, (id, g) ∉ t := by
  simp only [Sessions.get, Option.map_eq_none_iff, List.find?_eq_none, beq_iff_eq]
  constructor
  · intro h g mem
    exact h _ mem rfl
  · rintro h ⟨id', g⟩ mem rfl
    exact h g mem

/-- The table lists the sessions that hold a slot, each once, and no more than the cap. -/
structure TableOk (srv : Server Msg Reply) (s : State Msg Reply) : Prop where
  keys : (s.sessions.map Prod.fst).Nodup
  mem_iff : ∀ id g, (id, g) ∈ s.sessions ↔ ∃ x, s.session g = some x ∧ x.id = id ∧ x.stage.Listed
  ids : ∀ g g' x x', s.session g = some x → s.session g' = some x' → x.id = x'.id → g = g'
  cap : s.sessions.length ≤ srv.maxSessions

/-- A session's own steps neither take its slot nor give it back. -/
lemma SessionStep.listed_iff {x : Session Msg Reply} {a x'} (st : SessionStep srv x a x') :
    x'.stage.Listed ↔ x.stage.Listed := by
  cases st with
  | spawn stage => simp [stage, Stage.Listed]
  | respond stage => simp [stage, Stage.Listed]
  | fail stage _ _ _ => simp [stage, Stage.Listed]
  | hangUp stage => rcases stage with stage | stage <;> simp [stage, Stage.Listed]
  | _ => rfl

/-- Only `getAdmit` takes a session's slot, and only the drop of its guard gives it back. -/
lemma Change.listed_iff {g x a x'} (ch : Change srv g x a x')
    (take : a ≠ .getAdmit g) (give : a ≠ .dropGuard g) :
    x'.stage.Listed ↔ x.stage.Listed := by
  cases ch with
  | getAdmit _ => exact absurd rfl take
  | dropGuard _ => exact absurd rfl give
  | own st => exact st.listed_iff
  | _ => rfl

/-- Different sessions go on having different ids. -/
lemma Step.ids {s t : State Msg Reply} {a} (st : Step srv s a t) (ok : TableOk srv s) :
    ∀ g g' x x', t.session g = some x → t.session g' = some x' → x.id = x'.id → g = g' := by
  intro g g' x x' h h' e
  rcases st.session_inv h with ⟨_, id, rfl, rfl, fresh, _⟩ | ⟨x0, h0, ch⟩
  · rcases st.session_inv h' with ⟨_, _, e', _⟩ | ⟨x0', h0', ch'⟩
    · cases e'
      rfl
    · rw [ch'.id_eq] at e
      exact absurd e.symm (fresh _ _ h0')
  · rcases st.session_inv h' with ⟨_, id, rfl, rfl, fresh, _⟩ | ⟨x0', h0', ch'⟩
    · rw [ch.id_eq] at e
      exact absurd e (fresh _ _ h0)
    · rw [ch.id_eq, ch'.id_eq] at e
      exact ok.ids _ _ _ _ h0 h0' e

/-- A session holds its slot after a step that neither takes nor gives back that slot exactly if it
held it before. -/
lemma Step.listed_iff {s t : State Msg Reply} {a g id} (st : Step srv s a t)
    (take : a ≠ .getAdmit g) (give : a ≠ .dropGuard g) :
    (∃ x, t.session g = some x ∧ x.id = id ∧ x.stage.Listed) ↔
      ∃ x, s.session g = some x ∧ x.id = id ∧ x.stage.Listed := by
  constructor
  · rintro ⟨x', h, e, listed⟩
    rcases st.session_inv h with ⟨_, _, _, rfl, _⟩ | ⟨x, h, ch⟩
    · exact listed.elim
    · exact ⟨x, h, ch.id_eq ▸ e, (ch.listed_iff take give).1 listed⟩
  · rintro ⟨x, h, e, listed⟩
    rcases st.session_fwd h with ⟨x', h', ch⟩ | ⟨_, stage, _⟩
    · exact ⟨x', h', ch.id_eq.trans e, (ch.listed_iff take give).2 listed⟩
    · rw [stage] at listed
      exact listed.elim

/-- Every step keeps the table in order, -/
lemma Step.tableOk {s t : State Msg Reply} {a} (st : Step srv s a t) (ok : TableOk srv s) :
    TableOk srv t := by
  have ids := st.ids ok
  rcases st.sessions_inv with ⟨take, give, e⟩ | ⟨g0, x0, rfl, h0, stage, h0', adm⟩ |
      ⟨g0, x0, rfl, h0, stage, h0', e⟩
  · refine ⟨e ▸ ok.keys, fun id g => ?_, ids, e ▸ ok.cap⟩
    rw [e, st.listed_iff (take g) (give g)]
    exact ok.mem_iff id g
  · unfold admitSession at adm
    split at adm
    · cases adm
    · have e : t.sessions = s.sessions.insert x0.id g0 := (Except.ok.inj adm).symm
      refine ⟨e ▸ Sessions.nodup_insert ok.keys, fun id g => ?_, ids, ?_⟩
      · rw [e, Sessions.mem_insert, ok.mem_iff]
        by_cases eg : g = g0
        · subst g
          simp [h0, h0', stage, Stage.Listed, eq_comm]
        · rw [st.listed_iff (by simpa [eq_comm] using eg) nofun]
          constructor
          · rintro (e | ⟨h, _⟩)
            · cases e
              exact absurd rfl eg
            · exact h
          · rintro ⟨x, h, rfl, listed⟩
            refine .inr ⟨⟨x, h, rfl, listed⟩, fun e => eg ?_⟩
            exact ok.ids _ _ _ _ h h0 e
      · have le := List.length_filter_le (fun e : String × Nat => e.1 != x0.id) s.sessions
        simp only [e, Sessions.insert, List.length_cons]
        omega
  · refine ⟨e ▸ Sessions.nodup_remove _ ok.keys, fun id g => ?_, ids, ?_⟩
    · rw [e, Sessions.mem_remove, ok.mem_iff]
      by_cases eg : g = g0
      · subst g
        simp only [h0, h0', Option.some.injEq, exists_eq_left', stage, Stage.Listed]
        simp [eq_comm]
      · rw [st.listed_iff nofun (by simpa [eq_comm] using eg)]
        constructor
        · exact And.left
        · rintro ⟨x, h, rfl, listed⟩
          refine ⟨⟨x, h, rfl, listed⟩, fun e => eg ?_⟩
          exact ok.ids _ _ _ _ h h0 e
    · rw [e]
      exact (List.length_filter_le _ _).trans ok.cap

/-- and so does every run. -/
lemma run_tableOk {s : State Msg Reply} {tr} (rn : Run (Step srv) init tr s) : TableOk srv s := by
  apply rn.invariant (P := TableOk srv)
  · refine ⟨List.nodup_nil, fun id g => ?_, fun _ _ _ _ h => ?_, Nat.zero_le _⟩
    · simp [init, State.session]
    · simp [init, State.session] at h
  · intro t a u ok st
    exact st.tableOk ok

/-- A stage that a session reaches by one action `b`, and by no other way, is reached exactly when
`b` was taken. -/
lemma stage_trace {P : Stage → Prop} {g} {b : Act Msg Reply} (base : ¬ P .opening)
    (only : ∀ {s t : State Msg Reply}, Step srv s b t → ∃ x, t.session g = some x ∧ P x.stage)
    (keep : ∀ {x a x'}, Change srv g x a x' → P x.stage → P x'.stage)
    (enter : ∀ {x a x'}, Change srv g x a x' → P x'.stage → P x.stage ∨ a = b)
    {tr} {s : State Msg Reply} (rn : Run (Step srv) init tr s) :
    (∃ x, s.session g = some x ∧ P x.stage) ↔ b ∈ tr := by
  induction rn with
  | refl => simp [init, State.session]
  | @tail tr s a t rn st ih =>
    rw [List.mem_append, List.mem_singleton, ← ih]
    constructor
    · rintro ⟨x', h, px⟩
      rcases st.session_inv h with ⟨_, _, _, rfl, _⟩ | ⟨x, h, ch⟩
      · exact absurd px base
      · rcases enter ch px with px | rfl
        · exact .inl ⟨x, h, px⟩
        · exact .inr rfl
    · rintro (⟨x, h, px⟩ | rfl)
      · rcases st.session_fwd h with ⟨x', h', ch⟩ | ⟨_, stage, _⟩
        · exact ⟨x', h', keep ch px⟩
        · exact absurd (stage ▸ px) base
      · exact only st

/-- A session's own steps leave it past `opening` and before `closed`. -/
lemma SessionStep.stage_iff {x : Session Msg Reply} {a x'} (st : SessionStep srv x a x') :
    (x'.stage = .opening ↔ x.stage = .opening) ∧ (x'.stage = .closed ↔ x.stage = .closed) := by
  cases st with
  | spawn stage => simp [stage]
  | respond stage => simp [stage]
  | fail stage _ _ _ => simp [stage]
  | hangUp stage => rcases stage with stage | stage <;> simp [stage]
  | _ => exact ⟨Iff.rfl, Iff.rfl⟩

/-- A session is past `opening` exactly when the table took it in. -/
lemma admitted_iff {tr g} {s : State Msg Reply} (rn : Run (Step srv) init tr s) :
    (∃ x, s.session g = some x ∧ x.stage ≠ .opening) ↔ .getAdmit g ∈ tr := by
  refine stage_trace (P := (· ≠ .opening)) (fun h => h rfl) ?_ ?_ ?_ rn
  · intro s t st
    rcases st.sessions_inv with ⟨take, _⟩ | ⟨g', x, e, _, _, h, _⟩ | ⟨_, _, e, _⟩
    · exact absurd rfl (take g)
    · cases e
      exact ⟨_, h, nofun⟩
    · cases e
  · intro x a x' ch px
    cases ch with
    | own st => exact fun h => px (st.stage_iff.1.1 h)
    | getAdmit _ => nofun
    | dropGuard _ => nofun
    | send _ => exact px
    | other _ => exact px
  · intro x a x' ch px
    cases ch with
    | own st => exact .inl fun h => px (st.stage_iff.1.2 h)
    | getAdmit _ => exact .inr rfl
    | dropGuard stage => exact .inl (by simp [stage])
    | send _ => exact .inl px
    | other _ => exact .inl px

/-- A session is closed exactly when its guard was dropped. -/
lemma closed_iff {tr g} {s : State Msg Reply} (rn : Run (Step srv) init tr s) :
    (∃ x, s.session g = some x ∧ x.stage = .closed) ↔ .dropGuard g ∈ tr := by
  refine stage_trace (P := (· = .closed)) nofun ?_ ?_ ?_ rn
  · intro s t st
    rcases st.sessions_inv with ⟨_, give, _⟩ | ⟨_, _, e, _⟩ | ⟨g', x, e, _, _, h, _⟩
    · exact absurd rfl (give g)
    · cases e
    · cases e
      exact ⟨_, h, rfl⟩
  · intro x a x' ch px
    cases ch with
    | own st => exact st.stage_iff.2.2 px
    | getAdmit stage => simp [stage] at px
    | dropGuard _ => rfl
    | send _ => exact px
    | other _ => exact px
  · intro x a x' ch px
    cases ch with
    | own st => exact .inl (st.stage_iff.2.1 px)
    | getAdmit _ => cases px
    | dropGuard _ => exact .inr rfl
    | send _ => exact .inl px
    | other _ => exact .inl px

/-- An id is in the table exactly from the success of its `admit` to the drop of its own guard. -/
lemma mem_sessions_iff {tr id g} {s : State Msg Reply} (rn : Run (Step srv) init tr s) :
    (id, g) ∈ s.sessions ↔
      (∃ x, s.session g = some x ∧ x.id = id) ∧ .getAdmit g ∈ tr ∧ .dropGuard g ∉ tr := by
  rw [(run_tableOk rn).mem_iff, ← admitted_iff rn, ← closed_iff rn]
  constructor
  · rintro ⟨x, h, e, listed⟩
    refine ⟨⟨x, h, e⟩, ⟨x, h, fun stage => ?_⟩, ?_⟩
    · simp [stage, Stage.Listed] at listed
    · rintro ⟨x', h', stage⟩
      cases h.symm.trans h'
      simp [stage, Stage.Listed] at listed
  · rintro ⟨⟨x, h, e⟩, ⟨x', h', stage⟩, live⟩
    cases h.symm.trans h'
    have live : x.stage ≠ .closed := fun stage => live ⟨x, h, stage⟩
    refine ⟨x, h, e, ?_⟩
    cases es : x.stage <;> simp_all [Stage.Listed]

/-- The drop of a guard removes its own session's entry and no other. -/
lemma Step.dropGuard_frame {s t : State Msg Reply} {tr g} (rn : Run (Step srv) init tr s)
    (st : Step srv s (.dropGuard g) t) (e : String × Nat) :
    e ∈ t.sessions ↔ e ∈ s.sessions ∧ e.2 ≠ g := by
  have ok := run_tableOk rn
  rcases st.sessions_inv with ⟨_, give, _⟩ | ⟨_, _, e, _⟩ | ⟨g', x, eg, h, _, _, es⟩
  · exact absurd rfl (give g)
  · cases e
  · cases eg
    obtain ⟨id, g'⟩ := e
    rw [es, Sessions.mem_remove]
    constructor
    · rintro ⟨mem, ne⟩
      refine ⟨mem, ?_⟩
      rintro rfl
      obtain ⟨x', h', rfl, _⟩ := (ok.mem_iff _ _).1 mem
      cases h.symm.trans h'
      exact ne rfl
    · rintro ⟨mem, ne⟩
      refine ⟨mem, ?_⟩
      rintro rfl
      obtain ⟨x', h', e, _⟩ := (ok.mem_iff _ _).1 mem
      exact ne (ok.ids _ _ _ _ h' h e)

/-- After the drop of its guard a session is never found in the table. -/
lemma get_after_drop {tr g x} {s : State Msg Reply} (rn : Run (Step srv) init tr s)
    (drop : .dropGuard g ∈ tr) (h : s.session g = some x) : s.sessions.get x.id = none := by
  rw [Sessions.get_eq_none]
  intro g' mem
  obtain ⟨⟨x', h', e⟩, _, live⟩ := (mem_sessions_iff rn).1 mem
  rw [(run_tableOk rn).ids _ _ _ _ h' h e] at live
  exact live drop

end OxmlMcp.Sse
