import OxmlMcp.Sse.Table

/-!
# Slot accounting

What every run of the bridge does with the slots of the table, in terms of its history (`Slots`):
the cap is kept, a slot is held exactly from the success of `admit` to the drop of the session's own
guard, a lookup after the drop answers `404` for ever, and a refused `GET` touches nothing, `503`
being answered only when the table was full.
-/

namespace OxmlMcp.Sse
open OxmlMcp.Lts OxmlMcp.Http OxmlMcp.Access OxmlMcp.Mpsc

variable {Msg Reply : Type} {srv : Server Msg Reply}

lemma Step.refused_inv {s t : State Msg Reply} {a headers r} {g : Nat} (st : Step srv s a t)
    (h : t.gets[g]? = some ⟨headers, .refused r⟩) :
    s.gets[g]? = some ⟨headers, .refused r⟩ ∨
    (a = .getForbid g ∧ r.1 = .forbidden) ∨
    (a = .getFull g ∧ r.1 = .serviceUnavailable ∧ srv.maxSessions ≤ s.sessions.length) := by
  -- a step that moves a `GET` on without refusing it
  have moved : ∀ {g' y y'}, s.gets[g']? = some y → t.gets = s.gets.set g' y' →
      y'.phase ≠ .refused r → s.gets[g]? = some ⟨headers, .refused r⟩ := by
    intro g' y y' get e ne
    rw [e, getElem?_set_of_some get] at h
    split at h
    · cases h
      exact absurd rfl ne
    · exact h
  cases st with
  | getEnter =>
    left
    rw [getElem?_concat] at h
    split at h
    · cases h
    · exact h
  | getForbid get err =>
    rw [State.setGet_gets, getElem?_set_of_some get] at h
    split at h
    · subst g
      cases h
      exact .inr (.inl ⟨rfl, Guard.check_error err⟩)
    · exact .inl h
  | getFull get _ full =>
    rw [State.setGet_gets, getElem?_set_of_some get] at h
    split at h
    · subst g
      cases h
      unfold admitSession at full
      split at full
      · cases full
        exact .inr (.inr ⟨rfl, rfl, ‹_›⟩)
      · cases full
    · exact .inl h
  | getOpen get _ _ => exact .inl (moved get rfl nofun)
  | getAdmit get _ _ => exact .inl (moved get rfl nofun)
  | session get _ => exact .inl (moved get rfl nofun)
  | dropGuard get _ => exact .inl (moved get rfl nofun)
  | send _ get _ => exact .inl (moved get rfl nofun)
  | postEnter => exact .inl h
  | post _ _ => exact .inl h

/-- A refused `GET` was refused by its guard, or by the cap at a moment when the table was full. -/
lemma refused_run {s : State Msg Reply} {tr headers r} {g : Nat}
    (rn : Run (Step srv) init tr s) (h : s.gets[g]? = some ⟨headers, .refused r⟩) :
    r.1 = .forbidden ∨
    r.1 = .serviceUnavailable ∧ ∃ tr1 tr2 t u, tr = tr1 ++ .getFull g :: tr2 ∧
      Run (Step srv) init tr1 t ∧ Step srv t (.getFull g) u ∧ Run (Step srv) u tr2 s ∧
      srv.maxSessions ≤ t.sessions.length := by
  induction rn with
  | refl => cases h
  | @tail tr s a t rn st ih =>
    rcases st.refused_inv h with h | ⟨rfl, e⟩ | ⟨rfl, e, full⟩
    · rcases ih h with e | ⟨e, tr1, tr2, t', u', rfl, rn1, st', rn2, full⟩
      · exact .inl e
      · exact .inr ⟨e, tr1, tr2 ++ [a], t', u', by simp, rn1, st', .tail rn2 st, full⟩
    · exact .inl e
    · exact .inr ⟨e, tr, [], s, t, rfl, rn, st, .refl, full⟩

lemma refused_frame {s t u : State Msg Reply} {tr1 a tr2 headers r} {g : Nat}
    (rn1 : Run (Step srv) init tr1 t) (st : Step srv t a u) (rn2 : Run (Step srv) u tr2 s)
    (h : s.gets[g]? = some ⟨headers, .refused r⟩) (about : Act.get a = some g) :
    u.sessions = t.sessions := by
  have rn : Run (Step srv) init (tr1 ++ a :: tr2) s := rn1.trans (.head st rn2)
  have gone : s.session g = none := State.session_of_get h
  rcases st.sessions_inv with ⟨_, _, e⟩ | ⟨g', x, rfl, _⟩ | ⟨g', x, rfl, _⟩
  · exact e
  · cases about
    obtain ⟨x, h', _⟩ := (admitted_iff (g := g) rn).2 (by simp)
    cases gone.symm.trans h'
  · cases about
    obtain ⟨x, h', _⟩ := (closed_iff (g := g) rn).2 (by simp)
    cases gone.symm.trans h'

lemma SessionStep.lift {s : State Msg Reply} {g x a x'} (h : s.session g = some x)
    (st : SessionStep srv x a x') :
    ∃ t, Step srv s (.session g a) t ∧ t.session g = some x' := by
  obtain ⟨headers, get⟩ := State.get_of_session h
  refine ⟨_, .session get st, ?_⟩
  rw [State.session_set get rfl, if_pos rfl, Get.session_opened]

/-- A slot can always be given back: the handler hands it to the stream's guard, and the drop of the
stream drops the guard. -/
lemma slot_returns {s : State Msg Reply} {g x} (h : s.session g = some x)
    (listed : x.stage.Listed) :
    ∃ tr t, Run (Step srv) s tr t ∧ .dropGuard g ∈ tr := by
  -- from the last stage back to the first
  have hungUp : ∀ {s : State Msg Reply} {x}, s.session g = some x → x.stage = .hungUp →
      ∃ tr t, Run (Step srv) s tr t ∧ .dropGuard g ∈ tr := by
    intro s x h stage
    obtain ⟨headers, get⟩ := State.get_of_session h
    exact ⟨_, _, .single (.dropGuard get stage), by simp⟩
  have onward : ∀ {s : State Msg Reply} {x a x'}, s.session g = some x → SessionStep srv x a x' →
      (∀ {t : State Msg Reply}, t.session g = some x' →
        ∃ tr u, Run (Step srv) t tr u ∧ .dropGuard g ∈ tr) →
      ∃ tr t, Run (Step srv) s tr t ∧ .dropGuard g ∈ tr := by
    intro s x a x' h st next
    obtain ⟨t, st', h'⟩ := st.lift h
    obtain ⟨tr, u, rn, mem⟩ := next h'
    exact ⟨_, u, .head st' rn, .tail _ mem⟩
  have streaming : ∀ {s : State Msg Reply} {x}, s.session g = some x →
      x.stage = .streaming ∨ x.stage = .failed →
      ∃ tr t, Run (Step srv) s tr t ∧ .dropGuard g ∈ tr := by
    intro s x h stage
    exact onward h (.hangUp stage) fun h' => hungUp h' rfl
  have spawned : ∀ {s : State Msg Reply} {x}, s.session g = some x → x.stage = .spawned →
      ∃ tr t, Run (Step srv) s tr t ∧ .dropGuard g ∈ tr := by
    intro s x h stage
    exact onward h (.respond stage) fun h' => streaming h' (.inl rfl)
  cases stage : x.stage with
  | opening => exact (stage ▸ listed).elim
  | admitted => exact onward h (.spawn stage) fun h' => spawned h' rfl
  | spawned => exact spawned h stage
  | streaming => exact streaming h (.inl stage)
  | failed => exact streaming h (.inr stage)
  | hungUp => exact hungUp h stage
  | closed => exact (stage ▸ listed).elim

/-- The accounting of slots at the end `s` of a run with history `tr`. -/
structure Slots (srv : Server Msg Reply) (tr : List (Act Msg Reply)) (s : State Msg Reply) :
    Prop where
  /-- The table holds at most `max_sessions` entries, -/
  cap : s.sessions.length ≤ srv.maxSessions
  /-- one for an id. -/
  keys : (s.sessions.map Prod.fst).Nodup
  /-- An id is in the table exactly from the success of its `admit` to the drop of its guard. -/
  held : ∀ id g, (id, g) ∈ s.sessions ↔
    (∃ x, s.session g = some x ∧ x.id = id) ∧ .getAdmit g ∈ tr ∧ .dropGuard g ∉ tr
  /-- Every slot can be given back. -/
  returns : ∀ id g, (id, g) ∈ s.sessions → ∃ tr' t, Run (Step srv) s tr' t ∧ .dropGuard g ∈ tr'
  /-- The drop of a guard removes its own session's entry and no other. -/
  frame : ∀ g t, Step srv s (.dropGuard g) t →
    ∀ e, e ∈ t.sessions ↔ e ∈ s.sessions ∧ e.2 ≠ g
  /-- A `POST` past its checks that looks up an id whose guard was dropped is answered `404`. -/
  notFound : ∀ g x, .dropGuard g ∈ tr → s.session g = some x →
    ∀ p req m a phase, req.sessionId = x.id →
      (PostStep srv s p ⟨req, .parsed m⟩ a phase ↔
        a = .miss ∧ phase = .answered (.notFound, "no such session"))
  /-- A refused `GET` was refused with `403` or `503`, none of its steps touched the table, and with
  `503` only when the table was full at the check. -/
  refused : ∀ (g : Nat) headers r, s.gets[g]? = some ⟨headers, .refused r⟩ →
    (r.1 = .forbidden ∨ r.1 = .serviceUnavailable) ∧
    (∀ tr1 a tr2 t u, tr = tr1 ++ a :: tr2 → Run (Step srv) init tr1 t → Step srv t a u →
      Run (Step srv) u tr2 s → Act.get a = some g → u.sessions = t.sessions) ∧
    (r.1 = .serviceUnavailable → ∃ tr1 tr2 t u, tr = tr1 ++ .getFull g :: tr2 ∧
      Run (Step srv) init tr1 t ∧ Step srv t (.getFull g) u ∧ Run (Step srv) u tr2 s ∧
      srv.maxSessions ≤ t.sessions.length)

/-- The slots are accounted for in every reachable state. -/
theorem slots {tr} {s : State Msg Reply} (rn : Run (Step srv) init tr s) : Slots srv tr s where
  cap := (run_tableOk rn).cap
  keys := (run_tableOk rn).keys
  held _ _ := mem_sessions_iff rn
  returns id g mem := by
    obtain ⟨x, h, _, listed⟩ := ((run_tableOk rn).mem_iff id g).1 mem
    exact slot_returns h listed
  frame _ _ st := st.dropGuard_frame rn
  notFound g x drop h p req m a phase e := by
    have gone : s.sessions.get req.sessionId = none := e ▸ get_after_drop rn drop h
    constructor
    · intro st
      cases st with
      | miss _ => exact ⟨rfl, rfl⟩
      | hit found => cases gone.symm.trans found
    · rintro ⟨rfl, rfl⟩
      exact .miss gone
  refused g headers r h := by
    refine ⟨?_, ?_, ?_⟩
    · rcases refused_run rn h with e | ⟨e, _⟩
      · exact .inl e
      · exact .inr e
    · intro tr1 a tr2 t u _ rn1 st rn2 about
      exact refused_frame rn1 st rn2 h about
    · intro e
      rcases refused_run rn h with e' | ⟨_, full⟩
      · cases e.symm.trans e'
      · exact full

/-- Two clients of a server with one slot: the second is refused. -/
theorem slots_two_clients :
    ∃ s, Run (Step Server.sample) init
      [.getEnter localHeaders, .getEnter localHeaders, .getOpen 0 "a", .getOpen 1 "b",
        .getAdmit 1, .getFull 0] s ∧ Slots Server.sample
      [.getEnter localHeaders, .getEnter localHeaders, .getOpen 0 "a", .getOpen 1 "b",
        .getAdmit 1, .getFull 0] s := by
  have fresh0 : ∀ {s : State String String}, (∀ g, s.session g = none) → ∀ id, s.Fresh id := by
    intro s none' id g x h
    simp [none' g] at h
  have rn : ∃ s, Run (Step Server.sample) init
      [.getEnter localHeaders, .getEnter localHeaders, .getOpen 0 "a", .getOpen 1 "b",
        .getAdmit 1, .getFull 0] s := by
    refine ⟨_, .head .getEnter <| .head .getEnter <| .head (.getOpen rfl rfl ?_) <|
      .head (.getOpen rfl rfl ?_) <| .head (.getAdmit rfl rfl rfl) <|
      .head (.getFull rfl rfl rfl) .refl⟩
    · apply fresh0
      intro g
      rcases g with _ | _ | g <;> rfl
    · intro g x h
      rcases g with _ | _ | g
      · cases h
        decide
      · cases h
      · cases h
  obtain ⟨s, rn⟩ := rn
  exact ⟨s, rn, slots rn⟩

end OxmlMcp.Sse
