import OxmlMcp.Lts.Parties
import OxmlMcp.Sse.Step

/-!
# Inversion of the bridge's steps

What one step can do, said once from each point of view:

* `Step.session_inv`: to the session of `GET` number `g`. It is opened, or it changes as `Change`
  lists, or it stays as it is and the action is not about it.
* `Step.post_inv`: to `POST` number `p`.
* `Step.sessions_inv`: to the table.

From the first follows `session_run`: what a run does to one session is a run of `Change` from the
session as it was set up, whatever the rest of the server does. Properties of one session's channels
and stream are proved on `Change` and read off the whole server through it.
-/

namespace OxmlMcp.Sse
open OxmlMcp.Lts OxmlMcp.Http OxmlMcp.Access OxmlMcp.Mpsc

variable {Msg Reply : Type} {srv : Server Msg Reply}

@[simp] lemma Get.session_entered (headers : HeaderMap) :
    (⟨headers, .entered⟩ : Get Msg Reply).session = none := rfl
@[simp] lemma Get.session_refused (headers : HeaderMap) (r : Refusal) :
    (⟨headers, .refused r⟩ : Get Msg Reply).session = none := rfl
@[simp] lemma Get.session_opened (headers : HeaderMap) (x : Session Msg Reply) :
    (⟨headers, .opened x⟩ : Get Msg Reply).session = some x := rfl

@[simp] lemma State.setGet_sessions (s : State Msg Reply) (g : Nat) (y : Get Msg Reply) :
    (s.setGet g y).sessions = s.sessions := rfl
@[simp] lemma State.setGet_posts (s : State Msg Reply) (g : Nat) (y : Get Msg Reply) :
    (s.setGet g y).posts = s.posts := rfl
@[simp] lemma State.setGet_gets (s : State Msg Reply) (g : Nat) (y : Get Msg Reply) :
    (s.setGet g y).gets = s.gets.set g y := rfl
@[simp] lemma State.setPost_sessions (s : State Msg Reply) (p : Nat) (q : Post Msg) :
    (s.setPost p q).sessions = s.sessions := rfl
@[simp] lemma State.setPost_gets (s : State Msg Reply) (p : Nat) (q : Post Msg) :
    (s.setPost p q).gets = s.gets := rfl
@[simp] lemma State.setPost_posts (s : State Msg Reply) (p : Nat) (q : Post Msg) :
    (s.setPost p q).posts = s.posts.set p q := rfl

/-- The session of a `GET`, -/
lemma State.session_of_get {s : State Msg Reply} {g : Nat} {y : Get Msg Reply}
    (h : s.gets[g]? = some y) : s.session g = y.session := by
  simp [State.session, h]

/-- and the `GET` of a session. -/
lemma State.get_of_session {s : State Msg Reply} {g : Nat} {x : Session Msg Reply}
    (h : s.session g = some x) : ∃ headers, s.gets[g]? = some ⟨headers, .opened x⟩ := by
  unfold State.session at h
  obtain ⟨⟨headers, phase⟩, get, h⟩ := Option.bind_eq_some_iff.1 h
  cases phase with
  | opened x' =>
    cases h
    exact ⟨headers, get⟩
  | entered => cases h
  | refused r => cases h

/-- Where one `GET` goes on, the sessions of the others stay. -/
lemma State.session_set {s t : State Msg Reply} {g : Nat} {y y' : Get Msg Reply}
    (h : s.gets[g]? = some y) (e : t.gets = s.gets.set g y') (g' : Nat) :
    t.session g' = if g' = g then y'.session else s.session g' := by
  unfold State.session
  rw [e, getElem?_set_of_some h]
  split <;> rfl

/-- The number of the `GET` an action is about. -/
def Act.get : Act Msg Reply → Option Nat
  | .getForbid g => some g
  | .getOpen g _ => some g
  | .getFull g => some g
  | .getAdmit g => some g
  | .session g _ => some g
  | .dropGuard g => some g
  | .send _ g _ => some g
  | .getEnter _ => none
  | .postEnter _ => none
  | .post _ _ => none

/-- The number of the `POST` that takes an action. -/
def Act.poster : Act Msg Reply → Option Nat
  | .post p _ => some p
  | .send p _ _ => some p
  | _ => none

/-- How the session of `GET` number `g` changes with an action. -/
inductive Change (srv : Server Msg Reply) (g : Nat) :
    Session Msg Reply → Act Msg Reply → Session Msg Reply → Prop where
  | getAdmit {x} :
    x.stage = .opening →
    Change srv g x (.getAdmit g) { x with stage := .admitted }
  | own {x a x'} :
    SessionStep srv x a x' →
    Change srv g x (.session g a) x'
  | dropGuard {x} :
    x.stage = .hungUp →
    Change srv g x (.dropGuard g) { x with stage := .closed }
  | send {x p m inbox} :
    x.inbox.startSend p m = some inbox →
    Change srv g x (.send p g m) { x with inbox := inbox }
  | other {x a} :
    Act.get a ≠ some g →
    Change srv g x a x

/-- What a step does to the session of `GET` number `g`. -/
lemma Step.session_inv {s t : State Msg Reply} {a g x'}
    (st : Step srv s a t) (h : t.session g = some x') :
    (∃ headers id, a = .getOpen g id ∧ x' = .new id ∧ s.Fresh id ∧
      s.gets[g]? = some ⟨headers, .entered⟩ ∧ srv.guard.check srv.http headers = .ok ()) ∨
    ∃ x, s.session g = some x ∧ Change srv g x a x' := by
  -- the steps that move one `GET` on: about `g` or about another
  have moved : ∀ {g' y y'}, s.gets[g']? = some y →
      (t.gets = s.gets.set g' y') → (g = g' ∧ y'.session = some x') ∨
        (g' ≠ g ∧ s.session g = some x') := by
    intro g' y y' get e
    rw [State.session_set get e] at h
    split at h
    · exact .inl ⟨‹_›, h⟩
    · exact .inr ⟨fun e => ‹¬ _› e.symm, h⟩
  have same : t.gets = s.gets → s.session g = some x' := by
    intro e
    rw [State.session, e] at h
    exact h
  cases st with
  | getEnter =>
    right
    simp only [State.session, getElem?_concat] at h
    split at h
    · cases h
    · exact ⟨x', h, .other (by simp [Act.get])⟩
  | getForbid get _ =>
    rcases moved get rfl with ⟨rfl, op⟩ | ⟨ne, op⟩
    · cases op
    · exact .inr ⟨x', op, .other (by simpa [Act.get] using ne)⟩
  | getOpen get ok fresh =>
    rcases moved get rfl with ⟨rfl, op⟩ | ⟨ne, op⟩
    · exact .inl ⟨_, _, rfl, (Option.some.inj op).symm, fresh, get, ok⟩
    · exact .inr ⟨x', op, .other (by simpa [Act.get] using ne)⟩
  | getFull get _ _ =>
    rcases moved get rfl with ⟨rfl, op⟩ | ⟨ne, op⟩
    · cases op
    · exact .inr ⟨x', op, .other (by simpa [Act.get] using ne)⟩
  | getAdmit get stage _ =>
    rcases moved get rfl with ⟨rfl, op⟩ | ⟨ne, op⟩
    · cases Option.some.inj op
      exact .inr ⟨_, State.session_of_get get, .getAdmit stage⟩
    · exact .inr ⟨x', op, .other (by simpa [Act.get] using ne)⟩
  | session get sst =>
    rcases moved get rfl with ⟨rfl, op⟩ | ⟨ne, op⟩
    · cases Option.some.inj op
      exact .inr ⟨_, State.session_of_get get, .own sst⟩
    · exact .inr ⟨x', op, .other (by simpa [Act.get] using ne)⟩
  | dropGuard get stage =>
    rcases moved get rfl with ⟨rfl, op⟩ | ⟨ne, op⟩
    · cases Option.some.inj op
      exact .inr ⟨_, State.session_of_get get, .dropGuard stage⟩
    · exact .inr ⟨x', op, .other (by simpa [Act.get] using ne)⟩
  | postEnter => exact .inr ⟨x', same rfl, .other (by simp [Act.get])⟩
  | post _ _ => exact .inr ⟨x', same rfl, .other (by simp [Act.get])⟩
  | send _ get sd =>
    rcases moved get rfl with ⟨rfl, op⟩ | ⟨ne, op⟩
    · cases Option.some.inj op
      exact .inr ⟨_, State.session_of_get get, .send sd⟩
    · exact .inr ⟨x', op, .other (by simpa [Act.get] using ne)⟩

/-- `GET` number `g` has set up no session and has not been refused. -/
def State.Waiting (s : State Msg Reply) (g : Nat) : Prop :=
  ∀ y, s.gets[g]? = some y → y.phase = .entered

/-- A `GET` that still waits was waiting before, and no action was about it. -/
lemma Step.waiting_inv {s t : State Msg Reply} {a g} (st : Step srv s a t) (wt : t.Waiting g) :
    s.Waiting g ∧ Act.get a ≠ some g := by
  -- a step that moves `GET` number `g'` on leaves it past `entered`
  have moved : ∀ {g' y y'}, s.gets[g']? = some y → t.gets = s.gets.set g' y' →
      y'.phase ≠ .entered → s.Waiting g ∧ some g' ≠ some g := by
    intro g' y y' get e past
    have ne : g ≠ g' := by
      rintro rfl
      refine past (wt _ ?_)
      rw [e, getElem?_set_of_some get, if_pos rfl]
    refine ⟨fun z hz => wt z ?_, fun e => ne (Option.some.inj e).symm⟩
    rw [e, getElem?_set_of_some get, if_neg ne]
    exact hz
  cases st with
  | getEnter =>
    refine ⟨fun z hz => wt z ?_, by simp [Act.get]⟩
    have ne : g ≠ s.gets.length := by
      rintro rfl
      rw [List.getElem?_eq_none le_rfl] at hz
      cases hz
    simp only [getElem?_concat, if_neg ne]
    exact hz
  | getForbid get _ => exact moved get rfl nofun
  | getOpen get _ _ => exact moved get rfl nofun
  | getFull get _ _ => exact moved get rfl nofun
  | getAdmit get _ _ => exact moved get rfl nofun
  | session get _ => exact moved get rfl nofun
  | dropGuard get _ => exact moved get rfl nofun
  | send _ get _ => exact moved get rfl nofun
  | postEnter => exact ⟨wt, by simp [Act.get]⟩
  | post _ _ => exact ⟨wt, by simp [Act.get]⟩

/-- No step of a run is about a `GET` that still waits. -/
lemma waiting_run {s : State Msg Reply} {tr g} (rn : Run (Step srv) init tr s) (wt : s.Waiting g) :
    ∀ a ∈ tr, Act.get a ≠ some g := by
  induction rn with
  | refl => simp
  | tail _ st ih =>
    obtain ⟨wt, ne⟩ := st.waiting_inv wt
    intro b mem
    rcases List.mem_append.1 mem with mem | mem
    · exact ih wt b mem
    · cases List.mem_singleton.1 mem
      exact ne

/-- What a run does to one session is a run of `Change` from the session as it was set up. -/
theorem session_run {s : State Msg Reply} {tr g x} (rn : Run (Step srv) init tr s)
    (h : s.session g = some x) :
    ∃ tr1 id tr2, tr = tr1 ++ .getOpen g id :: tr2 ∧
      (∀ a ∈ tr1, Act.get a ≠ some g) ∧ Run (Change srv g) (.new id) tr2 x := by
  induction rn generalizing x with
  | refl => cases h
  | @tail tr s a t rn st ih =>
    rcases st.session_inv h with ⟨headers, id, rfl, rfl, -, get, -⟩ | ⟨x, h, ch⟩
    · refine ⟨tr, id, [], rfl, waiting_run rn ?_, .refl⟩
      intro y hy
      cases get.symm.trans hy
      rfl
    · obtain ⟨tr1, id, tr2, rfl, quiet, rn'⟩ := ih h
      exact ⟨tr1, id, tr2 ++ [a], by simp, quiet, .tail rn' ch⟩

/-- A session keeps its id, -/
lemma Change.id_eq {g x a x'} (ch : Change srv g x a x') : x'.id = x.id := by
  cases ch with
  | own st => cases st <;> rfl
  | _ => rfl

/-- What a step does to `POST` number `p`, once it has arrived. -/
inductive PostChange (srv : Server Msg Reply) (s : State Msg Reply) (p : Nat) :
    Post Msg → Act Msg Reply → Post Msg → Prop where
  | own {q a phase} :
    PostStep srv s p q a phase →
    PostChange srv s p q (.post p a) { q with phase := phase }
  | send {req g m x inbox} :
    s.session g = some x →
    x.inbox.startSend p m = some inbox →
    PostChange srv s p ⟨req, .holding g m⟩ (.send p g m) ⟨req, .sent g⟩
  | other {q a} :
    Act.poster a ≠ some p →
    PostChange srv s p q a q

/-- What a step does to `POST` number `p`. -/
lemma Step.post_inv {s t : State Msg Reply} {a q'} {p : Nat}
    (st : Step srv s a t) (h : t.posts[p]? = some q') :
    (∃ req, a = .postEnter req ∧ q' = ⟨req, .entered⟩ ∧ s.posts[p]? = none) ∨
    ∃ q, s.posts[p]? = some q ∧ PostChange srv s p q a q' := by
  cases st with
  | @postEnter req =>
    rw [getElem?_concat] at h
    split at h
    · subst p
      cases h
      exact .inl ⟨req, rfl, rfl, List.getElem?_eq_none le_rfl⟩
    · exact .inr ⟨q', h, .other (by simp [Act.poster])⟩
  | @post p' q b phase post pst =>
    rw [State.setPost_posts, getElem?_set_of_some post] at h
    split at h
    · subst p'
      cases h
      exact .inr ⟨q, post, .own pst⟩
    · exact .inr ⟨q', h, .other (by simpa [Act.poster, eq_comm] using ‹¬ _›)⟩
  | @send p' req g m headers x inbox post get sd =>
    rw [State.setPost_posts, State.setGet_posts, getElem?_set_of_some post] at h
    split at h
    · subst p'
      cases h
      exact .inr ⟨_, post, .send (State.session_of_get get) sd⟩
    · exact .inr ⟨q', h, .other (by simpa [Act.poster, eq_comm] using ‹¬ _›)⟩
  | _ => exact .inr ⟨q', h, .other (by simp [Act.poster])⟩

/-- and a `POST` its request. -/
lemma PostChange.request_eq {s : State Msg Reply} {p q a q'} (ch : PostChange srv s p q a q') :
    q'.request = q.request := by
  cases ch <;> rfl

/-- What becomes of a session in a step: it changes, or the cap refused it while it was opening. -/
lemma Step.session_fwd {s t : State Msg Reply} {a g x} (st : Step srv s a t)
    (h : s.session g = some x) :
    (∃ x', t.session g = some x' ∧ Change srv g x a x') ∨
    a = .getFull g ∧ x.stage = .opening ∧ t.session g = none := by
  obtain ⟨headers, get⟩ := State.get_of_session h
  -- a step about another `GET`, or none, leaves the session alone
  have other : ∀ {g' y y'}, s.gets[g']? = some y → t.gets = s.gets.set g' y' → g' ≠ g →
      Act.get a = some g' → ∃ x', t.session g = some x' ∧ Change srv g x a x' := by
    intro g' y y' get' e ne about
    refine ⟨x, ?_, .other (by simpa [about] using ne)⟩
    rw [State.session_set get' e, if_neg ne.symm]
    exact h
  -- a step about this one finds it open
  have own : ∀ {g' headers' phase}, s.gets[g']? = some ⟨headers', phase⟩ → g' = g →
      phase = .opened x := by
    rintro g' headers' phase get' rfl
    cases get.symm.trans get'
    rfl
  cases st with
  | getEnter =>
    refine .inl ⟨x, ?_, .other (by simp [Act.get])⟩
    have ne : g ≠ s.gets.length := by
      rintro rfl
      rw [List.getElem?_eq_none le_rfl] at get
      cases get
    simpa only [State.session, getElem?_concat, if_neg ne] using h
  | @getForbid g' _ _ get' _ =>
    by_cases e : g' = g
    · cases own get' e
    · exact .inl (other get' rfl e rfl)
  | @getOpen g' _ _ get' _ _ =>
    by_cases e : g' = g
    · cases own get' e
    · exact .inl (other get' rfl e rfl)
  | @getFull g' _ _ _ get' stage _ =>
    by_cases e : g' = g
    · cases own get' e
      subst e
      refine .inr ⟨rfl, stage, ?_⟩
      rw [State.session_set get' rfl, if_pos rfl, Get.session_refused]
    · exact .inl (other get' rfl e rfl)
  | @getAdmit g' _ _ _ get' stage _ =>
    by_cases e : g' = g
    · cases own get' e
      subst e
      refine .inl ⟨_, ?_, .getAdmit stage⟩
      rw [State.session_set get' rfl, if_pos rfl, Get.session_opened]
    · exact .inl (other get' rfl e rfl)
  | @session g' _ _ _ _ get' sst =>
    by_cases e : g' = g
    · cases own get' e
      subst e
      refine .inl ⟨_, ?_, .own sst⟩
      rw [State.session_set get' rfl, if_pos rfl, Get.session_opened]
    · exact .inl (other get' rfl e rfl)
  | @dropGuard g' _ _ get' stage =>
    by_cases e : g' = g
    · cases own get' e
      subst e
      refine .inl ⟨_, ?_, .dropGuard stage⟩
      rw [State.session_set get' rfl, if_pos rfl, Get.session_opened]
    · exact .inl (other get' rfl e rfl)
  | @send _ _ g' _ _ _ _ _ get' sd =>
    by_cases e : g' = g
    · cases own get' e
      subst e
      refine .inl ⟨_, ?_, .send sd⟩
      rw [State.session_set get' rfl, if_pos rfl, Get.session_opened]
    · exact .inl (other get' rfl e rfl)
  | postEnter => exact .inl ⟨x, h, .other (by simp [Act.get])⟩
  | post _ _ => exact .inl ⟨x, h, .other (by simp [Act.get])⟩

/-- What becomes of a `POST` in a step. -/
lemma Step.post_fwd {s t : State Msg Reply} {a q} {p : Nat} (st : Step srv s a t)
    (h : s.posts[p]? = some q) : ∃ q', t.posts[p]? = some q' ∧ PostChange srv s p q a q' := by
  have longer : s.posts.length ≤ t.posts.length := by
    cases st <;> simp
  obtain ⟨lt, -⟩ := List.getElem?_eq_some_iff.1 h
  have h' : t.posts[p]? = some t.posts[p] := List.getElem?_eq_getElem (by omega)
  rcases st.post_inv h' with ⟨req, -, -, absent⟩ | ⟨q0, h0, ch⟩
  · cases h.symm.trans absent
  · cases h.symm.trans h0
    exact ⟨_, h', ch⟩

/-- What a step does to the table: `getAdmit` adds its session under the cap, a dropped guard removes
its own, and nothing else touches it. -/
lemma Step.sessions_inv {s t : State Msg Reply} {a} (st : Step srv s a t) :
    ((∀ g, a ≠ .getAdmit g) ∧ (∀ g, a ≠ .dropGuard g) ∧ t.sessions = s.sessions) ∨
    (∃ g x, a = .getAdmit g ∧ s.session g = some x ∧ x.stage = .opening ∧
      t.session g = some { x with stage := .admitted } ∧
      admitSession s.sessions srv.maxSessions x.id g = .ok t.sessions) ∨
    (∃ g x, a = .dropGuard g ∧ s.session g = some x ∧ x.stage = .hungUp ∧
      t.session g = some { x with stage := .closed } ∧
      t.sessions = s.sessions.remove x.id) := by
  cases st with
  | getAdmit get stage ok =>
    refine .inr (.inl ⟨_, _, rfl, State.session_of_get get, stage, ?_, ok⟩)
    rw [State.session_set get rfl, if_pos rfl, Get.session_opened]
  | dropGuard get stage =>
    refine .inr (.inr ⟨_, _, rfl, State.session_of_get get, stage, ?_, rfl⟩)
    rw [State.session_set get rfl, if_pos rfl, Get.session_opened]
  | _ => exact .inl ⟨nofun, nofun, rfl⟩

end OxmlMcp.Sse
