import OxmlMcp.Sse.Directory

/-!
# A session alone

Nothing that other clients do reaches a session or the `POST`s that name it. Take any run and leave
out all steps but the arrivals of requests, the steps about one session, and those of the `POST`s that
name it: what remains is a run, in which nobody else has a session, and at its end this session and
its `POST`s are as before.

* `Own`: what the end of the whole run says of every state before it.
* `Shadow`: a state of the whole run, against one of the run that remains.
* `Shadow.step`: a step that is kept is taken in both, another in the first alone.
-/

namespace OxmlMcp.Sse
open OxmlMcp.Lts OxmlMcp.Http OxmlMcp.Access OxmlMcp.Mpsc

variable {Msg Reply : Type} {srv : Server Msg Reply}

/-- The steps that are kept for the session of `GET` number `g` and the `POST`s in `mine`. -/
def Act.kept (g : Nat) (mine : Nat → Bool) : Act Msg Reply → Bool
  | .getEnter _ => true
  | .postEnter _ => true
  | .post p _ => mine p
  | a => Act.get a == some g

/-- Whether `POST` number `p` names the session `id`. -/
def State.names (s : State Msg Reply) (id : String) (p : Nat) : Bool :=
  s.posts[p]?.any fun q => q.request.sessionId == id

/-- `GET` number `g` is not refused and has the session `id`, if any, that no other has once it is
taken in, and the `POST`s in `mine` are those that name it. -/
structure Own (g : Nat) (id : String) (mine : Nat → Bool) (s : State Msg Reply) : Prop where
  accepted : ∀ headers r, s.gets[g]? ≠ some ⟨headers, .refused r⟩
  ident : ∀ x, s.session g = some x → x.id = id
  single : ∀ j x, s.session j = some x → x.stage ≠ .opening → x.id = id → j = g
  posts : ∀ p q, s.posts[p]? = some q → (mine p = true ↔ q.request.sessionId = id)

variable {s s' t : State Msg Reply} {tr : List (Act Msg Reply)} {a : Act Msg Reply} {g : Nat}
  {id : String} {mine : Nat → Bool} {x : Session Msg Reply}

/-- A refusal is final. -/
lemma Step.refused_stays {headers r} (st : Step srv s a t)
    (get : s.gets[g]? = some ⟨headers, .refused r⟩) : t.gets[g]? = some ⟨headers, .refused r⟩ := by
  have other : ∀ {g' headers' phase y}, s.gets[g']? = some ⟨headers', phase⟩ →
      t.gets = s.gets.set g' y → phase ≠ .refused r → t.gets[g]? = some ⟨headers, .refused r⟩ := by
    intro g' headers' phase y get' e ne
    rw [e, getElem?_set_of_some get', if_neg]
    · exact get
    · rintro rfl
      cases get.symm.trans get'
      exact ne rfl
  cases st with
  | getEnter =>
    rw [getElem?_concat, if_neg]
    · exact get
    · rintro rfl
      rw [List.getElem?_eq_none le_rfl] at get
      cases get
  | getForbid get' _ => exact other get' rfl nofun
  | getOpen get' _ _ => exact other get' rfl nofun
  | getFull get' _ _ => exact other get' rfl nofun
  | getAdmit get' _ _ => exact other get' rfl nofun
  | session get' _ => exact other get' rfl nofun
  | dropGuard get' _ => exact other get' rfl nofun
  | send _ get' _ => exact other get' rfl nofun
  | postEnter => exact get
  | post _ _ => exact get

/-- What the end of a run says of the session holds before. -/
lemma Own.before (own : Own g id mine t) (st : Step srv s a t) : Own g id mine s where
  accepted headers r get := own.accepted headers r (st.refused_stays get)
  ident x h := by
    rcases st.session_fwd h with ⟨x', h', ch⟩ | ⟨rfl, -, -⟩
    · exact ch.id_eq.symm.trans (own.ident x' h')
    · cases st with
      | @getFull _ headers _ r get _ _ =>
        refine absurd ?_ (own.accepted headers r)
        rw [State.setGet_gets, getElem?_set_of_some get, if_pos rfl]
  single j x h stage e := by
    rcases st.session_fwd h with ⟨x', h', ch⟩ | ⟨-, opening, -⟩
    · exact own.single j x' h' (ch.past stage) (ch.id_eq.trans e)
    · exact absurd opening stage
  posts p q h := by
    obtain ⟨q', h', ch⟩ := st.post_fwd h
    rw [own.posts p q' h', ch.request_eq]

/-- What the whole run says of an open session. -/
lemma own_end (rn : Run (Step srv) init tr s) (h : s.session g = some x) :
    Own g x.id (s.names x.id) s where
  accepted headers r get := by
    rw [State.session_of_get get] at h
    cases h
  ident y hy := by
    cases h.symm.trans hy
    rfl
  single j y hy _ e := (run_tableOk rn).ids _ _ _ _ hy h e
  posts p q hq := by simp [State.names, hq]

/-- A state `s` of the whole run, and one `t` of the run that remains. -/
structure Shadow (g : Nat) (mine : Nat → Bool) (s t : State Msg Reply) : Prop where
  gets : Agree (· = g) s.gets t.gets
  waits : ∀ j y, j ≠ g → t.gets[j]? = some y → y.phase = .entered
  posts : Agree (mine · = true) s.posts t.posts
  table : ∀ e, e ∈ t.sessions ↔ e ∈ s.sessions ∧ e.2 = g

/-- The session is the same, -/
lemma Shadow.session (sh : Shadow g mine s t) : t.session g = s.session g := by
  rw [State.session, sh.gets.same g rfl, State.session]

/-- In the run that remains nobody else has a session. -/
lemma Shadow.none_else (sh : Shadow g mine s t) {j} (ne : j ≠ g) : t.session j = none := by
  cases h : t.session j with
  | none => rfl
  | some y =>
    obtain ⟨headers, get⟩ := State.get_of_session h
    cases sh.waits j _ ne get

/-- so is its `GET`, -/
lemma Shadow.get {y} (sh : Shadow g mine s t) (get : s.gets[g]? = some y) :
    t.gets[g]? = some y :=
  (sh.gets.same g rfl).trans get

/-- The `GET` of the session moves on in both. -/
lemma Shadow.setGet (sh : Shadow g mine s t) (y : Get Msg Reply) :
    Shadow g mine (s.setGet g y) (t.setGet g y) where
  gets := sh.gets.set g y
  waits j z ne get := by
    rw [State.setGet_gets, List.getElem?_set_ne ne.symm] at get
    exact sh.waits j z ne get
  posts := sh.posts
  table := sh.table

/-- Another `GET` moves on, and the entry of the session in the table stays. -/
lemma Shadow.get_other {j y} {t' : Sessions} (sh : Shadow g mine s t) (ne : j ≠ g)
    (same : ∀ e : String × Nat, e.2 = g → (e ∈ t' ↔ e ∈ s.sessions)) :
    Shadow g mine { s.setGet j y with sessions := t' } t where
  gets := sh.gets.set_other ne y
  waits := sh.waits
  posts := sh.posts
  table e := by
    rw [sh.table]
    exact ⟨fun ⟨mem, eg⟩ => ⟨(same e eg).2 mem, eg⟩, fun ⟨mem, eg⟩ => ⟨(same e eg).1 mem, eg⟩⟩

/-- A `POST` that names the session moves on in both. -/
lemma Shadow.setPost (sh : Shadow g mine s t) (p : Nat) (q : Post Msg) :
    Shadow g mine (s.setPost p q) (t.setPost p q) where
  gets := sh.gets
  waits := sh.waits
  posts := sh.posts.set p q
  table := sh.table

/-- and a `POST` that names another session may go on in the whole run alone. -/
lemma Shadow.post_other {p q} (sh : Shadow g mine s t) (out : mine p ≠ true) :
    Shadow g mine (s.setPost p q) t where
  gets := sh.gets
  waits := sh.waits
  posts := sh.posts.set_other out q
  table := sh.table

/-- A sender that holds the inbox of a session names that session. -/
lemma Own.routed {req j m} {p : Nat} {phase} (own : Own g id mine s)
    (h : s.posts[p]? = some ⟨req, phase⟩) (routed : s.Routed srv req j m) :
    mine p = true ↔ j = g := by
  obtain ⟨-, y, hy, e, past⟩ := routed
  rw [own.posts p _ h]
  constructor
  · intro named
    exact own.single j y hy past (e.trans named)
  · rintro rfl
    exact e.symm.trans (own.ident y hy)

/-- What is found under the id of the session is the session, in both. -/
lemma Shadow.found (sh : Shadow g mine s t) (own : Own g id mine s) (oks : TableOk srv s) {j} :
    (s.sessions.get id = some j → j = g ∧ t.sessions.get id = some j) ∧
      (s.sessions.get id = none → t.sessions.get id = none) := by
  constructor
  · intro found
    have mem := Sessions.mem_of_get found
    obtain ⟨y, hy, e, listed⟩ := (oks.mem_iff _ _).1 mem
    have past : y.stage ≠ .opening := fun stage => (stage ▸ listed).elim
    have eg : j = g := own.single j y hy past e
    refine ⟨eg, ?_⟩
    cases found' : t.sessions.get id with
    | none => exact absurd ((sh.table _).2 ⟨mem, eg⟩) (Sessions.get_eq_none.1 found' j)
    | some k =>
      have eg' : k = g := ((sh.table _).1 (Sessions.mem_of_get found')).2
      rw [eg, eg']
  · intro absent
    rw [Sessions.get_eq_none] at absent ⊢
    exact fun j mem => absent j ((sh.table _).1 mem).1

/-- A step of a `POST` that names the session is one where only that session is. -/
lemma Shadow.post_step {p q b phase} (sh : Shadow g mine s t) (own : Own g id mine s)
    (rn : Run (Step srv) init tr s) (h : s.posts[p]? = some q) (named : mine p = true)
    (st : PostStep srv s p q b phase) : PostStep srv t p q b phase := by
  have acc := accounts_run rn h
  have e := (own.posts p q h).1 named
  -- the inbox that a `POST` holds is the session's
  have same : ∀ {req j m phase x}, s.posts[p]? = some ⟨req, phase⟩ → s.Routed srv req j m →
      s.session j = some x → t.session j = some x := by
    intro req j m phase x h rt hx
    have eg : j = g := (own.routed h rt).1 named
    rw [eg, sh.session, ← eg]
    exact hx
  have found := fun j => sh.found (j := j) own (run_tableOk rn)
  cases st with
  | refuse err => exact .refuse err
  | parse ok => exact .parse ok
  | miss absent =>
    rw [e] at absent
    exact .miss (e ▸ (found 0).2 absent)
  | @hit req m j there =>
    rw [e] at there
    exact .hit (e ▸ ((found j).1 there).2)
  | gone hx closed => exact .gone (same h acc.2 hx) closed
  | flush hx flushed =>
    obtain ⟨m, -, rt⟩ := acc
    exact .flush (same h rt hx) flushed
  | dropEntered => exact .dropEntered
  | dropSent => exact .dropSent

/-- The session is taken in alike: before, the table of the run that remains is empty. -/
lemma Shadow.admitted (sh : Shadow g mine s t) (oks : TableOk srv s) (h : s.session g = some x)
    (stage : x.stage = .opening) {t' : Sessions}
    (ok : admitSession s.sessions srv.maxSessions x.id g = .ok t') :
    admitSession t.sessions srv.maxSessions x.id g = .ok [(x.id, g)] ∧
      ∀ e, e ∈ [(x.id, g)] ↔ e ∈ t' ∧ e.2 = g := by
  have absent : ∀ id, (id, g) ∉ s.sessions := by
    intro id mem
    obtain ⟨y, hy, -, listed⟩ := (oks.mem_iff _ _).1 mem
    cases h.symm.trans hy
    exact (stage ▸ listed).elim
  have empty : t.sessions = [] := by
    rw [List.eq_nil_iff_forall_not_mem]
    rintro ⟨id, j⟩ mem
    obtain ⟨mem, rfl⟩ := (sh.table _).1 mem
    exact absent id mem
  unfold admitSession at ok ⊢
  split at ok
  · cases ok
  · cases ok
    constructor
    · rw [empty, List.length_nil, if_neg (by omega)]
      rfl
    · rintro ⟨id, j⟩
      rw [List.mem_singleton, Sessions.mem_insert]
      constructor
      · intro e
        cases e
        exact ⟨.inl rfl, rfl⟩
      · rintro ⟨e | ⟨mem, -⟩, rfl⟩
        · exact e
        · exact absurd mem (absent id)

/-- A step about a session is kept if it is about this one. -/
lemma Act.kept_about {j} (about : Act.get a = some j) : a.kept g mine = true ↔ j = g := by
  cases a with
  | getEnter _ => cases about
  | postEnter _ => cases about
  | post _ _ => cases about
  | _ => simp [Act.kept, about]

/-- A step that is kept is taken in both, another in the whole run alone. -/
lemma Shadow.step (sh : Shadow g mine s t) (rn : Run (Step srv) init tr s)
    (own : Own g id mine s) (own' : Own g id mine s') (st : Step srv s a s') :
    if a.kept g mine then ∃ t', Step srv t a t' ∧ Shadow g mine s' t' else Shadow g mine s' t := by
  have oks := run_tableOk rn
  -- the entry of the session stays where another's changes
  have kept : ∀ {j y}, s.session j = some y → j ≠ g →
      ∀ e : String × Nat, e.2 = g → e ∈ s.sessions → e.1 ≠ y.id := by
    rintro j y hy ne ⟨id, k⟩ rfl mem rfl
    obtain ⟨z, hz, e, -⟩ := (oks.mem_iff _ _).1 mem
    exact ne (oks.ids _ _ _ _ hy hz e.symm)
  cases st with
  | getEnter =>
    refine ⟨_, .getEnter, sh.gets.concat _, fun j y ne get => ?_, sh.posts, sh.table⟩
    rw [getElem?_concat] at get
    split at get
    · cases get
      rfl
    · exact sh.waits j y ne get
  | postEnter => exact ⟨_, .postEnter, sh.gets, sh.waits, sh.posts.concat _, sh.table⟩
  | @getForbid j _ r get err =>
    by_cases e : j = g
    · subst e
      rw [if_pos ((Act.kept_about rfl).2 rfl)]
      exact ⟨_, .getForbid (sh.get get) err, sh.setGet _⟩
    · rw [if_neg fun k => e ((Act.kept_about rfl).1 k)]
      exact sh.get_other e fun _ _ => Iff.rfl
  | @getOpen j _ _ get ok fresh =>
    by_cases e : j = g
    · subst e
      rw [if_pos ((Act.kept_about rfl).2 rfl)]
      refine ⟨_, .getOpen (sh.get get) ok fun k y hy => ?_, sh.setGet _⟩
      by_cases ek : k = j
      · subst ek
        rw [sh.session] at hy
        exact fresh _ _ hy
      · rw [sh.none_else ek] at hy
        cases hy
    · rw [if_neg fun k => e ((Act.kept_about rfl).1 k)]
      exact sh.get_other e fun _ _ => Iff.rfl
  | @getFull j headers _ r get stage full =>
    by_cases e : j = g
    · subst e
      refine absurd ?_ (own'.accepted headers r)
      rw [State.setGet_gets, getElem?_set_of_some get, if_pos rfl]
    · rw [if_neg fun k => e ((Act.kept_about rfl).1 k)]
      exact sh.get_other e fun _ _ => Iff.rfl
  | @getAdmit j headers x t' get stage ok =>
    have h : s.session j = some x := State.session_of_get get
    by_cases e : j = g
    · subst e
      rw [if_pos ((Act.kept_about rfl).2 rfl)]
      obtain ⟨ok', table⟩ := sh.admitted oks h stage ok
      have sh' := sh.setGet ⟨headers, .opened { x with stage := .admitted }⟩
      exact ⟨_, .getAdmit (sh.get get) stage ok', sh'.gets, sh'.waits, sh'.posts, table⟩
    · rw [if_neg fun k => e ((Act.kept_about rfl).1 k)]
      refine sh.get_other e fun k eg => ?_
      unfold admitSession at ok
      split at ok
      · cases ok
      · cases ok
        rw [Sessions.mem_insert]
        constructor
        · rintro (rfl | ⟨mem, -⟩)
          · exact absurd eg e
          · exact mem
        · exact fun mem => .inr ⟨mem, kept h e k eg mem⟩
  | @session j _ x b x' get sst =>
    by_cases e : j = g
    · subst e
      rw [if_pos ((Act.kept_about rfl).2 rfl)]
      exact ⟨_, .session (sh.get get) sst, sh.setGet _⟩
    · rw [if_neg fun k => e ((Act.kept_about rfl).1 k)]
      exact sh.get_other e fun _ _ => Iff.rfl
  | @dropGuard j headers x get stage =>
    have h : s.session j = some x := State.session_of_get get
    by_cases e : j = g
    · subst e
      rw [if_pos ((Act.kept_about rfl).2 rfl)]
      have sh' := sh.setGet ⟨headers, .opened { x with stage := .closed }⟩
      refine ⟨_, .dropGuard (sh.get get) stage, sh'.gets, sh'.waits, sh'.posts, fun k => ?_⟩
      rw [Sessions.mem_remove, Sessions.mem_remove, sh.table]
      exact and_right_comm
    · rw [if_neg fun k => e ((Act.kept_about rfl).1 k)]
      refine sh.get_other e fun k eg => ?_
      rw [Sessions.mem_remove]
      exact ⟨And.left, fun mem => ⟨mem, kept h e k eg mem⟩⟩
  | @post p q b phase post pst =>
    cases named : mine p with
    | true =>
      rw [if_pos (by simp [Act.kept, named])]
      have there : t.posts[p]? = some q := (sh.posts.same p named).trans post
      exact ⟨_, .post there (sh.post_step own rn post named pst), sh.setPost _ _⟩
    | false =>
      rw [if_neg (by simp [Act.kept, named])]
      exact sh.post_other (by simp [named])
  | @send p req j m headers x inbox post get sd =>
    have named := own.routed post (accounts_run rn post).2
    by_cases e : j = g
    · rw [if_pos ((Act.kept_about rfl).2 e)]
      have there := (sh.posts.same p (named.2 e)).trans post
      subst e
      exact ⟨_, .send there (sh.get get) sd, (sh.setGet _).setPost _ _⟩
    · rw [if_neg fun k => e ((Act.kept_about rfl).1 k)]
      exact (sh.get_other e fun _ _ => Iff.rfl).post_other (fun m => e (named.1 m))

/-- At first nothing is different. -/
lemma shadow_init : Shadow g mine (init : State Msg Reply) init where
  gets := ⟨rfl, fun _ _ => rfl⟩
  waits := nofun
  posts := ⟨rfl, fun _ _ => rfl⟩
  table e := by simp [init]

/-- A run is shadowed by what is kept of it. -/
lemma shadow_run (rn : Run (Step srv) init tr s) (own : Own g id mine s) :
    ∃ t, Run (Step srv) init (tr.filter (Act.kept g mine)) t ∧ Shadow g mine s t :=
  rn.shadow shadow_init own (fun st own => own.before st)
    fun rn st own own' sh => sh.step rn own own' st

/-- What is not kept is not about the session. -/
lemma Act.not_kept (out : a.kept g mine = false) : Act.get a ≠ some g := by
  intro about
  rw [(Act.kept_about about).2 rfl] at out
  cases out

/-- What only steps about the session show is shown by what is kept. -/
lemma filterMap_kept {β : Type} {f : Act Msg Reply → Option β}
    (unseen : ∀ a, Act.get a ≠ some g → f a = none) (tr : List (Act Msg Reply)) :
    (tr.filter (Act.kept g mine)).filterMap f = tr.filterMap f := by
  induction tr with
  | nil => rfl
  | cons a tr ih =>
    cases keep : a.kept g mine with
    | true => rw [List.filter_cons_of_pos keep, List.filterMap_cons, List.filterMap_cons, ih]
    | false =>
      rw [List.filter_cons_of_neg (by simp [keep]),
        List.filterMap_cons_none (unseen a (Act.not_kept keep)), ih]

/-- Whatever other clients did, an open session and the `POST`s that name it are where the steps about
them alone would have brought them, with nobody else having a session; its client reads the same, and
its service receives and emits the same. -/
theorem alone (rn : Run (Step srv) init tr s) (h : s.session g = some x) :
    ∃ t, Run (Step srv) init (tr.filter (Act.kept g (s.names x.id))) t ∧
      t.session g = some x ∧
      (∀ (p : Nat) q, s.posts[p]? = some q → q.request.sessionId = x.id → t.posts[p]? = some q) ∧
      (∀ j, j ≠ g → t.session j = none) ∧
      reads g (tr.filter (Act.kept g (s.names x.id))) = reads g tr ∧
      received g (tr.filter (Act.kept g (s.names x.id))) = received g tr ∧
      emits g (tr.filter (Act.kept g (s.names x.id))) = emits g tr := by
  obtain ⟨t, rnt, sh⟩ := shadow_run rn (own_end rn h)
  refine ⟨t, rnt, sh.session.trans h, fun p q hq named => ?_, fun j ne => sh.none_else ne, ?_, ?_, ?_⟩
  · exact (sh.posts.same p (by simp [State.names, hq, named])).trans hq
  · exact filterMap_kept (fun a ne => (Act.unseen ne).2.2) tr
  · rw [received, filterMap_kept fun a ne => (Act.unseen ne).1]
    rfl
  · rw [emits, filterMap_kept fun a ne => (Act.unseen ne).2.1]
    rfl

/-- Of two round trips, the one of session `a`: what is about the other session is left out, but for
the arrivals of its requests. -/
def roundTripAlone : List (Act String String) :=
  [.getEnter localHeaders, .getEnter localHeaders, .getOpen 0 "a", .getAdmit 0, .session 0 .spawn,
    .session 0 .respond, .session 0 (.endpoint ⟨"endpoint", "/messages/?sessionId=a"⟩),
    .postEnter ⟨localHeaders, "b", [112, 111, 110, 103]⟩,
    .postEnter ⟨localHeaders, "a", [112, 105, 110, 103]⟩,
    .post 1 .parse, .post 1 (.hit 0), .send 1 0 "ping", .post 1 .flush,
    .session 0 (.recv 1 "ping"), .session 0 (.emit "pong"),
    .session 0 (.message "pong" ⟨"message", "pong"⟩)]

/-- Session `a` of two that are served together ends as it does where it is served alone. -/
theorem alone_roundTrips :
    ∃ s t x, Run (Step Server.pair) init roundTrips s ∧ s.session 0 = some x ∧
      Run (Step Server.pair) init roundTripAlone t ∧ t.session 0 = some x ∧ t.session 1 = none := by
  obtain ⟨s, x, rn, h, id, posts⟩ := roundTrips_run
  obtain ⟨t, rn', h', -, none', -⟩ := alone rn h
  -- the second `POST` names session `a`, the first does not
  have named : ∀ p : Nat, s.names x.id p = (["b", "a"][p]?.any fun j => j == "a") := by
    intro p
    rw [State.names, id, ← posts, List.getElem?_map, Option.any_map]
  have left : roundTrips.filter (Act.kept 0 (s.names x.id)) = roundTripAlone := by
    rw [funext named]
    rfl
  rw [left] at rn'
  exact ⟨s, t, x, rn, h, rn', h', none' 1 Nat.one_ne_zero⟩

end OxmlMcp.Sse
