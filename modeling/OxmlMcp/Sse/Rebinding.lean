import OxmlMcp.Access.Policy
import OxmlMcp.Sse.Delivery

/-!
# DNS rebinding

Both handlers of the SSE server check a request before anything else, so whatever opened a session or
enqueued a message passed the check (`getChecked_run`, `accounts_run`). `rebinding_exact` says when
that means the whole policy: in every run whose requests hide no foreign value behind a first one that
names the server.
-/

namespace OxmlMcp.Sse
open OxmlMcp.Lts OxmlMcp.Http OxmlMcp.Access OxmlMcp.Mpsc

variable {Msg Reply : Type} {srv : Server Msg Reply}

/-- The requests that arrive hide no foreign value. -/
def ArrivesPlain (http : Parsers) (bindHost : String) (_ : State Msg Reply) :
    Act Msg Reply → Prop
  | .getEnter headers => NothingHidden http bindHost headers
  | .postEnter req => NothingHidden http bindHost req.headers
  | _ => True

/-- What a step does to a `GET`: it arrives, or it keeps its headers, and opens a session only past
the check. -/
lemma Step.get_inv {s t : State Msg Reply} {a y'} {g : Nat} (st : Step srv s a t)
    (h : t.gets[g]? = some y') :
    (∃ headers, a = .getEnter headers ∧ y' = ⟨headers, .entered⟩) ∨
    ∃ y, s.gets[g]? = some y ∧ y'.headers = y.headers ∧
      (y'.session.isSome → y.session.isSome ∨ srv.guard.check srv.http y.headers = .ok ()) := by
  -- a step that moves one `GET` on, which has its session already or passed the check
  have moved : ∀ {g' y0 y1}, s.gets[g']? = some y0 → t.gets = s.gets.set g' y1 →
      y1.headers = y0.headers →
      (y1.session.isSome → y0.session.isSome ∨ srv.guard.check srv.http y0.headers = .ok ()) →
      ∃ y, s.gets[g]? = some y ∧ y'.headers = y.headers ∧
        (y'.session.isSome → y.session.isSome ∨ srv.guard.check srv.http y.headers = .ok ()) := by
    intro g' y0 y1 get e eh opens
    rw [e, getElem?_set_of_some get] at h
    split at h
    · subst g
      cases h
      exact ⟨y0, get, eh, opens⟩
    · exact ⟨y', h, rfl, .inl⟩
  cases st with
  | @getEnter headers =>
    rw [getElem?_concat] at h
    split at h
    · cases h
      exact .inl ⟨headers, rfl, rfl⟩
    · exact .inr ⟨y', h, rfl, .inl⟩
  | getForbid get _ => exact .inr (moved get rfl rfl nofun)
  | getOpen get ok _ => exact .inr (moved get rfl rfl fun _ => .inr ok)
  | getFull get _ _ => exact .inr (moved get rfl rfl nofun)
  | getAdmit get _ _ => exact .inr (moved get rfl rfl fun _ => .inl rfl)
  | session get _ => exact .inr (moved get rfl rfl fun _ => .inl rfl)
  | dropGuard get _ => exact .inr (moved get rfl rfl fun _ => .inl rfl)
  | send _ get _ => exact .inr (moved get rfl rfl fun _ => .inl rfl)
  | postEnter => exact .inr ⟨y', h, rfl, .inl⟩
  | post _ _ => exact .inr ⟨y', h, rfl, .inl⟩

lemma getChecked_run {s : State Msg Reply} {tr y} {g : Nat} (rn : Run (Step srv) init tr s)
    (h : s.gets[g]? = some y) (opened : y.session.isSome) :
    srv.guard.check srv.http y.headers = .ok () := by
  induction rn generalizing y with
  | refl => cases h
  | tail _ st ih =>
    rcases st.get_inv h with ⟨headers, _, rfl⟩ | ⟨y0, h0, e, opens⟩
    · cases opened
    · rw [e]
      rcases opens opened with opened | ok
      · exact ih h0 opened
      · exact ok

/-- The requests of a run whose arrivals hide nothing hide nothing. -/
lemma plain_run {http : Parsers} {bindHost : String} {s : State Msg Reply} {tr}
    (rn : Run (Guarded (Step srv) (ArrivesPlain http bindHost)) init tr s) :
    (∀ (g : Nat) y, s.gets[g]? = some y → NothingHidden http bindHost y.headers) ∧
    ∀ (p : Nat) q, s.posts[p]? = some q → NothingHidden http bindHost q.request.headers := by
  refine rn.invariant (P := fun s =>
    (∀ (g : Nat) y, s.gets[g]? = some y → NothingHidden http bindHost y.headers) ∧
    ∀ (p : Nat) q, s.posts[p]? = some q → NothingHidden http bindHost q.request.headers)
    ⟨nofun, nofun⟩ ?_
  rintro t a u ⟨gets, posts⟩ ⟨st, plain⟩
  constructor
  · intro g y h
    rcases st.get_inv h with ⟨headers, rfl, rfl⟩ | ⟨y0, h0, e, _⟩
    · exact plain
    · exact e ▸ gets g y0 h0
  · intro p q h
    rcases st.post_inv h with ⟨req, rfl, rfl, _⟩ | ⟨q0, h0, ch⟩
    · exact plain
    · exact ch.request_eq ▸ posts p q0 h0

/-- What opened a session or enqueued a message in a run with history `tr` meets the policy. -/
structure Rebinding (http : Parsers) (bindHost : String) (tr : List (Act Msg Reply))
    (s : State Msg Reply) : Prop where
  opened : ∀ g, .getAdmit g ∈ tr → ∃ y, s.gets[g]? = some y ∧ Policy http bindHost y.headers
  enqueued : ∀ p g m, .send p g m ∈ tr →
    ∃ q, s.posts[p]? = some q ∧ Policy http bindHost q.request.headers

/-- The policy holds of whatever opened a session or enqueued a message, in every run whose requests
hide no foreign value; a request means the policy by passing the check exactly when it hides none;
and the policy passes the check. -/
theorem rebinding_exact {bindHost : String} (bound : srv.guard = .forBindHost bindHost) :
    (∀ {tr s}, Run (Guarded (Step srv) (ArrivesPlain srv.http bindHost)) init tr s →
      Rebinding srv.http bindHost tr s) ∧
    (∀ headers, (srv.guard.check srv.http headers = .ok () → Policy srv.http bindHost headers) ↔
      NothingHidden srv.http bindHost headers) ∧
    ∀ headers, Policy srv.http bindHost headers → srv.guard.check srv.http headers = .ok () := by
  rw [bound]
  refine ⟨fun rn => ⟨fun g mem => ?_, fun p g m mem => ?_⟩, fun _ => check_policy_iff,
    fun _ => Policy.check⟩
  · obtain ⟨x, h, _⟩ := (admitted_iff rn.unguard).2 mem
    obtain ⟨headers, get⟩ := State.get_of_session h
    have ok := getChecked_run rn.unguard get rfl
    exact ⟨_, get, check_policy_iff.2 ((plain_run rn).1 g _ get) (bound ▸ ok)⟩
  · obtain ⟨q, h, _, checks, _⟩ := sentBy_routed rn.unguard mem
    have ok := (postChecks_ok checks).2
    exact ⟨q, h, check_policy_iff.2 ((plain_run rn).2 p q h) (bound ▸ ok)⟩

/-- A client that opens a session. -/
def opens (headers : HeaderMap) : List (Act String String) :=
  [.getEnter headers, .getOpen 0 "a", .getAdmit 0]

lemma opens_run (headers : HeaderMap)
    (ok : Server.sample.guard.check Server.sample.http headers = .ok ()) :
    ∃ s, Run (Step Server.sample) init (opens headers) s ∧
      s.gets[0]?.map Get.headers = some headers := by
  refine ⟨_, .head .getEnter <| .head (.getOpen rfl ok ?_) <| .single (.getAdmit rfl rfl rfl), rfl⟩
  intro g x h
  rcases g with _ | g <;> cases h

/-- A request that names the server twice, with and without its port, as the host and as the origin. -/
def twiceLocal : HeaderMap :=
  [(HOST, .ofStr "localhost"), (ORIGIN, .ofStr "http://localhost:8000"),
    (HOST, .ofStr "localhost:8000"), (ORIGIN, .ofStr "http://localhost:8000")]

lemma twiceLocal_plain : NothingHidden .sample "127.0.0.1" twiceLocal := by
  refine .inr ⟨fun _ v mem => ?_, fun v mem => ?_⟩
  · have later : (twiceLocal.getAll HOST).tail = [.ofStr "localhost:8000"] := by decide
    rw [later, List.mem_singleton] at mem
    subst mem
    exact ⟨"localhost:8000", "localhost", by decide, by decide, .inl (by decide)⟩
  · have later : (twiceLocal.getAll ORIGIN).tail = [.ofStr "http://localhost:8000"] := by decide
    rw [later, List.mem_singleton] at mem
    subst mem
    exact ⟨"http://localhost:8000", ⟨some "http", some "localhost"⟩, "http", "localhost", by decide,
      by decide, rfl, rfl, .inl (by decide)⟩

/-- A local client whose headers have several values meets the condition of `rebinding_exact`. -/
theorem rebinding_exact_local :
    ∃ s, Run (Guarded (Step Server.sample) (ArrivesPlain .sample "127.0.0.1")) init
        (opens twiceLocal) s ∧
      Rebinding .sample "127.0.0.1" (opens twiceLocal) s := by
  obtain ⟨s, rn, _⟩ := opens_run twiceLocal rfl
  have plain : ∀ a ∈ opens twiceLocal, ∀ s, ArrivesPlain .sample "127.0.0.1" s a := by
    simp [opens, ArrivesPlain, twiceLocal_plain]
  exact ⟨s, rn.guard plain, (@rebinding_exact _ _ Server.sample _ rfl).1 (rn.guard plain)⟩

/-- A request with two `Host` fields, the second of them foreign. -/
def twoHosts : HeaderMap :=
  [(HOST, .ofStr "localhost"), (HOST, .ofStr "evil.example")]

/-- A request that names a foreign host after a local one opens a session. -/
theorem rebinding_twoHosts :
    ∃ s, Run (Step Server.sample) init (opens twoHosts) s ∧
      ¬ Rebinding .sample "127.0.0.1" (opens twoHosts) s := by
  obtain ⟨s, rn, h⟩ := opens_run twoHosts rfl
  refine ⟨s, rn, fun safe => ?_⟩
  obtain ⟨y, get, policy⟩ := safe.opened 0 (by simp [opens])
  have e : y.headers = twoHosts := by simpa [get] using h
  rw [e] at policy
  have foreign := (policy.host (by decide)).2 (.ofStr "evil.example") (by decide)
  obtain ⟨n, parsed, name⟩ := localHost_iff.1 foreign
  obtain rfl : "evil.example" = n := Option.some.inj parsed
  exact absurd name (by unfold ServerName; decide)

end OxmlMcp.Sse
