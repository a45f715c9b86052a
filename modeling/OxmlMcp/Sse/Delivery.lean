import OxmlMcp.Sse.Channels
import OxmlMcp.Sse.Table

/-!
# Delivery and isolation

What a run does with the messages of its `POST`s. `Accounts` says what a `POST` has enqueued so far
from how far it is: nothing up to its send, one message in the inbox of the session it names from
then on; `Step.accounts` keeps it, and `accounts_run` has it of every run. With the laws of the
inboxes (`Channels`) follow:

* `SessionDelivery`: what the service of a session received, then what waits, is what the `POST`s
  naming that session sent, each once and in order.
* `PostDelivery`: the answer of a `POST` agrees with what it enqueued.
* `in_order`: a `POST` that arrives after another was answered `202` is received after it.

They hold of every run by `delivery`.
-/

namespace OxmlMcp.Sse
open OxmlMcp.Lts OxmlMcp.Http OxmlMcp.Access OxmlMcp.Mpsc

variable {Msg Reply : Type} {srv : Server Msg Reply}

/-- What an action enqueues for `POST` number `p`: the inbox and the message. -/
def Act.sentBy (p : Nat) : Act Msg Reply → Option (Nat × Msg)
  | .send p' g m => if p' = p then some (g, m) else none
  | _ => none

/-- What `POST` number `p` enqueued. -/
def sentBy (p : Nat) (tr : List (Act Msg Reply)) : List (Nat × Msg) :=
  tr.filterMap (Act.sentBy p)

/-- What a `POST` enqueues, run by run. -/
lemma sentBy_append (p : Nat) (tr tr' : List (Act Msg Reply)) :
    sentBy p (tr ++ tr') = sentBy p tr ++ sentBy p tr' :=
  List.filterMap_append

/-- What a `POST` enqueues it sends. -/
lemma mem_sentBy {p g : Nat} {m : Msg} {tr : List (Act Msg Reply)} :
    (g, m) ∈ sentBy p tr ↔ .send p g m ∈ tr := by
  rw [sentBy, List.mem_filterMap]
  constructor
  · rintro ⟨a, mem, e⟩
    cases a with
    | send p' g' m' =>
      by_cases ep : p' = p
      · simp only [Act.sentBy, if_pos ep] at e
        cases e
        exact ep ▸ mem
      · simp [Act.sentBy, ep] at e
    | _ => cases e
  · intro mem
    exact ⟨_, mem, by simp [Act.sentBy]⟩

/-- A step of another enqueues nothing for it. -/
lemma sentBy_other {p : Nat} {a : Act Msg Reply} (ne : Act.poster a ≠ some p) :
    sentBy p [a] = [] := by
  cases a with
  | send p' g m =>
    have off : p' ≠ p := fun e => ne (congrArg some e)
    simp [sentBy, Act.sentBy, off]
  | _ => rfl

/-- The session of `GET` number `g` is the one the request names, and it was admitted; `m` is the
message of the request. -/
def State.Routed (srv : Server Msg Reply) (s : State Msg Reply) (req : PostRequest) (g : Nat)
    (m : Msg) : Prop :=
  postChecks srv req = .ok m ∧ ∃ x, s.session g = some x ∧ x.id = req.sessionId ∧
    x.stage ≠ .opening

/-- A session that was looked up keeps its id and stays past its opening. -/
lemma State.Routed.step {s t : State Msg Reply} {a req g m} (rt : s.Routed srv req g m)
    (st : Step srv s a t) : t.Routed srv req g m := by
  obtain ⟨ok, x, h, e, stage⟩ := rt
  rcases st.session_fwd h with ⟨x', h', ch⟩ | ⟨_, stage', _⟩
  · refine ⟨ok, x', h', ch.id_eq.trans e, ?_⟩
    cases ch with
    | getAdmit _ => nofun
    | dropGuard _ => nofun
    | own sst => exact fun e => stage (sst.stage_iff.1.1 e)
    | send _ => exact stage
    | other _ => exact stage
  · exact absurd stage' stage

/-- The answers of a `POST` that enqueued nothing. -/
def refusals : List StatusCode :=
  [.payloadTooLarge, .forbidden, .unsupportedMediaType, .badRequest, .notFound, .gone]

/-- A body is handed on as it came, within the limit, or answered `413`. -/
lemma takeBody_inv (srv : Server Msg Reply) (body : List UInt8) :
    (takeBody srv body = .ok body ∧ body.length ≤ BODY_LIMIT) ∨
    ∃ r, takeBody srv body = .error r ∧ r.1 = .payloadTooLarge := by
  unfold takeBody
  split
  · exact .inr ⟨_, rfl, rfl⟩
  · exact .inl ⟨rfl, Nat.le_of_not_lt ‹_›⟩

/-- What `postChecks` lets through has a body within the limit and passed the guard. -/
lemma postChecks_ok {req m} (h : postChecks srv req = .ok m) :
    req.body.length ≤ BODY_LIMIT ∧ srv.guard.check srv.http req.headers = .ok () := by
  unfold postChecks at h
  rcases takeBody_inv srv req.body with ⟨body, le⟩ | ⟨r, body, -⟩
  · rw [body] at h
    refine ⟨le, ?_⟩
    cases guard : srv.guard.check srv.http req.headers with
    | ok _ => rfl
    | error r =>
      rw [guard] at h
      cases h
  · rw [body] at h
    cases h

/-- What `postChecks` refuses is answered with one of the refusals. -/
lemma postChecks_error {req r} (h : postChecks srv req = .error r) : r.1 ∈ refusals := by
  unfold postChecks at h
  rcases takeBody_inv srv req.body with ⟨body, -⟩ | ⟨r', body, code⟩
  · rw [body] at h
    cases guard : srv.guard.check srv.http req.headers with
    | error r' =>
      rw [guard] at h
      cases h
      simp [refusals, Guard.check_error guard]
    | ok _ =>
      rw [guard] at h
      cases json : requireJson req.headers with
      | error r' =>
        rw [json] at h
        cases h
        simp [refusals, requireJson_error json]
      | ok _ =>
        rw [json] at h
        cases parse : srv.fromSlice req.body with
        | ok m =>
          simp only [bind, Except.bind, parse] at h
          cases h
        | error e =>
          simp only [bind, Except.bind, parse] at h
          cases h
          simp [refusals]
  · rw [body] at h
    cases h
    simp [refusals, code]

/-- What a `POST` has enqueued, by how far it is. -/
def Accounts (srv : Server Msg Reply) (s : State Msg Reply) (q : Post Msg)
    (out : List (Nat × Msg)) : Prop :=
  match q.phase with
  | .entered => out = []
  | .parsed m => out = [] ∧ postChecks srv q.request = .ok m
  | .holding g m => out = [] ∧ s.Routed srv q.request g m
  | .sent g => ∃ m, out = [(g, m)] ∧ s.Routed srv q.request g m
  | .answered r =>
    (r.1 = .accepted ∧ ∃ g m, out = [(g, m)] ∧ s.Routed srv q.request g m) ∨
    (r.1 ∈ refusals ∧ out = [])
  | .dropped => out = [] ∨ ∃ g m, out = [(g, m)] ∧ s.Routed srv q.request g m

/-- The account of a `POST` that another's step leaves where it was. -/
lemma Accounts.step {s t : State Msg Reply} {a q out} (acc : Accounts srv s q out)
    (st : Step srv s a t) : Accounts srv t q out := by
  obtain ⟨req, phase⟩ := q
  cases phase with
  | entered => exact acc
  | parsed m => exact acc
  | holding g m => exact ⟨acc.1, acc.2.step st⟩
  | sent g =>
    obtain ⟨m, e, rt⟩ := acc
    exact ⟨m, e, rt.step st⟩
  | answered r =>
    rcases acc with ⟨e, g, m, e', rt⟩ | refused
    · exact .inl ⟨e, g, m, e', rt.step st⟩
    · exact .inr refused
  | dropped =>
    rcases acc with e | ⟨g, m, e, rt⟩
    · exact .inl e
    · exact .inr ⟨g, m, e, rt.step st⟩

/-- A session found in the table is the one named, and was admitted. -/
lemma TableOk.routed {s : State Msg Reply} {req g m} (ok : TableOk srv s)
    (found : s.sessions.get req.sessionId = some g) (checks : postChecks srv req = .ok m) :
    s.Routed srv req g m := by
  obtain ⟨x, h, e, listed⟩ := (ok.mem_iff _ _).1 (Sessions.mem_of_get found)
  refine ⟨checks, x, h, e, fun stage => ?_⟩
  rw [stage] at listed
  exact listed

/-- Each step of a `POST` keeps its account. -/
lemma Step.accounts {s t : State Msg Reply} {a p q q' out} (st : Step srv s a t)
    (ok : TableOk srv s) (acc : Accounts srv s q out) (ch : PostChange srv s p q a q') :
    Accounts srv t q' (out ++ sentBy p [a]) := by
  cases ch with
  | other ne =>
    rw [sentBy_other ne, List.append_nil]
    exact acc.step st
  | send h sd =>
    obtain ⟨e, rt⟩ := acc
    exact ⟨_, by simp [e, sentBy, Act.sentBy], rt.step st⟩
  | own pst =>
    rw [show ∀ b, sentBy p [(.post p b : Act Msg Reply)] = [] from fun _ => rfl, List.append_nil]
    cases pst with
    | refuse err => exact .inr ⟨postChecks_error err, acc⟩
    | parse checks => exact ⟨acc, checks⟩
    | miss _ => exact .inr ⟨by simp [refusals], acc.1⟩
    | hit found => exact ⟨acc.1, (ok.routed found acc.2).step st⟩
    | gone _ _ => exact .inr ⟨by simp [refusals], acc.1⟩
    | flush _ _ =>
      obtain ⟨m, e, rt⟩ := acc
      exact .inl ⟨rfl, _, m, e, rt.step st⟩
    | dropEntered => exact .inl acc
    | dropSent =>
      obtain ⟨m, e, rt⟩ := acc
      exact .inr ⟨_, m, e, rt.step st⟩

/-- A `POST` that has not arrived has enqueued nothing. -/
lemma absent_run {s : State Msg Reply} {tr} {p : Nat} (rn : Run (Step srv) init tr s)
    (absent : s.posts[p]? = none) : sentBy p tr = [] := by
  induction rn with
  | refl => rfl
  | @tail tr s a t rn st ih =>
    rw [sentBy_append]
    have before : s.posts[p]? = none ∧ Act.poster a ≠ some p := by
      cases st with
      | @postEnter req =>
        rw [getElem?_concat] at absent
        split at absent
        · cases absent
        · exact ⟨absent, by simp [Act.poster]⟩
      | post post _ =>
        rw [State.setPost_posts, getElem?_set_of_some post] at absent
        split at absent
        · cases absent
        · exact ⟨absent, fun e => ‹¬ _› (Option.some.inj e).symm⟩
      | send post _ _ =>
        rw [State.setPost_posts, State.setGet_posts, getElem?_set_of_some post] at absent
        split at absent
        · cases absent
        · exact ⟨absent, fun e => ‹¬ _› (Option.some.inj e).symm⟩
      | _ => exact ⟨absent, by simp [Act.poster]⟩
    rw [ih before.1, sentBy_other before.2]
    rfl

/-- The account of every `POST` holds in every reachable state. -/
theorem accounts_run {s : State Msg Reply} {tr q} {p : Nat} (rn : Run (Step srv) init tr s)
    (h : s.posts[p]? = some q) : Accounts srv s q (sentBy p tr) := by
  induction rn generalizing q with
  | refl => cases h
  | @tail tr s a t rn st ih =>
    rw [sentBy_append]
    rcases st.post_inv h with ⟨req, rfl, rfl, absent⟩ | ⟨q0, h0, ch⟩
    · rw [absent_run rn absent]
      rfl
    · exact st.accounts (run_tableOk rn) (ih h0) ch

/-- A `POST` enqueued at most one message, and only in the inbox of the session it names. -/
lemma sentBy_routed {s : State Msg Reply} {tr p g m} (rn : Run (Step srv) init tr s)
    (mem : .send p g m ∈ tr) :
    ∃ q, s.posts[p]? = some q ∧ sentBy p tr = [(g, m)] ∧ s.Routed srv q.request g m := by
  rw [← mem_sentBy] at mem
  cases h : s.posts[p]? with
  | none =>
    rw [absent_run rn h] at mem
    cases mem
  | some q =>
    refine ⟨q, rfl, ?_⟩
    have acc := accounts_run rn h
    have one : ∀ {g' m'}, sentBy p tr = [(g', m')] → s.Routed srv q.request g' m' →
        sentBy p tr = [(g, m)] ∧ s.Routed srv q.request g m := by
      intro g' m' e rt
      rw [e, List.mem_singleton] at mem
      cases mem
      exact ⟨e, rt⟩
    have none' : sentBy p tr ≠ [] := List.ne_nil_of_mem mem
    obtain ⟨req, phase⟩ := q
    cases phase with
    | entered => exact absurd acc none'
    | parsed m => exact absurd acc.1 none'
    | holding g m => exact absurd acc.1 none'
    | sent g =>
      obtain ⟨m, e, rt⟩ := acc
      exact one e rt
    | answered r =>
      rcases acc with ⟨_, g, m, e, rt⟩ | ⟨_, e⟩
      · exact one e rt
      · exact absurd e none'
    | dropped =>
      rcases acc with e | ⟨g, m, e, rt⟩
      · exact absurd e none'
      · exact one e rt

/-- A `POST` enqueues once. -/
lemma sent_nodup {s : State Msg Reply} {tr g} (rn : Run (Step srv) init tr s) :
    ((sent g tr).map Prod.fst).Nodup := by
  induction rn with
  | refl => simp [sent]
  | @tail tr s a t rn st ih =>
    rw [sent_append, List.map_append]
    cases a with
    | send p g' m =>
      by_cases e : g' = g
      · subst e
        have fresh : p ∉ (sent g' tr).map Prod.fst := by
          intro mem
          obtain ⟨⟨p', m'⟩, mem', rfl⟩ := List.mem_map.1 mem
          cases st with
          | send post _ _ =>
            -- a `POST` that is about to send has sent nothing
            have acc := (accounts_run rn post).1
            rw [mem_sent, ← mem_sentBy, acc] at mem'
            cases mem'
        have new : (sent g' [(.send p g' m : Act Msg Reply)]).map Prod.fst = [p] := by
          simp [sent, Act.inboxEv]
        rw [new, List.nodup_append]
        refine ⟨ih, by simp, ?_⟩
        rintro q memq q' memq' rfl
        rw [List.mem_singleton] at memq'
        exact fresh (memq' ▸ memq)
      · have old : sent g [(.send p g' m : Act Msg Reply)] = [] := by
          simp [sent, Act.inboxEv, e]
        simpa [old] using ih
    | session g' b =>
      have old : sent g [(.session g' b : Act Msg Reply)] = [] := by
        by_cases e : g' = g
        · cases b <;> simp [sent, Act.inboxEv, e, List.filterMap_cons]
        · cases b <;> simp [sent, Act.inboxEv, e, List.filterMap_cons]
      simpa [old] using ih
    | _ => simpa [sent, Act.inboxEv, List.filterMap_cons] using ih

/-- The endpoint event, written out. -/
lemma endpointEvent_eq (id : String) :
    endpointEvent id = ⟨"endpoint", "/messages/?sessionId=" ++ id⟩ := by
  have path : MESSAGE_PATH ++ "?sessionId=" = "/messages/?sessionId=" := by decide
  rw [endpointEvent, path]

/-- What a run delivers to the session `x` of `GET` number `g`. -/
structure SessionDelivery (srv : Server Msg Reply) (tr : List (Act Msg Reply))
    (s : State Msg Reply) (g : Nat) (x : Session Msg Reply) : Prop where
  /-- As long as the service holds its receiving end, what it received followed by what waits is
  what was sent; -/
  alive : .session g .dropInbox ∉ tr → received g tr ++ x.inbox.queue = sent g tr
  /-- and always what it received is a prefix of what was sent. -/
  pre : received g tr <+: sent g tr
  /-- Once it has dropped that end, nothing is sent any more. -/
  dead : ∀ tr1 tr2, tr = tr1 ++ .session g .dropInbox :: tr2 →
    sent g tr2 = [] ∧ received g tr2 = []
  /-- What was sent to it are exactly the messages of the `POST`s that name it and whose send
  succeeded, -/
  named : ∀ p m, (p, m) ∈ sent g tr ↔
    ∃ q g', s.posts[p]? = some q ∧ q.request.sessionId = x.id ∧ .send p g' m ∈ tr
  /-- each once. -/
  once : ((sent g tr).map Prod.fst).Nodup
  /-- A message is the one its `POST` carried. -/
  content : ∀ p m, (p, m) ∈ sent g tr →
    ∃ q, s.posts[p]? = some q ∧ postChecks srv q.request = .ok m
  /-- The client reads the endpoint event, which names the session, then an event for each message
  its service emitted, carrying it as JSON: as far as it reads, and no event for one that does not
  serialise. -/
  stream : (reads g tr).map some <+:
    some ⟨"endpoint", "/messages/?sessionId=" ++ x.id⟩ ::
      (emits g tr).map fun r => (srv.toJson r).map fun json => ⟨"message", json⟩

/-- How the answer of `POST` number `p` agrees with what it enqueued. -/
structure PostDelivery (srv : Server Msg Reply) (tr : List (Act Msg Reply))
    (s : State Msg Reply) (p : Nat) (q : Post Msg) : Prop where
  /-- Answered `202`, it was enqueued exactly once, in the inbox of the session it names. -/
  accepted : ∀ r, q.phase = .answered r → r.1 = .accepted →
    ∃ g m x, sentBy p tr = [(g, m)] ∧ s.session g = some x ∧ x.id = q.request.sessionId
  /-- Answered `403`, `415`, `400`, `404` or `410`, or by the framework `413`, it was enqueued
  nowhere, and none of its steps changed the table or a session. -/
  refused : ∀ r, q.phase = .answered r →
    r.1 ∈ [.forbidden, .unsupportedMediaType, .badRequest, .notFound, .gone, .payloadTooLarge] →
    sentBy p tr = [] ∧
    ∀ tr1 a tr2 t u, tr = tr1 ++ a :: tr2 → Run (Step srv) init tr1 t → Step srv t a u →
      Run (Step srv) u tr2 s → Act.poster a = some p → u.sessions = t.sessions ∧ u.gets = t.gets
  /-- It was answered nothing else. -/
  answers : ∀ r, q.phase = .answered r → r.1 ∈ [.accepted, .forbidden, .unsupportedMediaType,
    .badRequest, .notFound, .gone, .payloadTooLarge]
  /-- Dropped before answering, it was enqueued at most once. -/
  dropped : q.phase = .dropped → (sentBy p tr).length ≤ 1

/-- Two messages of one inbox are received in the order of their `POST`s, when the second `POST`
arrives after the first was answered `202`. -/
def InOrder (srv : Server Msg Reply) (tr : List (Act Msg Reply)) (s : State Msg Reply) : Prop :=
  ∀ tr1 tr2 t p p' q r, tr = tr1 ++ tr2 → Run (Step srv) init tr1 t → Run (Step srv) t tr2 s →
    t.posts[p]? = some q → q.phase = .answered r → r.1 = .accepted → t.posts[p']? = none →
    ∀ g m m', (p, m) ∈ sent g tr → (p', m') ∈ received g tr →
      [(p, m), (p', m')].Sublist (received g tr)

/-- Delivery and isolation, at the end `s` of a run with history `tr`. -/
structure Delivery (srv : Server Msg Reply) (tr : List (Act Msg Reply)) (s : State Msg Reply) :
    Prop where
  sessions : ∀ g x, s.session g = some x → SessionDelivery srv tr s g x
  posts : ∀ p q, s.posts[p]? = some q → PostDelivery srv tr s p q
  inOrder : InOrder srv tr s

/-- What is sent to a session is what the `POST`s naming it sent. -/
lemma sent_named {s : State Msg Reply} {tr g x} (rn : Run (Step srv) init tr s)
    (h : s.session g = some x) (p : Nat) (m : Msg) :
    (p, m) ∈ sent g tr ↔
      ∃ q g', s.posts[p]? = some q ∧ q.request.sessionId = x.id ∧ .send p g' m ∈ tr := by
  rw [mem_sent]
  constructor
  · intro mem
    obtain ⟨q, hq, _, _, x', h', e, _⟩ := sentBy_routed rn mem
    cases h.symm.trans h'
    exact ⟨q, g, hq, e.symm, mem⟩
  · rintro ⟨q, g', hq, e, mem⟩
    obtain ⟨q', hq', _, _, x', h', e', _⟩ := sentBy_routed rn mem
    cases hq.symm.trans hq'
    -- ids are used once, so the inbox is that of the session named
    have eg : g' = g := (run_tableOk rn).ids _ _ _ _ h' h (e'.trans e)
    exact eg ▸ mem

/-- What a run delivers to each session. -/
lemma session_delivery {s : State Msg Reply} {tr g x} (rn : Run (Step srv) init tr s)
    (h : s.session g = some x) : SessionDelivery srv tr s g x where
  alive live := by
    refine (fifo (inbox_run rn h)).1 ?_
    by_contra closed
    exact live ((inbox_closed_iff rn h).1 (by simpa using closed))
  pre := (fifo (inbox_run rn h)).2
  dead tr1 tr2 e := inbox_quiet (e ▸ rn) h
  named p m := sent_named rn h p m
  once := sent_nodup rn
  content p m mem := by
    obtain ⟨q, hq, _, checks, _⟩ := sentBy_routed rn (mem_sent.1 mem)
    exact ⟨q, hq, checks⟩
  stream := by
    have pre := reads_prefix rn h
    rw [expected, endpointEvent_eq] at pre
    exact pre

/-- A `POST` that enqueued nothing changed no session and not the table. -/
lemma post_frame {t u : State Msg Reply} {tr1 a tr2} {p : Nat} (st : Step srv t a u)
    (none' : sentBy p (tr1 ++ a :: tr2) = []) (about : Act.poster a = some p) :
    u.sessions = t.sessions ∧ u.gets = t.gets := by
  cases st with
  | post _ _ => exact ⟨rfl, rfl⟩
  | @send p' _ g m =>
    cases about
    have mem : (g, m) ∈ sentBy p (tr1 ++ .send p g m :: tr2) := mem_sentBy.2 (by simp)
    rw [none'] at mem
    cases mem
  | _ => cases about

/-- The answer of each `POST` agrees with what it enqueued. -/
lemma post_delivery {s : State Msg Reply} {tr q} {p : Nat} (rn : Run (Step srv) init tr s)
    (h : s.posts[p]? = some q) : PostDelivery srv tr s p q := by
  have acc := accounts_run rn h
  obtain ⟨req, phase⟩ := q
  refine ⟨?_, ?_, ?_, ?_⟩
  · rintro r rfl ok
    rcases acc with ⟨_, g, m, e, _, x, h, e', _⟩ | ⟨refused, _⟩
    · exact ⟨g, m, x, e, h, e'⟩
    · rw [ok] at refused
      exact absurd refused (by decide)
  · rintro r rfl code
    rcases acc with ⟨ok, _⟩ | ⟨_, e⟩
    · rw [ok] at code
      exact absurd code (by decide)
    · refine ⟨e, ?_⟩
      rintro tr1 a tr2 t u rfl _ st _ about
      exact post_frame st e about
  · rintro r rfl
    rcases acc with ⟨ok, _⟩ | ⟨refused, _⟩
    · simp [ok]
    · have all : refusals ⊆ [.accepted, .forbidden, .unsupportedMediaType, .badRequest, .notFound,
          .gone, .payloadTooLarge] := by decide
      exact all refused
  · rintro rfl
    rcases acc with e | ⟨g, m, e, _⟩
    · rw [e]
      exact Nat.zero_le 1
    · rw [e]
      exact Nat.le_refl 1

/-- A prefix with an element that is not in the first part has the whole of that part. -/
lemma prefix_reaches {α : Type*} {l l1 l2 : List α} {a : α} (pre : l <+: l1 ++ l2) (mem : a ∈ l)
    (notMem : a ∉ l1) : ∃ l3, l = l1 ++ l3 ∧ a ∈ l3 := by
  rcases List.prefix_or_prefix_of_prefix pre (List.prefix_append l1 l2) with le | ⟨l3, rfl⟩
  · exact absurd (le.subset mem) notMem
  · refine ⟨l3, rfl, ?_⟩
    rcases List.mem_append.1 mem with mem | mem
    · exact absurd mem notMem
    · exact mem

/-- Messages of one client that waits for its answers are received in order. -/
lemma in_order {s : State Msg Reply} {tr} (rn : Run (Step srv) init tr s) :
    InOrder srv tr s := by
  rintro tr1 tr2 t p p' q r rfl rn1 rn2 h ans ok absent g m m' mem mem'
  obtain ⟨q', _, e', _, x, hx, _⟩ := sentBy_routed rn (mem_sent.1 mem)
  -- the first was sent by the time it was answered,
  have first : (p, m) ∈ sent g tr1 := by
    obtain ⟨g0, m0, _, e, _⟩ := (post_delivery rn1 h).accepted r ans ok
    have mem0 : (g0, m0) ∈ sentBy p (tr1 ++ tr2) := by
      rw [sentBy_append, e]
      simp
    rw [e', List.mem_singleton] at mem0
    cases mem0
    rw [mem_sent, ← mem_sentBy, e]
    simp
  -- and the second was not
  have second : (p', m') ∉ sent g tr1 := by
    rw [mem_sent, ← mem_sentBy, absent_run rn1 absent]
    simp
  have whole := (fifo (inbox_run rn hx)).2
  change received g _ <+: sent g _ at whole
  rw [sent_append] at whole
  obtain ⟨rest, e, memRest⟩ := prefix_reaches whole mem' second
  rw [e]
  exact (List.singleton_sublist.2 first).append (List.singleton_sublist.2 memRest)

/-- Every run delivers, in isolation. -/
theorem delivery {s : State Msg Reply} {tr} (rn : Run (Step srv) init tr s) : Delivery srv tr s where
  sessions _ _ h := session_delivery rn h
  posts _ _ h := post_delivery rn h
  inOrder := in_order rn

/-- Two clients with a session each: a message in to each, in the other order than their streams were
opened, and one out. -/
def roundTrips : List (Act String String) :=
  [.getEnter localHeaders, .getEnter localHeaders, .getOpen 0 "a", .getOpen 1 "b", .getAdmit 0,
    .getAdmit 1, .session 0 .spawn, .session 1 .spawn, .session 0 .respond,
    .session 0 (.endpoint ⟨"endpoint", "/messages/?sessionId=a"⟩),
    .postEnter ⟨localHeaders, "b", [112, 111, 110, 103]⟩,
    .postEnter ⟨localHeaders, "a", [112, 105, 110, 103]⟩,
    .post 0 .parse, .post 1 .parse, .post 1 (.hit 0), .post 0 (.hit 1), .send 0 1 "pong",
    .send 1 0 "ping", .post 1 .flush, .session 0 (.recv 1 "ping"), .session 0 (.emit "pong"),
    .session 0 (.message "pong" ⟨"message", "pong"⟩)]

/-- The round trips are a run, at whose end session `a` is open and `POST` 1 names it. -/
lemma roundTrips_run : ∃ s x, Run (Step Server.pair) init roundTrips s ∧ s.session 0 = some x ∧
    x.id = "a" ∧ s.posts.map (fun q => q.request.sessionId) = ["b", "a"] := by
  refine ⟨_, _, .head .getEnter <| .head .getEnter <| .head (.getOpen rfl rfl ?_) <|
    .head (.getOpen rfl rfl ?_) <| .head (.getAdmit rfl rfl rfl) <|
    .head (.getAdmit rfl rfl rfl) <| .head (.session rfl (.spawn rfl)) <|
    .head (.session rfl (.spawn rfl)) <| .head (.session rfl (.respond rfl)) <|
    .head (.session rfl (.endpoint rfl rfl)) <| .head .postEnter <| .head .postEnter <|
    .head (.post rfl (.parse (m := "pong") rfl)) <|
    .head (.post rfl (.parse (m := "ping") rfl)) <|
    .head (.post rfl (.hit rfl)) <| .head (.post rfl (.hit rfl)) <|
    .head (.send rfl rfl rfl) <| .head (.send rfl rfl rfl) <|
    .head (.post rfl (.flush rfl (.inr (by decide)))) <|
    .head (.session rfl (.recv (k := 0) trivial rfl)) <|
    .head (.session rfl (.emit trivial rfl (.inr nofun) rfl)) <|
    .head (.session rfl (.message rfl rfl rfl rfl)) .refl, rfl, rfl, rfl⟩
  · intro g x h
    rcases g with _ | _ | g <;> cases h
  · intro g x h
    rcases g with _ | _ | g
    · cases h
      decide
    · cases h
    · cases h

/-- The round trips of two clients are a run, and deliver to each what was posted to it. -/
theorem delivery_roundTrips :
    ∃ s, Run (Step Server.pair) init roundTrips s ∧ Delivery Server.pair roundTrips s ∧
      received 0 roundTrips = [(1, "ping")] ∧ sent 1 roundTrips = [(0, "pong")] := by
  obtain ⟨s, x, rn, -⟩ := roundTrips_run
  exact ⟨s, rn, delivery rn, rfl, rfl⟩

end OxmlMcp.Sse
