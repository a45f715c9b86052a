import OxmlMcp.Sse.Inversion

/-!
# The channels of a session

Whatever the rest of the server does, what a run does to the inbox of a session is a run of the
channel, and so is what it does to the outbox (`inbox_run`, `outbox_run`): the two are projections of
the session's life along `Act.inboxEv` and `Act.outboxEv`. So the channel's own laws hold of them:

* `sent g tr`, `received g tr`, `emits g tr`: what the history `tr` enqueued in the inbox of `GET`
  number `g`, what the service received, and what it emitted.
* `reads_prefix`: what the client reads is the endpoint event and then one event for each message
  emitted, as far as it reads.
-/

namespace OxmlMcp.Sse
open OxmlMcp.Lts OxmlMcp.Http OxmlMcp.Access OxmlMcp.Mpsc

variable {Msg Reply : Type} {srv : Server Msg Reply}

/-- What an action does to the inbox of `GET` number `g`. -/
def Act.inboxEv (g : Nat) : Act Msg Reply → Option (Ev Nat Msg)
  | .send p g' m => if g' = g then some (.send p m) else none
  | .session g' (.recv p m) => if g' = g then some (.recv p m) else none
  | .session g' .dropInbox => if g' = g then some .close else none
  | _ => none

/-- What an action does to the outbox of `GET` number `g`. -/
def Act.outboxEv (g : Nat) : Act Msg Reply → Option (Ev Unit Reply)
  | .session g' (.emit r) => if g' = g then some (.send () r) else none
  | .session g' (.message r _) => if g' = g then some (.recv () r) else none
  | .session g' (.fail r) => if g' = g then some (.recv () r) else none
  | .session g' .hangUp => if g' = g then some .close else none
  | _ => none

/-- The event that the client of `GET` number `g` reads with an action. -/
def Act.read (g : Nat) : Act Msg Reply → Option Event
  | .session g' (.endpoint e) => if g' = g then some e else none
  | .session g' (.message _ e) => if g' = g then some e else none
  | _ => none

/-- What was enqueued in the inbox of `GET` number `g`, each message with the `POST` that sent it. -/
def sent (g : Nat) (tr : List (Act Msg Reply)) : List (Nat × Msg) :=
  sends (tr.filterMap (Act.inboxEv g))

/-- What the service of `GET` number `g` received. -/
def received (g : Nat) (tr : List (Act Msg Reply)) : List (Nat × Msg) :=
  recvs (tr.filterMap (Act.inboxEv g))

/-- What the service of `GET` number `g` emitted. -/
def emits (g : Nat) (tr : List (Act Msg Reply)) : List Reply :=
  (sends (tr.filterMap (Act.outboxEv g))).map Prod.snd

/-- What the client of `GET` number `g` read. -/
def reads (g : Nat) (tr : List (Act Msg Reply)) : List Event :=
  tr.filterMap (Act.read g)

lemma sent_append (g : Nat) (tr tr' : List (Act Msg Reply)) :
    sent g (tr ++ tr') = sent g tr ++ sent g tr' := by
  simp [sent]

/-- What is not about a `GET` is not seen on its channels or its stream. -/
lemma Act.unseen {g : Nat} {a : Act Msg Reply} (ne : Act.get a ≠ some g) :
    a.inboxEv g = none ∧ a.outboxEv g = none ∧ a.read g = none := by
  cases a with
  | session g' b =>
    have off : g' ≠ g := fun e => ne (congrArg some e)
    cases b <;> simp [Act.inboxEv, Act.outboxEv, Act.read, off]
  | send p g' m =>
    have off : g' ≠ g := fun e => ne (congrArg some e)
    simp [Act.inboxEv, Act.outboxEv, Act.read, off]
  | _ => exact ⟨rfl, rfl, rfl⟩

lemma Act.inboxEv_eq_send {g p : Nat} {m : Msg} {a : Act Msg Reply} :
    a.inboxEv g = some (.send p m) ↔ a = .send p g m := by
  cases a with
  | send p' g' m' => by_cases e : g' = g <;> simp [Act.inboxEv, e]
  | session g' b => cases b <;> simp [Act.inboxEv]
  | _ => simp [Act.inboxEv]

lemma Act.inboxEv_eq_close {g : Nat} {a : Act Msg Reply} :
    a.inboxEv g = some .close ↔ a = .session g .dropInbox := by
  cases a with
  | send p' g' m' => simp [Act.inboxEv]
  | session g' b => cases b <;> simp [Act.inboxEv]
  | _ => simp [Act.inboxEv]

lemma mem_sent {g p : Nat} {m : Msg} {tr : List (Act Msg Reply)} :
    (p, m) ∈ sent g tr ↔ .send p g m ∈ tr := by
  simp [sent, mem_sends, List.mem_filterMap, Act.inboxEv_eq_send]

lemma Change.inbox {g x a x'} (ch : Change srv g x a x') :
    Seen Mpsc.Step x.inbox (a.inboxEv g) x'.inbox := by
  cases ch with
  | getAdmit _ => rfl
  | dropGuard _ => rfl
  | other ne => rw [(Act.unseen ne).1]; rfl
  | send sd => simpa [Act.inboxEv, Seen] using Mpsc.Step.send sd
  | own st =>
    cases st with
    | recv _ rc => simpa [Act.inboxEv, Seen] using Mpsc.Step.recv rc
    | dropInbox _ _ => simpa [Act.inboxEv, Seen] using Mpsc.Step.close
    | _ => rfl

lemma Change.outbox {g x a x'} (ch : Change srv g x a x') :
    Seen Mpsc.Step x.outbox (a.outboxEv g) x'.outbox := by
  cases ch with
  | getAdmit _ => rfl
  | dropGuard _ => rfl
  | other ne => rw [(Act.unseen ne).2.1]; rfl
  | send _ => rfl
  | own st =>
    cases st with
    | emit _ _ _ sd => simpa [Act.outboxEv, Seen] using Mpsc.Step.send sd
    | message _ _ rc _ => simpa [Act.outboxEv, Seen] using Mpsc.Step.recv rc
    | fail _ _ rc _ => simpa [Act.outboxEv, Seen] using Mpsc.Step.recv rc
    | hangUp _ => simpa [Act.outboxEv, Seen] using Mpsc.Step.close
    | _ => rfl

/-- Before its session is set up a `GET` is not seen on any channel or stream. -/
lemma filterMap_quiet {β : Type} {g : Nat} {see : Act Msg Reply → Option β}
    (unseen : ∀ {a}, Act.get a ≠ some g → see a = none) {tr1 id tr2}
    (quiet : ∀ a ∈ tr1, Act.get a ≠ some g) (open' : see (.getOpen g id) = none) :
    (tr1 ++ .getOpen g id :: tr2).filterMap see = tr2.filterMap see := by
  have none' : tr1.filterMap see = [] := by
    rw [List.filterMap_eq_nil_iff]
    intro a mem
    exact unseen (quiet a mem)
  simp [none', open']

/-- What a run does to the inbox of a session is a run of the channel. -/
theorem inbox_run {s : State Msg Reply} {tr g x} (rn : Run (Step srv) init tr s)
    (h : s.session g = some x) :
    Run Mpsc.Step (channel bufferSize) (tr.filterMap (Act.inboxEv g)) x.inbox := by
  obtain ⟨tr1, id, tr2, rfl, quiet, life⟩ := session_run rn h
  rw [filterMap_quiet (fun ne => (Act.unseen ne).1) quiet rfl]
  exact life.project Session.inbox Change.inbox

/-- What a run does to the outbox of a session is a run of the channel. -/
theorem outbox_run {s : State Msg Reply} {tr g x} (rn : Run (Step srv) init tr s)
    (h : s.session g = some x) :
    Run Mpsc.Step (channel bufferSize) (tr.filterMap (Act.outboxEv g)) x.outbox := by
  obtain ⟨tr1, id, tr2, rfl, quiet, life⟩ := session_run rn h
  rw [filterMap_quiet (fun ne => (Act.unseen ne).2.1) quiet rfl]
  exact life.project Session.outbox Change.outbox

/-- The receiving end of an inbox is gone exactly when the service dropped it. -/
lemma inbox_closed_iff {s : State Msg Reply} {tr g x} (rn : Run (Step srv) init tr s)
    (h : s.session g = some x) : x.inbox.isOpen = false ↔ .session g .dropInbox ∈ tr := by
  simp [closed_iff_mem (inbox_run rn h), List.mem_filterMap, Act.inboxEv_eq_close]

lemma inbox_quiet {s : State Msg Reply} {tr1 tr2 g x}
    (rn : Run (Step srv) init (tr1 ++ .session g .dropInbox :: tr2) s) (h : s.session g = some x) :
    sent g tr2 = [] ∧ received g tr2 = [] := by
  have life := inbox_run rn h
  rw [List.filterMap_append, List.filterMap_cons_some (b := .close) (by simp [Act.inboxEv])] at life
  obtain ⟨c, _, rest⟩ := life.split
  obtain ⟨c', cl, rest⟩ := (show Run Mpsc.Step c ([.close] ++ tr2.filterMap (Act.inboxEv g)) x.inbox
    from rest).split
  have closed : c'.isOpen = false := by
    obtain ⟨tr3, tr4, t, t', e, _, st, rn4⟩ := cl.step_of_mem (List.mem_singleton_self _)
    cases st
    exact (closed_quiet rfl rn4).1
  exact (closed_quiet closed rest).2

/-- The events that the client of a session is to read for the messages its service emitted: none
for one that does not serialise. -/
def expected (srv : Server Msg Reply) (id : String) (rs : List Reply) : List (Option Event) :=
  some (endpointEvent id) :: rs.map fun r => (srv.toJson r).map messageEvent

/-- What the stream has yielded at a session, against what it took from the outbox. -/
structure StreamOk (srv : Server Msg Reply) (g : Nat) (tr : List (Act Msg Reply))
    (x : Session Msg Reply) : Prop where
  early : x.stage = .opening ∨ x.stage = .admitted ∨ x.stage = .spawned → x.endpoint = true
  unread : x.endpoint = true → reads g tr = [] ∧ recvs (tr.filterMap (Act.outboxEv g)) = []
  read : x.stage = .streaming → x.endpoint = false →
    (reads g tr).map some =
      expected srv x.id ((recvs (tr.filterMap (Act.outboxEv g))).map Prod.snd)
  pre : (reads g tr).map some <+:
    expected srv x.id ((recvs (tr.filterMap (Act.outboxEv g))).map Prod.snd)

lemma StreamOk.quiet {g tr a x x'} (ok : StreamOk srv g tr x) (id : x'.id = x.id)
    (endpoint : x'.endpoint = x.endpoint) (read : Act.read g a = none)
    (recv : recvs (([a] : List (Act Msg Reply)).filterMap (Act.outboxEv g)) = [])
    (early : x'.stage = .opening ∨ x'.stage = .admitted ∨ x'.stage = .spawned →
      x'.endpoint = true)
    (streaming : x'.stage = .streaming → x'.endpoint = false → x.stage = .streaming) :
    StreamOk srv g (tr ++ [a]) x' := by
  have e1 : reads g (tr ++ [a]) = reads g tr := by simp [reads, read]
  have e2 : recvs ((tr ++ [a]).filterMap (Act.outboxEv g)) =
      recvs (tr.filterMap (Act.outboxEv g)) := by
    rw [List.filterMap_append, recvs_append, recv, List.append_nil]
  exact {
    early := early
    unread := fun e => by rw [e1, e2]; exact ok.unread (endpoint ▸ e)
    read := fun st e => by rw [e1, e2, id]; exact ok.read (streaming st e) (endpoint ▸ e)
    pre := by rw [e1, e2, id]; exact ok.pre }

lemma Change.streamOk {g tr x a x'} (ok : StreamOk srv g tr x) (ch : Change srv g x a x') :
    StreamOk srv g (tr ++ [a]) x' := by
  cases ch with
  | getAdmit stage =>
    refine ok.quiet rfl rfl rfl rfl (fun _ => ok.early (.inl stage)) nofun
  | dropGuard stage => exact ok.quiet rfl rfl rfl rfl (by simp) nofun
  | send sd => exact ok.quiet rfl rfl rfl rfl ok.early fun st _ => st
  | other ne =>
    refine ok.quiet rfl rfl (Act.unseen ne).2.2 ?_ ok.early fun st _ => st
    simp [(Act.unseen ne).2.1]
  | own st =>
    cases st with
    | spawn stage => exact ok.quiet rfl rfl rfl rfl (fun _ => ok.early (.inr (.inl stage))) nofun
    | respond stage =>
      -- the stream starts with the endpoint event still to be read
      refine ok.quiet rfl rfl rfl rfl (by simp) fun _ e => ?_
      cases e.symm.trans (ok.early (.inr (.inr stage)))
    | hangUp stage => exact ok.quiet rfl rfl rfl (by simp [Act.outboxEv]) (by simp) nofun
    | recv _ rc => exact ok.quiet rfl rfl rfl rfl ok.early fun st _ => st
    | emit _ _ _ sd =>
      exact ok.quiet rfl rfl rfl (by simp [Act.outboxEv]) ok.early fun st _ => st
    | dropInbox _ _ => exact ok.quiet rfl rfl rfl rfl ok.early fun st _ => st
    | endpoint stage unread =>
      obtain ⟨none', none''⟩ := ok.unread unread
      have e : (reads g (tr ++ [.session g (.endpoint (endpointEvent x.id))])).map some =
          expected srv x.id ((recvs ((tr ++ [Act.session g (.endpoint (endpointEvent x.id))]).filterMap
            (Act.outboxEv g))).map Prod.snd) := by
        simp only [reads] at none'
        simp [reads, Act.read, Act.outboxEv, expected, none', none'', List.filterMap_cons]
      exact ⟨by simp [stage], nofun, fun _ _ => e, e ▸ List.prefix_rfl⟩
    | @message r json outbox stage read rc ser =>
      have e : (reads g (tr ++ [.session g (.message r (messageEvent json))])).map some =
          expected srv x.id ((recvs ((tr ++ [Act.session g (.message r (messageEvent json))]).filterMap
            (Act.outboxEv g))).map Prod.snd) := by
        have before := ok.read stage read
        simp only [reads, expected] at before
        simp [reads, Act.read, Act.outboxEv, expected, before, ser]
      exact ⟨by simp [stage], by simp [read], fun _ _ => e, e ▸ List.prefix_rfl⟩
    | @fail r outbox stage read rc ser =>
      -- the message that does not serialise is taken and no event comes of it
      have e1 : reads g (tr ++ [.session g (.fail r)]) = reads g tr := by simp [reads, Act.read]
      refine ⟨by simp, fun e => ?_, nofun, ?_⟩
      · cases read.symm.trans e
      rw [e1]
      refine ok.pre.trans ?_
      simp [expected, Act.outboxEv]

/-- What the stream of a session has yielded agrees with what it took from the outbox. -/
lemma stream_run {s : State Msg Reply} {tr g x} (rn : Run (Step srv) init tr s)
    (h : s.session g = some x) : StreamOk srv g tr x := by
  obtain ⟨tr1, id, tr2, rfl, quiet, life⟩ := session_run rn h
  have ok : StreamOk srv g tr2 x := by
    refine life.invariantTr ?_ Change.streamOk
    exact ⟨fun _ => rfl, fun _ => ⟨rfl, rfl⟩, nofun, List.nil_prefix⟩
  have e1 : reads g (tr1 ++ .getOpen g id :: tr2) = reads g tr2 :=
    filterMap_quiet (fun ne => (Act.unseen ne).2.2) quiet rfl
  have e2 : (tr1 ++ .getOpen g id :: tr2).filterMap (Act.outboxEv g) =
      tr2.filterMap (Act.outboxEv g) :=
    filterMap_quiet (fun ne => (Act.unseen ne).2.1) quiet rfl
  obtain ⟨early, unread, read, pre⟩ := ok
  rw [← e1, ← e2] at unread read pre
  exact ⟨early, unread, read, pre⟩

/-- What the client reads is the endpoint event and then one event for each message its service
emitted, in order, as far as it reads and as far as they serialise. -/
theorem reads_prefix {s : State Msg Reply} {tr g x} (rn : Run (Step srv) init tr s)
    (h : s.session g = some x) :
    (reads g tr).map some <+: expected srv x.id (emits g tr) := by
  obtain ⟨rest, e⟩ := (fifo (outbox_run rn h)).2
  refine (stream_run rn h).pre.trans ?_
  simp [expected, emits, ← e]

/-- A client whose stream has nothing more for it has read all. -/
lemma reads_all {s : State Msg Reply} {tr g x} (rn : Run (Step srv) init tr s)
    (h : s.session g = some x) (stage : x.stage = .streaming) (read : x.endpoint = false)
    (open' : x.outbox.isOpen = true) (none' : x.outbox.queue = []) :
    (reads g tr).map some = expected srv x.id (emits g tr) := by
  have all := (fifo (outbox_run rn h)).1 open'
  rw [none', List.append_nil] at all
  rw [(stream_run rn h).read stage read, all]
  rfl

end OxmlMcp.Sse
