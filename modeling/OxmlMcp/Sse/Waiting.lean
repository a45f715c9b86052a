import OxmlMcp.Sse.Inbox

/-!
# How far clients run ahead of a service

An inbox is a channel with back pressure: a `POST` whose message stands past the buffer is parked, and
answered when a receive lets it go. Which of those that wait a receive lets go is not fixed; but it is
one, so that the clients of a session are never more than the buffer ahead of its service.

* `sent_phase`: a `POST` that has put its message in waits, is answered `202`, or is dropped.
* `accepted_unparked`: a `POST` that was answered is parked no more.
* `accepted_ahead`: so as many `POST`s at most are answered `202` as the service has received
  messages, and 32 more.
-/

namespace OxmlMcp.Sse
open OxmlMcp.Lts OxmlMcp.Http OxmlMcp.Access OxmlMcp.Mpsc

variable {Msg Reply : Type} {srv : Server Msg Reply}

/-- Whether a `POST` was answered `202`. -/
def PostPhase.accepted : PostPhase Msg → Bool
  | .answered r => r.1 == .accepted
  | _ => false

/-- The number of `POST`s for the session `id` that were answered `202`. -/
def State.accepted (s : State Msg Reply) (id : String) : Nat :=
  s.posts.countP fun q => q.request.sessionId == id && q.phase.accepted

/-- What becomes of a `POST` that has put its message in an inbox. -/
lemma sent_phase {s : State Msg Reply} {tr p g m} (rn : Run (Step srv) init tr s)
    (mem : .send p g m ∈ tr) :
    ∃ req phase, s.posts[p]? = some ⟨req, phase⟩ ∧
      (phase = .sent g ∨ (∃ r, phase = .answered r ∧ r.1 = .accepted) ∨ phase = .dropped) := by
  obtain ⟨⟨req, phase⟩, h, out, -⟩ := sentBy_routed rn mem
  refine ⟨req, phase, h, ?_⟩
  have acc := accounts_run rn h
  rw [out] at acc
  cases phase with
  | entered => cases acc
  | parsed m' => cases acc.1
  | holding g' m' => cases acc.1
  | sent g' =>
    obtain ⟨m', e, -⟩ := acc
    cases e
    exact .inl rfl
  | answered r =>
    rcases acc with ⟨ok, -⟩ | ⟨-, e⟩
    · exact .inr (.inl ⟨r, rfl, ok⟩)
    · cases e
  | dropped => exact .inr (.inr rfl)

/-- A `POST` that was answered is parked in no inbox. -/
lemma accepted_unparked {s : State Msg Reply} {tr g x q} {p : Nat} (rn : Run (Step srv) init tr s)
    (h : s.session g = some x) (post : s.posts[p]? = some q) (acc : q.phase.accepted) :
    p ∉ x.inbox.parked := by
  intro mem
  obtain ⟨req, phase, post', rfl | rfl⟩ := parked_sent rn g x p h mem
  · cases post.symm.trans post'
    cases acc
  · cases post.symm.trans post'
    cases acc

/-- A `POST` that names a session and was answered `202` has sent its message there. -/
lemma accepted_sent {s : State Msg Reply} {tr g x q} {p : Nat} (rn : Run (Step srv) init tr s)
    (h : s.session g = some x) (post : s.posts[p]? = some q) (named : q.request.sessionId = x.id)
    (acc : q.phase.accepted) : p ∈ (sent g tr).map Prod.fst := by
  obtain ⟨req, phase⟩ := q
  cases phase with
  | answered r =>
    obtain ⟨g', m, x', out, h', id⟩ := (post_delivery rn post).accepted r rfl (eq_of_beq acc)
    have same : g' = g := (run_tableOk rn).ids _ _ _ _ h' h (id.trans named)
    have mem : (g', m) ∈ sentBy p tr := by
      rw [out]
      exact List.mem_singleton_self _
    rw [mem_sentBy, same] at mem
    exact List.mem_map_of_mem (f := Prod.fst) (mem_sent.2 mem)
  | _ => cases acc

/-- As long as a service holds its receiver, the `POST`s for its session that were answered `202` are
at most 32 more than the messages it has received; and a `POST` that has put its message in waits
there, was answered `202`, or was dropped. -/
theorem accepted_ahead {s : State Msg Reply} {tr g x} (rn : Run (Step srv) init tr s)
    (h : s.session g = some x) :
    (.session g .dropInbox ∉ tr → s.accepted x.id ≤ (received g tr).length + bufferSize) ∧
    ∀ p m, (p, m) ∈ sent g tr → ∃ req phase, s.posts[p]? = some ⟨req, phase⟩ ∧
      (phase = .sent g ∨ (∃ r, phase = .answered r ∧ r.1 = .accepted) ∨ phase = .dropped) := by
  refine ⟨fun alive => ?_, fun p m mem => sent_phase rn (mem_sent.1 mem)⟩
  have open' : x.inbox.isOpen = true := by
    rw [← Bool.not_eq_false, inbox_closed_iff rn h]
    exact alive
  have once := sent_nodup (g := g) rn
  -- those that have sent and are parked no more
  let free := ((sent g tr).map Prod.fst).filter fun p => decide (p ∉ x.inbox.parked)
  have few : free.length ≤ bufferSize + (received g tr).length := by
    apply unparked_le (inbox_run rn h) open' once (once.filter _)
    intro p mem
    obtain ⟨mem, unparked⟩ := List.mem_filter.1 mem
    exact ⟨mem, of_decide_eq_true unparked⟩
  have all : s.accepted x.id ≤ free.length := by
    apply countP_le_length
    intro p q post answered
    obtain ⟨named, acc⟩ := Bool.and_eq_true_iff.1 answered
    have mem := accepted_sent rn h post (eq_of_beq named) acc
    exact List.mem_filter.2 ⟨mem, decide_eq_true (accepted_unparked rn h post acc)⟩
  omega

/-- 32 clients are answered, as far ahead of a service that has received nothing as they can be: the
next one, whose message is in the inbox, is not answered. -/
theorem accepted_ahead_flood :
    ∃ s x, Run (Step Server.sample) init (pings bufferSize ++ pingUpToSend bufferSize) s ∧
      s.session 0 = some x ∧ s.accepted x.id ≤ 0 + bufferSize ∧ s.accepted x.id = bufferSize ∧
      s.posts[bufferSize]? = some ⟨ping, .sent 0⟩ := by
  obtain ⟨s, rn, wt⟩ := pings_run (Nat.le_refl bufferSize)
  obtain ⟨t, x, rn', _, posts, h, id, _⟩ := wt.send
  have whole := rn.trans rn'
  have alive : (.session 0 .dropInbox : Act String String) ∉
      pings bufferSize ++ pingUpToSend bufferSize := by
    simp [pings, pingUpToSend]
  have none' : received 0 (pings bufferSize ++ pingUpToSend bufferSize) = [] := by decide
  have bound := (accepted_ahead whole h).1 alive
  rw [none', List.length_nil] at bound
  refine ⟨t, x, whole, h, bound, ?_, ?_⟩
  · rw [id, State.accepted, posts, wt.posts]
    decide
  · rw [posts, getElem?_concat, if_pos wt.length.symm]

end OxmlMcp.Sse
