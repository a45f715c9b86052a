import OxmlMcp.Lts.Log
import OxmlMcp.Lts.Parties
import OxmlMcp.Sessions.Overshoot

/-!
# What the callers see

The session manager seen from outside: a map of sessions that answers one call after the other, each
at one moment between the call and its answer. `Serve` is that map. Its cap can be a rule, that a
session is added only below it, or advice, that says only when a call may be refused; and a restore
may be refused only for an id that is not live, or for any. A call may also fail, for a reason of the
inner manager's, and a close may remove its id though its caller has given it up.

* `Step.inv`: a step is a call, or it moves one call on, and then the log tells its answer if it has
  one.
* `told`: the log of a run names every answered call once, with what it asked, and beside them only
  closes given up with their effect made.
* `Step.serves`: what a step does to the map is what its answer tells.
* `serves_advised`, `serves_capped`, `serves_alone`: the log of a run is a run of the map.
-/

namespace OxmlMcp.Sessions
open OxmlMcp.Lts

/-- The map operated on one call at a time, which is answered, or given up. With `room` it adds a
session only below the cap; with `fresh` it refuses to restore no session that is live. -/
inductive Serve (max : Nat) (room fresh : Bool) :
    Finset SessionId → Call × Option Outcome → Finset SessionId → Prop where
  | created {S id} :
    id ∉ S →
    (room → S.card < max) →
    Serve max room fresh S (.create, some (.created id)) (insert id S)
  | createFailed {S e} :
    (room → S.card < max) →
    Serve max room fresh S (.create, some (.inner e)) S
  | createFull {S} :
    max ≤ S.card →
    Serve max room fresh S (.create, some (.full max)) S
  | restored {S id} :
    id ∉ S →
    (room → S.card < max) →
    Serve max room fresh S (.restore id, some .restored) (insert id S)
  | alreadyPresent {S id} :
    id ∈ S →
    Serve max room fresh S (.restore id, some .alreadyPresent) S
  | restoreFailed {S id e} :
    (room → id ∉ S → S.card < max) →
    Serve max room fresh S (.restore id, some (.inner e)) S
  | restoreFull {S id} :
    (fresh → id ∉ S) →
    max ≤ S.card →
    Serve max room fresh S (.restore id, some (.full max)) S
  | closed {S id} :
    Serve max room fresh S (.close id, some .closed) (S.erase id)
  | closeFailed {S id gone e} :
    Serve max room fresh S (.close id, some (.inner e)) (unclosed S id gone)
  | closeDropped {S id} :
    Serve max room fresh S (.close id, none) (S.erase id)

/-- The call that an action makes. -/
def arrival : Act → Option Call
  | .call k => some k
  | _ => none

/-- The calls made in a trace, in their order: a call's number is its position. -/
def arrivals (tr : List Act) : List Call :=
  tr.filterMap arrival

lemma arrivals_call (tr : List Act) (k : Call) : arrivals (tr ++ [.call k]) = arrivals tr ++ [k] :=
  List.filterMap_append

/-- What an action tells of a call that it ends: the call's number, what it asked, and the answer. A
call that is dropped tells nothing, unless it had its effect: a close that removed its id. -/
def answer (max : Nat) (s : State) : Act → Option (Nat × Call × Option Outcome)
  | .createLen c => if atCap max s then some (c, .create, some (.full max)) else none
  | .createInner c id => some (c, .create, some (.created id))
  | .createFailed c e => some (c, .create, some (.inner e))
  | .restoreLen c id => if atCap max s then some (c, .restore id, some (.full max)) else none
  | .restoreInner c id => some (c, .restore id, some (restoreOutcome s id))
  | .restoreFailed c id e => some (c, .restore id, some (.inner e))
  | .closeInner c id => some (c, .close id, some .closed)
  | .closeFailed c id _ e => some (c, .close id, some (.inner e))
  | .closeDropped c id => some (c, .close id, none)
  | _ => none

/-- Where a call stands that has been told of with the answer `o`. -/
def ended : Option Outcome → Call
  | some o => .answered o
  | none => .dropped

/-- What a call under way asked. -/
def Call.asked : Call → Option Call
  | .create => some .create
  | .creating => some .create
  | .restore id => some (.restore id)
  | .restoreAbsent id => some (.restore id)
  | .restoring id => some (.restore id)
  | .close id => some (.close id)
  | .answered _ => none
  | .dropped => none

/-- A call that has ended is not under way, asks nothing and promises nothing. -/
lemma ended_spent (o : Option Outcome) :
    ¬ (ended o).Live ∧ (ended o).asked = none ∧ (ended o).isPromised = false := by
  cases o <;> exact ⟨id, rfl, rfl⟩

/-- One call's step: call `c` moves on from `k` to `k'`, and either nothing is told or the answer
told is where `c` now stands. -/
structure Moves (max : Nat) (s : State) (a : Act) (t : State) (c : Nat) (k k' : Call) : Prop where
  here : s.calls[c]? = some k
  live : k.Live
  calls : t.calls = s.calls.set c k'
  noCall : arrival a = none
  log :
    answer max s a = none ∧ (∀ o, k' ≠ .answered o) ∧
      (∀ op, k'.asked = some op → k.asked = some op) ∨
    ∃ op o, answer max s a = some (c, op, o) ∧ k.asked = some op ∧ k' = ended o ∧
      (o = none → ∃ id, op = .close id)
  absent : ∀ id, k' = .restoreAbsent id → id ∉ t.sessions

/-- A length check of a call standing at `k` for a promise, under way for what `k` asked. -/
lemma Moves.check {max s a c} {k promise op : Call} (here : s.calls[c]? = some k) (live : k.Live)
    (asked : k.asked = some op) (asked' : promise.asked = some op)
    (pr : promise.isPromised) (noCall : arrival a = none)
    (tells : answer max s a = if atCap max s then some (c, op, some (.full max)) else none) :
    Moves max s a (s.become c (if atCap max s then .answered (.full max) else promise)) c k
      (if atCap max s then .answered (.full max) else promise) where
  here := here
  live := live
  calls := rfl
  noCall := noCall
  log := by
    rw [tells]
    cases atCap max s with
    | true => exact .inr ⟨op, some (.full max), rfl, asked, rfl, fun e => by cases e⟩
    | false =>
      refine .inl ⟨rfl, fun o e => ?_, fun op' e => ?_⟩
      · simp only [Bool.false_eq_true, if_false] at e
        simp [e, Call.asked] at asked'
      · simp only [Bool.false_eq_true, if_false, asked'] at e
        cases e
        exact asked
  absent id e := by
    split at e
    · cases e
    · simp [e, Call.isPromised] at pr

/-- The step that ends a call and tells of it. -/
lemma Moves.ends {max s a t c} {k op : Call} {o : Option Outcome} (here : s.calls[c]? = some k)
    (live : k.Live) (calls : t.calls = s.calls.set c (ended o)) (noCall : arrival a = none)
    (asked : k.asked = some op) (tells : answer max s a = some (c, op, o))
    (gone : o = none → ∃ id, op = .close id) : Moves max s a t c k (ended o) where
  here := here
  live := live
  calls := calls
  noCall := noCall
  log := .inr ⟨op, o, tells, asked, rfl, gone⟩
  absent id e := by cases o <;> cases e

/-- A step is a call, or it moves one call on. -/
lemma Step.inv {max s a t} (st : Step max s a t) :
    (∃ k, a = .call k ∧ k.Entry ∧ t = s.enter k) ∨ ∃ c k k', Moves max s a t c k k' := by
  cases st with
  | call en => exact .inl ⟨_, rfl, en, rfl⟩
  | createLen h => exact .inr ⟨_, _, _, .check h trivial rfl rfl rfl rfl rfl⟩
  | restoreLen h => exact .inr ⟨_, _, _, .check h trivial rfl rfl rfl rfl rfl⟩
  | @contains c id h =>
    refine .inr ⟨c, _, _, h, trivial, rfl, rfl, .inl ⟨rfl, ?_, ?_⟩, ?_⟩
    · intro o
      unfold afterContains
      split <;> simp
    · intro op e
      unfold afterContains at e
      split at e <;> exact e
    · intro id' e
      unfold afterContains at e
      split at e
      · cases e
      · cases e
        assumption
  | createInner h _ => exact .inr ⟨_, _, _, .ends h trivial rfl rfl rfl rfl (by simp)⟩
  | createFailed h => exact .inr ⟨_, _, _, .ends h trivial rfl rfl rfl rfl (by simp)⟩
  | restoreInner h => exact .inr ⟨_, _, _, .ends h trivial rfl rfl rfl rfl (by simp)⟩
  | restoreFailed h => exact .inr ⟨_, _, _, .ends h trivial rfl rfl rfl rfl (by simp)⟩
  | closeInner h => exact .inr ⟨_, _, _, .ends h trivial rfl rfl rfl rfl (by simp)⟩
  | closeFailed h => exact .inr ⟨_, _, _, .ends h trivial rfl rfl rfl rfl (by simp)⟩
  | closeDropped h => exact .inr ⟨_, _, _, .ends h trivial rfl rfl rfl rfl (by simp)⟩
  | drop h live =>
    refine .inr ⟨_, _, _, h, live, rfl, rfl, .inl ⟨rfl, by simp, ?_⟩, by simp⟩
    simp [Call.asked]

/-- A run of the manager, under a guard, with the log of what it answered. -/
def Answering (G : State → Act → Prop) (max : Nat) (tr : List Act) (s : State)
    (h : List (Nat × Call × Option Outcome)) : Prop :=
  Run (Logged (Guarded (Step max) G) (answer max)) (init, []) tr (s, h)

/-- The log `h` of a trace `tr` to `s` tells what the calls were answered, and of no other call but
a close that was dropped with its id removed. -/
structure Told (tr : List Act) (s : State) (h : List (Nat × Call × Option Outcome)) : Prop where
  length : s.calls.length = (arrivals tr).length
  asked : ∀ (c : Nat) k op, s.calls[c]? = some k → k.asked = some op →
    (arrivals tr)[c]? = some op
  mem : ∀ (c : Nat) op o, (c, op, some o) ∈ h ↔
    (arrivals tr)[c]? = some op ∧ s.calls[c]? = some (.answered o)
  gone : ∀ (c : Nat) op, (c, op, none) ∈ h →
    (arrivals tr)[c]? = some op ∧ s.calls[c]? = some .dropped ∧ ∃ id, op = .close id
  once : (h.map Prod.fst).Nodup

lemma Told.init : Told [] init [] where
  length := rfl
  asked c k op here := by cases here
  mem c op o := by simp [arrivals]
  gone c op mem := by cases mem
  once := List.nodup_nil

/-- A new call, not yet answered. -/
lemma Told.call {tr s h k} (told : Told tr s h) (en : k.Entry) :
    Told (tr ++ [.call k]) (s.enter k) h where
  length := by
    rw [arrivals_call, State.enter_calls, List.length_append, List.length_append, told.length]
  asked c k' op here asked := by
    rw [State.enter_calls, getElem?_concat, told.length] at here
    rw [arrivals_call, getElem?_concat]
    split at here
    · rw [if_pos ‹_›]
      cases here
      cases en <;> exact asked
    · rw [if_neg ‹_›]
      exact told.asked c k' op here asked
  mem c op o := by
    rw [told.mem, State.enter_calls, arrivals_call, getElem?_concat, getElem?_concat,
      ← told.length]
    split
    · -- the new number is in no log, and the new call is not answered
      subst c
      rw [List.getElem?_eq_none le_rfl]
      simp only [reduceCtorEq, and_false, false_iff, not_and]
      cases en <;> simp
    · rfl
  gone c op mem := by
    obtain ⟨asked, dropped, close⟩ := told.gone c op mem
    have lt := (List.getElem?_eq_some_iff.1 dropped).1
    rw [arrivals_call, State.enter_calls, getElem?_concat, getElem?_concat, ← told.length,
      if_neg lt.ne, if_neg lt.ne]
    exact ⟨asked, dropped, close⟩
  once := told.once

/-- A call under way is in no log. -/
lemma Told.unlogged {tr s h} {c : Nat} {k : Call} (told : Told tr s h) (here : s.calls[c]? = some k)
    (live : k.Live) (op : Call) (o : Option Outcome) : (c, op, o) ∉ h := by
  intro mem
  cases o with
  | some o =>
    obtain ⟨-, answered⟩ := (told.mem c op o).1 mem
    rw [here] at answered
    cases answered
    exact live
  | none =>
    obtain ⟨-, dropped, -⟩ := told.gone c op mem
    rw [here] at dropped
    cases dropped
    exact live

/-- What is logged of one call stays so when another call moves on. -/
lemma Told.gone_set {tr s h c k} (told : Told tr s h) (here : s.calls[c]? = some k) (live : k.Live)
    (k' : Call) (i : Nat) (op : Call) (mem : (i, op, none) ∈ h) :
    (arrivals tr)[i]? = some op ∧ (s.calls.set c k')[i]? = some .dropped ∧ ∃ id, op = .close id := by
  obtain ⟨asked, dropped, close⟩ := told.gone i op mem
  refine ⟨asked, ?_, close⟩
  rw [getElem?_set_of_some here, if_neg]
  · exact dropped
  · rintro rfl
    exact told.unlogged here live op none mem

/-- What a call asked is known as long as it is under way. -/
lemma Told.asked_set {tr s h c k k'} (told : Told tr s h) (here : s.calls[c]? = some k)
    (keep : ∀ op, k'.asked = some op → k.asked = some op) (i : Nat) (ki op : Call)
    (at' : (s.calls.set c k')[i]? = some ki) (asked : ki.asked = some op) :
    (arrivals tr)[i]? = some op := by
  rw [getElem?_set_of_some here] at at'
  split at at'
  · subst i
    cases at'
    exact told.asked c k op here (keep op asked)
  · exact told.asked i ki op at' asked

/-- A call moves on and is not answered. -/
lemma Told.quiet {tr s h a t} {c : Nat} {k k' : Call} (told : Told tr s h)
    (here : s.calls[c]? = some k) (live : k.Live) (calls : t.calls = s.calls.set c k')
    (noCall : arrival a = none) (unanswered : ∀ o, k' ≠ .answered o)
    (keep : ∀ op, k'.asked = some op → k.asked = some op) : Told (tr ++ [a]) t h := by
  have same : arrivals (tr ++ [a]) = arrivals tr := by simp [arrivals, noCall]
  constructor
  · rw [calls, same, List.length_set, told.length]
  · rw [calls, same]
    exact told.asked_set here keep
  · intro i op o
    rw [same, calls, getElem?_set_of_some here]
    split
    · subst i
      have before : (c, op, some o) ∉ h := told.unlogged here live op (some o)
      have after : some k' ≠ some (.answered o) := fun e => unanswered o (Option.some.inj e)
      exact iff_of_false before fun both => after both.2
    · exact told.mem i op o
  · rw [same, calls]
    exact told.gone_set here live k'
  · exact told.once

/-- A call ends, and is logged. -/
lemma Told.answer {tr s h a t} {c : Nat} {k op : Call} {o : Option Outcome} (told : Told tr s h)
    (here : s.calls[c]? = some k) (live : k.Live) (calls : t.calls = s.calls.set c (ended o))
    (noCall : arrival a = none) (asked : k.asked = some op) (gone : o = none → ∃ id, op = .close id) :
    Told (tr ++ [a]) t (h ++ [(c, op, o)]) := by
  have same : arrivals (tr ++ [a]) = arrivals tr := by simp [arrivals, noCall]
  have origin := told.asked c k op here asked
  have spent := (ended_spent o).2.1
  constructor
  · rw [calls, same, List.length_set, told.length]
  · rw [calls, same]
    exact told.asked_set here fun op e => by simp [spent] at e
  · intro i op' o'
    rw [same, calls, getElem?_set_of_some here, List.mem_append]
    split
    · subst i
      rw [origin]
      cases o <;> simp [told.unlogged here live op' (some o'), ended, eq_comm]
    · simp [told.mem, *]
  · intro i op' mem
    rcases List.mem_append.1 mem with mem | mem
    · rw [same, calls]
      exact told.gone_set here live _ i op' mem
    · cases List.mem_singleton.1 mem
      rw [same, calls, getElem?_set_of_some here, if_pos rfl]
      exact ⟨origin, rfl, gone rfl⟩
  · rw [List.map_append, List.nodup_append]
    refine ⟨told.once, List.nodup_singleton c, ?_⟩
    rintro i mem j mem' rfl
    obtain ⟨⟨i', op', o'⟩, logged, rfl⟩ := List.mem_map.1 mem
    obtain rfl : i' = c := List.mem_singleton.1 mem'
    exact told.unlogged here live op' o' logged

/-- A call that moves on, and is logged if that is told. -/
lemma Told.move {tr s h a t max c k k'} (told : Told tr s h) (mv : Moves max s a t c k k') :
    Told (tr ++ [a]) t (h ++ (Sessions.answer max s a).toList) := by
  rcases mv.log with ⟨e, unanswered, keep⟩ | ⟨op, o, e, asked, rfl, gone⟩
  · rw [e, Option.toList_none, List.append_nil]
    exact told.quiet mv.here mv.live mv.calls mv.noCall unanswered keep
  · rw [e, Option.toList_some]
    exact told.answer mv.here mv.live mv.calls mv.noCall asked gone

/-- The log of a run tells what the calls were answered: each answer once, with its call. -/
lemma told {G max tr s h} (rn : Answering G max tr s h) : Told tr s h := by
  unfold Answering at rn
  generalize e : (s, h) = q at rn
  induction rn generalizing s h with
  | refl =>
    cases e
    exact Told.init
  | @tail tr p a q rn st ih =>
    cases e
    obtain ⟨⟨st, -⟩, e⟩ := st
    have before : Told tr p.1 p.2 := ih rfl
    simp only at e st
    rw [e]
    rcases st.inv with ⟨k, rfl, en, rfl⟩ | ⟨c, k, k', mv⟩
    · simpa [answer] using before.call en
    · exact before.move mv

/-- A promised insertion is counted beside the live sessions. -/
lemma State.card_lt_reserved {s : State} {c : Nat} {k} (h : s.calls[c]? = some k)
    (pr : k.isPromised) (new : ∀ id, k = .restoring id → id ∉ s.sessions) :
    s.sessions.card < s.reserved := by
  have mem := List.mem_of_getElem? h
  cases k with
  | creating =>
    have one : 0 < s.creating := List.countP_pos_iff.2 ⟨_, mem, rfl⟩
    have le := Finset.card_le_card (Finset.subset_union_left : s.sessions ⊆ s.sessions ∪ s.restoring)
    rw [State.reserved]
    omega
  | restoring id =>
    have held : id ∈ s.restoring := by
      rw [State.restoring, List.mem_toFinset]
      exact List.mem_filterMap.2 ⟨_, mem, rfl⟩
    have sub : insert id s.sessions ⊆ s.sessions ∪ s.restoring :=
      Finset.insert_subset (Finset.mem_union_right _ held) Finset.subset_union_left
    have le := Finset.card_le_card sub
    rw [Finset.card_insert_of_notMem (new id rfl)] at le
    rw [State.reserved]
    omega
  | _ => cases pr

/-- What a step does to the map is what its answer tells. -/
lemma Step.serves {max s a t} {room fresh : Bool} (st : Step max s a t)
    (reserved : room → s.reserved ≤ max)
    (absent : fresh → ∀ (c : Nat) id, s.calls[c]? = some (.restoreAbsent id) → id ∉ s.sessions) :
    Seen (Serve max room fresh) s.sessions ((answer max s a).map Prod.snd) t.sessions := by
  cases st with
  | call _ => rfl
  | createLen h =>
    simp only [answer]
    split
    · show Serve max room fresh s.sessions (.create, some (.full max)) s.sessions
      exact .createFull (atCap_eq_true.1 ‹_›)
    · rfl
  | createInner h new =>
    refine .created new fun hr => ?_
    exact (State.card_lt_reserved h rfl fun id e => by cases e).trans_le (reserved hr)
  | contains h => rfl
  | @restoreLen c id h =>
    simp only [answer]
    split
    · show Serve max room fresh s.sessions (.restore id, some (.full max)) s.sessions
      exact .restoreFull (fun hf => absent hf c id h) (atCap_eq_true.1 ‹_›)
    · rfl
  | @restoreInner c id h =>
    simp only [answer, Option.map_some, Seen, restoreOutcome, State.settle_sessions]
    split
    · rw [Finset.insert_eq_of_mem ‹_›]
      exact .alreadyPresent ‹_›
    · rename_i new
      refine .restored new fun hr => ?_
      refine (State.card_lt_reserved h rfl fun id' e => ?_).trans_le (reserved hr)
      cases e
      exact new
  | createFailed h =>
    refine .createFailed fun hr => ?_
    exact (State.card_lt_reserved h rfl fun id e => by cases e).trans_le (reserved hr)
  | @restoreFailed c id e h =>
    refine .restoreFailed fun hr new => ?_
    refine (State.card_lt_reserved h rfl fun id' e => ?_).trans_le (reserved hr)
    cases e
    exact new
  | closeInner h => exact .closed
  | closeFailed h => exact .closeFailed
  | closeDropped h => exact .closeDropped
  | drop h _ => rfl

/-- No call is made before the last one is over. -/
def Alone (s : State) : Act → Prop
  | .call _ => ∀ k ∈ s.calls, ¬ k.Live
  | _ => True

/-- Where calls are made one at a time: at most one is under way, and what it has read is still so. -/
structure Sole (s : State) : Prop where
  one : ∀ (c : Nat) c' k k', s.calls[c]? = some k → s.calls[c']? = some k' → k.Live → k'.Live →
    c = c'
  absent : ∀ (c : Nat) id, s.calls[c]? = some (.restoreAbsent id) → id ∉ s.sessions

lemma Sole.init : Sole init where
  one c c' k k' here := by cases here
  absent c id here := by cases here

lemma Sole.step {max s a t} (sole : Sole s) (st : Step max s a t) (alone : Alone s a) : Sole t := by
  rcases st.inv with ⟨k, rfl, en, rfl⟩ | ⟨c, k, k', mv⟩
  · have others : ∀ (c : Nat) k', (s.enter k).calls[c]? = some k' → k'.Live →
        c = s.calls.length ∧ k' = k := by
      intro c k' here live
      rw [State.enter_calls, getElem?_concat] at here
      split at here
      · cases here
        exact ⟨‹_›, rfl⟩
      · exact absurd live (alone k' (List.mem_of_getElem? here))
    constructor
    · intro i i' ki ki' here here' live live'
      rw [(others i ki here live).1, (others i' ki' here' live').1]
    · intro i id here
      obtain ⟨-, e⟩ := others i _ here trivial
      rw [← e] at en
      cases en
  · have stand := getElem?_set_of_some mv.here k'
    rw [← mv.calls] at stand
    -- every other call is over, as the one that moves was under way
    have others : ∀ (i : Nat) ki, t.calls[i]? = some ki → ki.Live → i = c ∧ ki = k' := by
      intro i ki here live
      rw [stand] at here
      split at here
      · cases here
        exact ⟨‹_›, rfl⟩
      · exact absurd (sole.one i c ki k here mv.here live mv.live) ‹_›
    constructor
    · intro i i' ki ki' here here' live live'
      rw [(others i ki here live).1, (others i' ki' here' live').1]
    · intro i id here
      obtain ⟨-, e⟩ := others i _ here trivial
      exact mv.absent id e.symm

lemma Call.live_of_promised {k : Call} (pr : k.isPromised) : k.Live := by
  cases k with
  | creating => trivial
  | restoring id => trivial
  | _ => cases pr

/-- With no session promised, the live ones are all that is reserved. -/
lemma State.reserved_of_promised {s : State} (none' : s.promised = 0) :
    s.reserved = s.sessions.card := by
  apply State.reserved_eq_card
  intro k mem
  simpa using List.countP_eq_zero.1 none' k mem

/-- A check made while no session is promised leaves room. -/
lemma RoomLeft.of_promised {max s a} (none' : (s : State).promised = 0) : RoomLeft max s a := by
  have room := State.reserved_of_promised none'
  cases a with
  | createLen c => exact fun lt => room ▸ lt
  | restoreLen c id => exact fun lt => .inl (room ▸ lt)
  | _ => trivial

/-- A call that makes its check while no other is under way finds no session promised. -/
lemma Sole.promised {s} (sole : Sole s) {c : Nat} {k : Call} (here : s.calls[c]? = some k)
    (live : k.Live) (no : k.isPromised = false) : s.promised = 0 := by
  rw [State.promised, List.countP_eq_zero]
  intro k' mem pr
  obtain ⟨i, h⟩ := List.mem_iff_getElem?.1 mem
  have e := sole.one i c k' k h here (Call.live_of_promised pr) live
  rw [e, here] at h
  cases h
  simp [no] at pr

/-- Where calls are made one at a time, every check leaves room. -/
lemma Sole.room {max s a t} (sole : Sole s) (st : Step max s a t) : RoomLeft max s a := by
  cases st with
  | createLen h => exact .of_promised (sole.promised h trivial rfl)
  | restoreLen h => exact .of_promised (sole.promised h trivial rfl)
  | _ => trivial

/-- Under any interleaving the map answers as one whose cap is advice. -/
lemma serves_advised {max tr s h} (rn : Answering (fun _ _ => True) max tr s h) :
    Run (Serve max false false) ∅ (h.map Prod.snd) s.sessions := by
  refine (rn.log_refines (I := fun _ => True) State.sessions Prod.snd ?_ ?_ trivial).2
  · intro s a t _ _
    trivial
  · intro s a t _ st
    exact st.1.serves (fun hr => by cases hr) (fun hf => by cases hf)

/-- Where every check that passes leaves room, the map answers as one with its cap as a rule, except
that it may refuse to restore a session that is live. -/
lemma serves_capped {max tr s h} (rn : Answering (RoomLeft max) max tr s h) :
    Run (Serve max true false) ∅ (h.map Prod.snd) s.sessions := by
  refine (rn.log_refines (I := fun s => s.reserved ≤ max) State.sessions Prod.snd ?_ ?_
    (Nat.zero_le max)).2
  · intro s a t le st
    exact st.1.reserved_le st.2 le
  · intro s a t le st
    exact st.1.serves (fun _ => le) (fun hf => by cases hf)

/-- Where calls are made one at a time, the map answers as one with its cap as a rule. -/
lemma serves_alone {max tr s h} (rn : Answering Alone max tr s h) :
    Run (Serve max true true) ∅ (h.map Prod.snd) s.sessions := by
  refine (rn.log_refines (I := fun s => Sole s ∧ s.reserved ≤ max) State.sessions Prod.snd ?_ ?_
    ⟨Sole.init, Nat.zero_le max⟩).2
  · rintro s a t ⟨sole, le⟩ ⟨st, alone⟩
    exact ⟨sole.step st alone, st.reserved_le (sole.room st) le⟩
  · rintro s a t ⟨sole, le⟩ ⟨st, -⟩
    exact st.serves (fun _ => le) (fun _ => sole.absent)

end OxmlMcp.Sessions
