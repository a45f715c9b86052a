import OxmlMcp.Sessions.History

/-!
# All histories of the manager

Which sequences of answers the callers can see, at three degrees of interleaving. Every history that
the map of `Sessions/History.lean` has is one of the manager: the calls are made first and brought to
where only the step that answers them is left, or as far as the guard lets them go, and then answered
in the order of the history.

* `perform`: a call that stands ready answers as the map does.
* `prepare`: any number of calls can be brought to stand ready.
* `histories_exact`: the histories under any interleaving, where every check that passes leaves room,
  and where calls are made one at a time.
-/

namespace OxmlMcp.Sessions
open OxmlMcp.Lts

/-- `es` is what the manager answers in some run under the guard `G`, in this order, with `none` for a
close given up after it had removed its id, and `S` are the sessions then live. -/
def History (G : State → Act → Prop) (max : Nat) (es : List (Call × Option Outcome))
    (S : Finset SessionId) : Prop :=
  ∃ tr s h, Answering G max tr s h ∧ h.map Prod.snd = es ∧ s.sessions = S

/-- Whether an action reads the length. -/
def Act.isCheck : Act → Bool
  | .createLen _ => true
  | .restoreLen _ _ => true
  | _ => false

/-- The guard stops no length check made with at most `n` sessions promised, and no other step of a
call. -/
def Lets (G : State → Act → Prop) (n : Nat) : Prop :=
  ∀ s a, arrival a = none → (a.isCheck → (s : State).promised ≤ n) → G s a

/-- All interleavings take all steps, -/
lemma Lets.any (n : Nat) : Lets (fun _ _ => True) n :=
  fun _ _ _ _ => trivial

/-- so do calls made one at a time, -/
lemma Lets.sole (n : Nat) : Lets Alone n := by
  intro s a noCall _
  cases a with
  | call k => cases noCall
  | _ => trivial

/-- and calls that are left room, where none is promised any. -/
lemma Lets.room (max : Nat) {n : Nat} (none' : n = 0) : Lets (RoomLeft max) n := by
  intro s a noCall few
  subst none'
  cases a with
  | createLen c => exact .of_promised (Nat.le_zero.1 (few rfl))
  | restoreLen c id => exact .of_promised (Nat.le_zero.1 (few rfl))
  | _ => trivial

/-- A step of a call that reads no length is not stopped. -/
lemma Lets.free {G n s a} (lets : Lets G n) (noCall : arrival a = none) (no : a.isCheck = false) :
    G s a := by
  apply lets s a noCall
  intro check
  rw [no] at check
  cases check

/-- From `s` call `c` can be answered as `e` has it, with nothing else logged, leaving the sessions
`S`. -/
def Does (G : State → Act → Prop) (max c : Nat) (s : State) (e : Call × Option Outcome)
    (S : Finset SessionId) : Prop :=
  ∀ h, ∃ tr, Run (Logged (Guarded (Step max) G) (answer max)) (s, h) tr
    (s.settle c (ended e.2) S, h ++ [(c, e)])

/-- A call that moves on twice is where it went last. -/
@[simp] lemma State.become_settle (s : State) (c : Nat) (k k' : Call) (S : Finset SessionId) :
    (s.become c k).settle c k' S = s.settle c k' S := by
  simp [State.become, State.settle]

section
variable {G : State → Act → Prop} {max c : Nat} {s : State} {a : Act} {op : Call}
  {o : Option Outcome} {e : Call × Option Outcome} {S : Finset SessionId}

/-- The step that answers. -/
lemma Does.last (st : Step max s a (s.settle c (ended o) S)) (g : G s a)
    (tells : answer max s a = some (c, op, o)) : Does G max c s (op, o) S :=
  fun _ => ⟨[a], .single (.told ⟨st, g⟩ tells)⟩

/-- A step that answers nothing. -/
lemma Does.next {k} (st : Step max s a (s.become c k)) (g : G s a) (quiet : answer max s a = none)
    (rest : Does G max c (s.become c k) e S) : Does G max c s e S := by
  intro h
  obtain ⟨tr, rn⟩ := rest h
  rw [State.become_settle] at rn
  exact ⟨a :: tr, .head (.quiet ⟨st, g⟩ quiet) rn⟩

end

/-- Where a call is brought to stand before it answers: with `room` it makes its length check when it
answers, and with `fresh` its membership check too. -/
def phase (room fresh : Bool) : Call × Option Outcome → Call
  | (.create, some (.created _)) => if room then .create else .creating
  | (.create, some (.inner _)) => if room then .create else .creating
  | (.restore id, some (.full _)) => if fresh then .restore id else .restoreAbsent id
  | (.restore id, _) => if room then .restore id else .restoring id
  | (k, _) => k

section
variable {max c : Nat} {s : State} {id : SessionId}

/-- A length check below the cap lets the call through. -/
lemma create_below (here : s.calls[c]? = some .create) (lt : s.sessions.card < max) :
    Step max s (.createLen c) (s.become c .creating) ∧ answer max s (.createLen c) = none := by
  have below : atCap max s = false := by simpa [atCap] using lt
  have check : Step max _ _ _ := .createLen here
  rw [afterCreateLen, below, if_neg Bool.false_ne_true] at check
  exact ⟨check, by simp [answer, below]⟩

/-- A restore of an absent id passes its length check below the cap, -/
lemma restore_below (here : s.calls[c]? = some (.restoreAbsent id)) (lt : s.sessions.card < max) :
    Step max s (.restoreLen c id) (s.become c (.restoring id)) ∧
      answer max s (.restoreLen c id) = none := by
  have below : atCap max s = false := by simpa [atCap] using lt
  have check : Step max _ _ _ := .restoreLen here
  rw [afterRestoreLen, below, if_neg Bool.false_ne_true] at check
  exact ⟨check, by simp [answer, below]⟩

/-- A length check at the cap answers `Full`. -/
lemma create_full (here : s.calls[c]? = some .create) (ge : max ≤ s.sessions.card) :
    Step max s (.createLen c) (s.become c (.answered (.full max))) ∧
      answer max s (.createLen c) = some (c, .create, some (.full max)) := by
  have full : atCap max s = true := atCap_eq_true.2 ge
  have check : Step max _ _ _ := .createLen here
  rw [afterCreateLen, full, if_pos rfl] at check
  exact ⟨check, by simp [answer, full]⟩

/-- and is refused at the cap. -/
lemma restore_full (here : s.calls[c]? = some (.restoreAbsent id)) (ge : max ≤ s.sessions.card) :
    Step max s (.restoreLen c id) (s.become c (.answered (.full max))) ∧
      answer max s (.restoreLen c id) = some (c, .restore id, some (.full max)) := by
  have full : atCap max s = true := atCap_eq_true.2 ge
  have check : Step max _ _ _ := .restoreLen here
  rw [afterRestoreLen, full, if_pos rfl] at check
  exact ⟨check, by simp [answer, full]⟩

/-- The membership check of an id that is not live. -/
lemma contains_absent (here : s.calls[c]? = some (.restore id)) (new : id ∉ s.sessions) :
    Step max s (.contains c id) (s.become c (.restoreAbsent id)) := by
  have check : Step max _ _ _ := .contains here
  rwa [afterContains, if_neg new] at check

/-- A restore of a live id skips the length check. -/
lemma contains_live (here : s.calls[c]? = some (.restore id)) (mem : id ∈ s.sessions) :
    Step max s (.contains c id) (s.become c (.restoring id)) := by
  have check : Step max _ _ _ := .contains here
  rwa [afterContains, if_pos mem] at check

/-- Where a call stands that has moved on. -/
lemma become_here {k : Call} (here : s.calls[c]? = some k) (k' : Call) :
    (s.become c k').calls[c]? = some k' := by
  rw [State.become_calls, getElem?_set_of_some here, if_pos rfl]

end

section
variable {G : State → Act → Prop} {max n c : Nat} {s : State} {id : SessionId}

/-- A restore past its checks answers whether its id is live, or fails. -/
lemma does_restoring (lets : Lets G n) (here : s.calls[c]? = some (.restoring id)) :
    (id ∈ s.sessions → Does G max c s (.restore id, some .alreadyPresent) s.sessions) ∧
    (id ∉ s.sessions → Does G max c s (.restore id, some .restored) (insert id s.sessions)) ∧
    ∀ e, Does G max c s (.restore id, some (.inner e)) s.sessions := by
  have inner : Step max _ _ _ := .restoreInner here
  refine ⟨?_, ?_, ?_⟩
  · intro mem
    rw [restoreOutcome, if_pos mem, Finset.insert_eq_of_mem mem] at inner
    apply Does.last inner (lets.free rfl rfl)
    rw [answer, restoreOutcome, if_pos mem]
  · intro new
    rw [restoreOutcome, if_neg new] at inner
    apply Does.last inner (lets.free rfl rfl)
    rw [answer, restoreOutcome, if_neg new]
  · intro e
    exact .last (.restoreFailed here) (lets.free rfl rfl) rfl

/-- A creation below the cap, from its beginning. -/
lemma does_create (lets : Lets G n) (few : s.promised ≤ n) (here : s.calls[c]? = some .create)
    (lt : s.sessions.card < max) :
    (∀ id ∉ s.sessions, Does G max c s (.create, some (.created id)) (insert id s.sessions)) ∧
    ∀ e, Does G max c s (.create, some (.inner e)) s.sessions := by
  obtain ⟨check, quiet⟩ := create_below here lt
  constructor
  · intro id new
    apply Does.next check (lets _ _ rfl fun _ => few) quiet
    exact .last (.createInner (become_here here _) new) (lets.free rfl rfl) rfl
  · intro e
    apply Does.next check (lets _ _ rfl fun _ => few) quiet
    exact .last (.createFailed (become_here here _)) (lets.free rfl rfl) rfl

/-- A restore of an absent id from the length check on. -/
lemma does_restoreAbsent (lets : Lets G n) (few : s.promised ≤ n)
    (here : s.calls[c]? = some (.restoreAbsent id)) :
    (s.sessions.card < max → id ∉ s.sessions →
      Does G max c s (.restore id, some .restored) (insert id s.sessions)) ∧
    (s.sessions.card < max → ∀ e, Does G max c s (.restore id, some (.inner e)) s.sessions) ∧
    (max ≤ s.sessions.card → Does G max c s (.restore id, some (.full max)) s.sessions) := by
  refine ⟨?_, ?_, ?_⟩
  · intro lt new
    obtain ⟨check, quiet⟩ := restore_below here lt
    apply Does.next check (lets _ _ rfl fun _ => few) quiet
    exact (does_restoring lets (become_here here _)).2.1 new
  · intro lt e
    obtain ⟨check, quiet⟩ := restore_below here lt
    apply Does.next check (lets _ _ rfl fun _ => few) quiet
    exact (does_restoring lets (become_here here _)).2.2 e
  · intro ge
    obtain ⟨check, tells⟩ := restore_full here ge
    exact .last check (lets _ _ rfl fun _ => few) tells

/-- A restore of a live id from its beginning. -/
lemma does_restore_live (lets : Lets G n) (here : s.calls[c]? = some (.restore id))
    (mem : id ∈ s.sessions) :
    Does G max c s (.restore id, some .alreadyPresent) s.sessions ∧
    ∀ e, Does G max c s (.restore id, some (.inner e)) s.sessions := by
  have check : Step max _ _ _ := contains_live here mem
  constructor
  · apply Does.next check (lets.free rfl rfl) rfl
    exact (does_restoring lets (become_here here _)).1 mem
  · intro e
    apply Does.next check (lets.free rfl rfl) rfl
    exact (does_restoring lets (become_here here _)).2.2 e

/-- A restore of an absent id from its beginning. -/
lemma does_restore_absent (lets : Lets G n) (few : s.promised ≤ n)
    (here : s.calls[c]? = some (.restore id)) (new : id ∉ s.sessions) :
    (s.sessions.card < max →
      Does G max c s (.restore id, some .restored) (insert id s.sessions)) ∧
    (s.sessions.card < max → ∀ e, Does G max c s (.restore id, some (.inner e)) s.sessions) ∧
    (max ≤ s.sessions.card → Does G max c s (.restore id, some (.full max)) s.sessions) := by
  have few' : (s.become c (.restoreAbsent id)).promised ≤ n := by
    obtain ⟨lt, e⟩ := List.getElem?_eq_some_iff.1 here
    simpa [State.promised, List.countP_set lt, e, Call.isPromised] using few
  have check : Step max _ _ _ := contains_absent here new
  obtain ⟨restored, failed, full⟩ := does_restoreAbsent lets few' (become_here here _)
  refine ⟨?_, ?_, ?_⟩
  · intro lt
    exact .next check (lets.free rfl rfl) rfl (restored lt new)
  · intro lt e
    exact .next check (lets.free rfl rfl) rfl (failed lt e)
  · intro ge
    exact .next check (lets.free rfl rfl) rfl (full ge)

end

/-- A call that stands ready answers as the map does. -/
lemma perform {G : State → Act → Prop} {max n c : Nat} {s : State} {room fresh : Bool} {S S' e}
    (lets : Lets G n) (few : s.promised ≤ n) (same : s.sessions = S)
    (here : s.calls[c]? = some (phase room fresh e)) (sv : Serve max room fresh S e S') :
    Does G max c s e S' := by
  subst same
  cases sv with
  | created new lt =>
    cases room with
    | true => exact (does_create lets few here (lt rfl)).1 _ new
    | false => exact .last (.createInner here new) (lets.free rfl rfl) rfl
  | createFailed lt =>
    cases room with
    | true => exact (does_create lets few here (lt rfl)).2 _
    | false => exact .last (.createFailed here) (lets.free rfl rfl) rfl
  | createFull ge =>
    obtain ⟨check, tells⟩ := create_full here ge
    exact .last check (lets _ _ rfl fun _ => few) tells
  | restored new lt =>
    cases room with
    | true => exact (does_restore_absent lets few here new).1 (lt rfl)
    | false => exact (does_restoring lets here).2.1 new
  | alreadyPresent mem =>
    cases room with
    | true => exact (does_restore_live lets here mem).1
    | false => exact (does_restoring lets here).1 mem
  | @restoreFailed id e lt =>
    cases room with
    | true =>
      by_cases mem : id ∈ s.sessions
      · exact (does_restore_live lets here mem).2 e
      · exact (does_restore_absent lets few here mem).2.1 (lt rfl mem) e
    | false => exact (does_restoring lets here).2.2 e
  | restoreFull new ge =>
    cases fresh with
    | true => exact (does_restore_absent lets few here (new rfl)).2.2 ge
    | false => exact (does_restoreAbsent lets few here).2.2 ge
  | closed => exact .last (.closeInner here) (lets.free rfl rfl) rfl
  | closeFailed => exact .last (.closeFailed here) (lets.free rfl rfl) rfl
  | closeDropped => exact .last (.closeDropped here) (lets.free rfl rfl) rfl

/-- The map answers calls as clients make them. -/
lemma Serve.entry {max room fresh S e S'} (sv : Serve max room fresh S e S') : e.1.Entry := by
  cases sv <;> constructor

/-- With `room` a call that stands ready has promised nothing. -/
lemma phase_not_promised {fresh e} (en : (e : Call × Option Outcome).1.Entry) :
    (phase true fresh e).isPromised = false := by
  obtain ⟨k, o⟩ := e
  cases en with
  | restore => rcases o with _ | _ | _ | _ | _ | _ | _ <;> cases fresh <;> rfl
  | _ => rcases o with _ | _ | _ | _ | _ | _ | _ <;> rfl

/-- With `room` and `fresh` a call stands ready where it begins. -/
lemma phase_alone {e} (en : (e : Call × Option Outcome).1.Entry) : phase true true e = e.1 := by
  obtain ⟨k, o⟩ := e
  cases en <;> rcases o with _ | _ | _ | _ | _ | _ | _ <;> rfl

/-- With no session live, a new call can be brought to stand at `k`, and nothing is logged. -/
def Brings (G : State → Act → Prop) (max : Nat) (s : State) (k : Call) : Prop :=
  ∃ tr t, Run (Logged (Guarded (Step max) G) (answer max)) (s, []) tr (t, []) ∧
    t.sessions = ∅ ∧ t.calls = s.calls ++ [k]

section
variable {G : State → Act → Prop} {max : Nat} {s : State} {k k' : Call}

/-- A call is made where no session is live. -/
lemma Brings.enter (en : k.Entry) (g : G s (.call k)) (none' : s.sessions = ∅) :
    Brings G max s k :=
  ⟨_, _, .single (.quiet ⟨.call en, g⟩ rfl), none', rfl⟩

/-- The new call moves on by a step that answers nothing. -/
lemma Brings.move (at' : Brings G max s k)
    (on : ∀ t : State, t.sessions = ∅ → t.calls[s.calls.length]? = some k →
      ∃ a, Step max t a (t.become s.calls.length k') ∧ G t a ∧ answer max t a = none) :
    Brings G max s k' := by
  obtain ⟨tr, t, rn, none', calls⟩ := at'
  have here : t.calls[s.calls.length]? = some k := by
    rw [calls, List.getElem?_concat_length]
  obtain ⟨a, st, g, quiet⟩ := on t none' here
  refine ⟨tr ++ [a], _, .tail rn (.quiet ⟨st, g⟩ quiet), none', ?_⟩
  simp [calls]

end

/-- With no session live, one more call can be brought to stand ready. -/
lemma prepare_one {G : State → Act → Prop} {max : Nat} {room fresh : Bool} {s e} (pos : 0 < max)
    (arrive : ∀ s k, G s (.call k)) (lets : ∀ n, (room → n = 0) → Lets G n)
    (none' : (s : State).sessions = ∅) (en : (e : Call × Option Outcome).1.Entry) :
    Brings G max s (phase room fresh e) := by
  obtain ⟨k, o⟩ := e
  have below : ∀ t : State, t.sessions = ∅ → t.sessions.card < max := by
    intro t none'
    rwa [none', Finset.card_empty]
  have entered : Brings G max s k := .enter en (arrive s k) none'
  cases en with
  | create =>
    -- past its length check, unless it is to be made when the call answers
    have past : room = false → Brings G max s .creating := by
      rintro rfl
      apply entered.move
      intro t none' here
      obtain ⟨check, quiet⟩ := create_below here (below t none')
      exact ⟨_, check, lets t.promised (fun e => by cases e) _ _ rfl fun _ => le_rfl, quiet⟩
    have ready : Brings G max s (if room then .create else .creating) := by
      cases room with
      | true => exact entered
      | false => exact past rfl
    rcases o with _ | _ | _ | _ | _ | _ | _
    · exact entered
    · exact ready
    · exact entered
    · exact entered
    · exact entered
    · exact entered
    · exact ready
  | @restore id =>
    have absent : Brings G max s (.restoreAbsent id) := by
      apply entered.move
      intro t none' here
      have new : id ∉ t.sessions := by simp [none']
      exact ⟨_, contains_absent here new, (lets 0 fun _ => rfl).free rfl rfl, rfl⟩
    have past : room = false → Brings G max s (.restoring id) := by
      rintro rfl
      apply absent.move
      intro t none' here
      obtain ⟨check, quiet⟩ := restore_below here (below t none')
      exact ⟨_, check, lets t.promised (fun e => by cases e) _ _ rfl fun _ => le_rfl, quiet⟩
    have ready : Brings G max s (if room then .restore id else .restoring id) := by
      cases room with
      | true => exact entered
      | false => exact past rfl
    rcases o with _ | _ | _ | _ | _ | _ | _
    · exact ready
    · exact ready
    · exact ready
    · exact ready
    · exact ready
    · cases fresh with
      | true => exact entered
      | false => exact absent
    · exact ready
  | close => rcases o with _ | _ | _ | _ | _ | _ | _ <;> exact entered

/-- With no session live, any number of calls can be brought to stand ready. -/
lemma prepare {G : State → Act → Prop} {max : Nat} {room fresh : Bool} (pos : 0 < max)
    (arrive : ∀ s k, G s (.call k)) (lets : ∀ n, (room → n = 0) → Lets G n)
    (ps : List (Call × Option Outcome)) (en : ∀ e ∈ ps, e.1.Entry) :
    ∃ tr s, Answering G max tr s [] ∧ s.sessions = ∅ ∧ s.calls = ps.map (phase room fresh) := by
  induction ps using List.reverseRecOn with
  | nil => exact ⟨[], init, .refl, rfl, rfl⟩
  | append_singleton ps e ih =>
    obtain ⟨tr1, s, rn1, none', calls⟩ := ih fun e' mem => en e' (List.mem_append_left _ mem)
    have last := en e (List.mem_append_right _ (List.mem_singleton_self e))
    have brings : Brings G max s (phase room fresh e) :=
      prepare_one pos arrive lets none' last
    obtain ⟨tr2, t, rn2, none'', calls'⟩ := brings
    refine ⟨tr1 ++ tr2, t, rn1.trans rn2, none'', ?_⟩
    rw [calls', calls, List.map_append, List.map_singleton]

/-- Every history of the map, however many calls are to be answered after it. -/
lemma realize {G : State → Act → Prop} {max : Nat} {room fresh : Bool} (pos : 0 < max)
    (arrive : ∀ s k, G s (.call k)) (lets : ∀ n, (room → n = 0) → Lets G n) {es S}
    (served : Run (Serve max room fresh) ∅ es S) (ps : List (Call × Option Outcome))
    (en : ∀ e ∈ ps, e.1.Entry) :
    ∃ tr s h, Answering G max tr s h ∧ h.map Prod.snd = es ∧ s.sessions = S ∧
      ∃ spent, (∀ k ∈ spent, k.isPromised = false) ∧
        s.calls = spent ++ ps.map (phase room fresh) := by
  -- by induction on the history, the calls answered after it being any that stand ready
  induction served generalizing ps with
  | refl =>
    obtain ⟨tr, s, rn, none', calls⟩ := prepare pos arrive lets ps en
    exact ⟨tr, s, [], rn, rfl, none', [], nofun, calls⟩
  | @tail es S e S' _ sv ih =>
    have en' : ∀ e' ∈ e :: ps, e'.1.Entry := List.forall_mem_cons.2 ⟨sv.entry, en⟩
    obtain ⟨tr1, s, h, rn1, logged, live, spent, done, calls⟩ := ih (e :: ps) en'
    have here : s.calls[spent.length]? = some (phase room fresh e) := by
      rw [calls, List.map_cons]
      simp
    have few : room → s.promised = 0 := by
      rintro rfl
      rw [State.promised, calls, List.countP_eq_zero]
      intro k mem
      rcases List.mem_append.1 mem with mem | mem
      · simpa using done k mem
      · obtain ⟨e', mem', rfl⟩ := List.mem_map.1 mem
        simpa using phase_not_promised (en' e' mem')
    obtain ⟨tr2, rn2⟩ := perform (lets s.promised few) le_rfl live here sv h
    refine ⟨tr1 ++ tr2, _, _, rn1.trans rn2, ?_, rfl, spent ++ [ended e.2], ?_, ?_⟩
    · rw [List.map_append, logged, List.map_singleton]
    · intro k mem
      rcases List.mem_append.1 mem with mem | mem
      · exact done k mem
      · rw [List.mem_singleton.1 mem]
        exact (ended_spent e.2).2.2
    · rw [State.settle_calls, calls, List.map_cons]
      simp

/-- Every history of the map whose cap is a rule, one call after the other. -/
lemma realize_alone {max : Nat} {es S} (served : Run (Serve max true true) ∅ es S) :
    ∃ tr s h, Answering Alone max tr s h ∧ h.map Prod.snd = es ∧ s.sessions = S ∧
      ∀ k ∈ s.calls, ¬ k.Live := by
  induction served with
  | refl => exact ⟨[], init, [], .refl, rfl, rfl, nofun⟩
  | @tail es S e S' _ sv ih =>
    obtain ⟨tr1, s, h, rn1, logged, live, spent⟩ := ih
    have here : (s.enter e.1).calls[s.calls.length]? = some (phase true true e) := by
      rw [phase_alone sv.entry]
      exact List.getElem?_concat_length
    have enter : Logged (Guarded (Step max) Alone) (answer max) (s, h) (.call e.1)
        (s.enter e.1, h) := .quiet ⟨.call sv.entry, spent⟩ rfl
    obtain ⟨tr2, rn2⟩ := perform (.sole _) le_rfl (s := s.enter e.1) live here sv h
    refine ⟨_, _, _, (Run.tail rn1 enter).trans rn2, ?_, rfl, ?_⟩
    · rw [List.map_append, logged, List.map_singleton]
    · intro k mem
      have mem' : k ∈ s.calls ++ [ended e.2] := by simpa using mem
      rcases List.mem_append.1 mem' with mem' | mem'
      · exact spent k mem'
      · rw [List.mem_singleton.1 mem']
        exact (ended_spent e.2).1

/-- What the callers see of the manager. Every run has a log, which tells what each call was answered,
once, and does so at every moment of the run: a call answered before another is made stands before
it. Of the calls that got no answer it tells only of a close given up after it removed its id. What it
tells are the answers of the map operated on one call after the other, with its cap as advice, under
any interleaving; with its cap as a rule, except that a live session may be refused to be restored,
where every check that passes leaves room; with its cap as a rule, where calls are made one at a time.
And each history of that map is one of the manager. -/
theorem histories_exact {max : Nat} (pos : 0 < max) :
    (∀ {G : State → Act → Prop} {tr s}, Run (Guarded (Step max) G) init tr s →
      ∃ h, Answering G max tr s h) ∧
    (∀ {G : State → Act → Prop} {tr1 tr2 s h}, Answering G max (tr1 ++ tr2) s h →
      Told (tr1 ++ tr2) s h ∧
        ∃ t h1 h2, Answering G max tr1 t h1 ∧ Told tr1 t h1 ∧ h = h1 ++ h2) ∧
    ∀ (es : List (Call × Option Outcome)) (S : Finset SessionId),
      (History (fun _ _ => True) max es S ↔ Run (Serve max false false) ∅ es S) ∧
      (History (RoomLeft max) max es S ↔ Run (Serve max true false) ∅ es S) ∧
      (History Alone max es S ↔ Run (Serve max true true) ∅ es S) := by
  refine ⟨?_, ?_, fun es S => ⟨⟨?_, ?_⟩, ⟨?_, ?_⟩, ⟨?_, ?_⟩⟩⟩
  · intro G tr s rn
    exact rn.log []
  · intro G tr1 tr2 s h rn
    obtain ⟨t, h1, h2, rn1, e⟩ := rn.log_split
    exact ⟨told rn, t, h1, h2, rn1, told rn1, e⟩
  · rintro ⟨tr, s, h, rn, rfl, rfl⟩
    exact serves_advised rn
  · intro served
    obtain ⟨tr, s, h, rn, logged, live, -⟩ :=
      realize pos (fun _ _ => trivial) (fun n _ => .any n) served [] nofun
    exact ⟨tr, s, h, rn, logged, live⟩
  · rintro ⟨tr, s, h, rn, rfl, rfl⟩
    exact serves_capped rn
  · intro served
    obtain ⟨tr, s, h, rn, logged, live, -⟩ :=
      realize pos (fun _ _ => trivial) (fun n none' => .room max (none' rfl)) served [] nofun
    exact ⟨tr, s, h, rn, logged, live⟩
  · rintro ⟨tr, s, h, rn, rfl, rfl⟩
    exact serves_alone rn
  · intro served
    obtain ⟨tr, s, h, rn, logged, live, -⟩ := realize_alone served
    exact ⟨tr, s, h, rn, logged, live⟩

/-- Under a cap of one: a creation that fails, two that succeed, the restore of a live session refused
and a close given up with its id removed, in some run; but not the refusal where calls are made one at
a time. -/
theorem histories_exact_refused :
    History (fun _ _ => True) 1
      [(.create, some (.inner "gone")), (.create, some (.created "a")),
        (.create, some (.created "b")), (.restore "a", some (.full 1)), (.close "a", none)] {"b"} ∧
    ¬ History Alone 1 [(.create, some (.created "a")), (.restore "a", some (.full 1))] {"a"} := by
  constructor
  · refine ((histories_exact one_pos).2.2 _ _).1.2 ?_
    have free : ∀ {p : Prop}, false = true → p := fun e => by cases e
    exact .head (.createFailed free) <| .head (.created (by decide) free) <|
      .head (.created (by decide) free) <| .head (.restoreFull free (by decide)) <|
      .single .closeDropped
  · intro hist
    have served := ((histories_exact one_pos).2.2 _ _).2.2.1 hist
    obtain ⟨S, -, rest⟩ := served.uncons
    obtain ⟨S', st, rest⟩ := rest.uncons
    cases rest.nil_inv
    cases st with
    | restoreFull absent _ => exact absent rfl (by decide)

end OxmlMcp.Sessions
