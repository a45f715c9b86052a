import Mathlib.Data.Finset.Card
import Mathlib.Logic.Function.Basic
import OxmlMcp.Lts.Run

/-!
# A directory of mailboxes

What a server of sessions is for, without its requests, tasks and channels: boxes under addresses, at
most `max` of which are listed at a time. Anyone puts letters into a box that has been listed; its
owner takes them out, until it shuts the box, once. A box is used once: it is never vacant again.

* `box_run`: what a run does at one address is a run of its box.
* `Step.det`: what happens says where it leads.
* `Account`, `account`: the letters taken out of a box, then those in it, are those put into it.
* `listed_le`: the cap.
-/

namespace OxmlMcp.Mailbox
open OxmlMcp.Lts

variable {κ α : Type*}

/-- What stands at an address. -/
inductive Box (α : Type*) where
  | vacant
  | serving (letters : List α)
  | shut

/-- What happens to a box. -/
inductive BoxEv (α : Type*) where
  | start
  | put (m : α)
  | take (m : α)
  | shut

/-- One step of a box. -/
inductive BoxStep : Box α → BoxEv α → Box α → Prop where
  | start :
    BoxStep .vacant .start (.serving [])
  | put {ms m} :
    BoxStep (.serving ms) (.put m) (.serving (ms ++ [m]))
  | take {m ms} :
    BoxStep (.serving (m :: ms)) (.take m) (.serving ms)
  | shut {ms} :
    BoxStep (.serving ms) .shut .shut

/-- The letters put into a box. -/
def puts (es : List (BoxEv α)) : List α :=
  es.filterMap fun
    | .put m => some m
    | _ => none

/-- The letters taken out of a box. -/
def takes (es : List (BoxEv α)) : List α :=
  es.filterMap fun
    | .take m => some m
    | _ => none

/-! What is put in and taken out, event by event. -/

@[simp] lemma puts_append (es es' : List (BoxEv α)) : puts (es ++ es') = puts es ++ puts es' :=
  List.filterMap_append
@[simp] lemma takes_append (es es' : List (BoxEv α)) : takes (es ++ es') = takes es ++ takes es' :=
  List.filterMap_append

@[simp] lemma puts_nil : puts ([] : List (BoxEv α)) = [] := rfl
@[simp] lemma puts_start : puts [(BoxEv.start : BoxEv α)] = [] := rfl
@[simp] lemma puts_put (m : α) : puts [BoxEv.put m] = [m] := rfl
@[simp] lemma puts_take (m : α) : puts [BoxEv.take m] = [] := rfl
@[simp] lemma puts_shut : puts [(BoxEv.shut : BoxEv α)] = [] := rfl
@[simp] lemma takes_nil : takes ([] : List (BoxEv α)) = [] := rfl
@[simp] lemma takes_start : takes [(BoxEv.start : BoxEv α)] = [] := rfl
@[simp] lemma takes_put (m : α) : takes [BoxEv.put m] = [] := rfl
@[simp] lemma takes_take (m : α) : takes [BoxEv.take m] = [m] := rfl
@[simp] lemma takes_shut : takes [(BoxEv.shut : BoxEv α)] = [] := rfl

/-- The account of the letters of a box `b` after the events `es`. -/
structure Account (es : List (BoxEv α)) (b : Box α) : Prop where
  vacant : b = .vacant → es = []
  serving : ∀ ms, b = .serving ms → takes es ++ ms = puts es
  pre : takes es <+: puts es

/-- One step of a box keeps the account of its letters. -/
lemma BoxStep.account {b b' : Box α} {es e} (st : BoxStep b e b') (acc : Account es b) :
    Account (es ++ [e]) b' := by
  obtain ⟨vacant, serving, pre⟩ := acc
  cases st with
  | start =>
    rw [vacant rfl]
    refine ⟨nofun, fun ms e => ?_, List.nil_prefix⟩
    cases e
    rfl
  | @put ms m =>
    refine ⟨nofun, fun ms' e => ?_, ?_⟩
    · cases e
      simp [← serving ms rfl]
    · simpa using pre.trans (List.prefix_append _ _)
  | @take m ms =>
    have e := serving (m :: ms) rfl
    refine ⟨nofun, fun ms' e' => ?_, ?_⟩
    · cases e'
      simp [← e]
    · simp [← e]
  | shut => exact ⟨nofun, nofun, by simpa using pre⟩

/-- The letters of a box are accounted for after any run. -/
theorem account {b : Box α} {es} (rn : Run BoxStep .vacant es b) : Account es b := by
  apply rn.invariantTr (P := Account)
  · exact ⟨fun _ => rfl, nofun, List.prefix_rfl⟩
  · intro es b e b' acc st
    exact st.account acc

/-- The addresses that are listed, and the box of each address. -/
structure Directory (κ α : Type*) where
  listed : Finset κ
  box : κ → Box α

/-- No box yet. -/
def Directory.empty : Directory κ α := ⟨∅, fun _ => .vacant⟩

/-- What happens to a directory. -/
inductive Ev (κ α : Type*) where
  | list (k : κ)
  | unlist (k : κ)
  | box (k : κ) (e : BoxEv α)

/-- An event takes a box to one box. -/
lemma BoxStep.det {b b1 b2 : Box α} {e} (st1 : BoxStep b e b1) (st2 : BoxStep b e b2) : b1 = b2 := by
  cases st1 with
  | start => cases st2; rfl
  | put => cases st2; rfl
  | take => cases st2; rfl
  | shut => cases st2; rfl

variable [DecidableEq κ] {max : Nat}

/-- The box at an address becomes another. -/
def Directory.set (d : Directory κ α) (k : κ) (b : Box α) : Directory κ α :=
  { d with box := Function.update d.box k b }

/-- One step of a directory. -/
inductive Step (max : Nat) : Directory κ α → Ev κ α → Directory κ α → Prop where
  | list {d k b} :
    BoxStep (d.box k) .start b →
    d.listed.card < max →
    Step max d (.list k) { d.set k b with listed := insert k d.listed }
  | unlist {d k} :
    k ∈ d.listed →
    Step max d (.unlist k) { d with listed := d.listed.erase k }
  | box {d k e b} :
    BoxStep (d.box k) e b →
    e ≠ .start →
    Step max d (.box k e) (d.set k b)

/-- What an event is to the box at an address. -/
def Ev.at (k : κ) : Ev κ α → Option (BoxEv α)
  | .list j => if j = k then some .start else none
  | .unlist _ => none
  | .box j e => if j = k then some e else none

/-- A letter put into the box at an address is put there by an event. -/
lemma mem_puts_at {evs : List (Ev κ α)} {k : κ} {m : α} (mem : m ∈ puts (evs.filterMap (Ev.at k))) :
    .box k (.put m) ∈ evs := by
  obtain ⟨b, mem, e⟩ := List.mem_filterMap.1 mem
  obtain ⟨a, mem, e'⟩ := List.mem_filterMap.1 mem
  cases b with
  | put m' =>
    cases e
    cases a with
    | list j =>
      rw [Ev.at] at e'
      split at e' <;> cases e'
    | unlist j => cases e'
    | box j b =>
      rw [Ev.at] at e'
      split at e'
      · subst j
        cases e'
        exact mem
      · cases e'
  | _ => cases e

/-- The boxes after one of them has changed. -/
lemma Directory.set_box (d : Directory κ α) (k : κ) (b : Box α) (j : κ) :
    (d.set k b).box j = if j = k then b else d.box j :=
  Function.update_apply _ _ _ _

/-- What a step does at one address: what its event is to the box there. -/
lemma Step.box_seen {d d' : Directory κ α} {a} (st : Step max d a d') (k : κ) :
    Seen BoxStep (d.box k) (a.at k) (d'.box k) := by
  -- the box at `j` becomes `b`
  have moved : ∀ {j e b}, BoxStep (d.box j) e b →
      Seen BoxStep (d.box k) (if j = k then some e else none) ((d.set j b).box k) := by
    intro j e b bst
    rw [Directory.set_box]
    by_cases same : j = k
    · subst j
      rw [if_pos rfl, if_pos rfl]
      exact bst
    · rw [if_neg same, if_neg (Ne.symm same)]
      rfl
  cases st with
  | list bst _ => exact moved bst
  | unlist _ => rfl
  | box bst _ => exact moved bst

/-- An event takes a directory to one directory. -/
lemma Step.det {d d1 d2 : Directory κ α} {a} (st1 : Step max d a d1) (st2 : Step max d a d2) :
    d1 = d2 := by
  cases st1 with
  | list bst _ =>
    cases st2 with
    | list bst' _ => rw [bst.det bst']
  | unlist _ =>
    cases st2 with
    | unlist _ => rfl
  | box bst _ =>
    cases st2 with
    | box bst' _ => rw [bst.det bst']

/-- What a run does at one address is a run of its box. -/
theorem box_run {d : Directory κ α} {tr} (rn : Run (Step max) .empty tr d) (k : κ) :
    Run BoxStep .vacant (tr.filterMap (Ev.at k)) (d.box k) :=
  rn.project (Directory.box · k) fun st => st.box_seen k

/-- At most `max` addresses are listed. -/
theorem listed_le {d : Directory κ α} {tr} (rn : Run (Step max) .empty tr d) :
    d.listed.card ≤ max := by
  apply rn.invariant (P := fun d => d.listed.card ≤ max)
  · exact Nat.zero_le max
  · intro d a d' le st
    cases st with
    | list _ lt => exact (Finset.card_insert_le _ _).trans lt
    | unlist _ => exact (Finset.card_erase_le).trans le
    | box _ _ => exact le

end OxmlMcp.Mailbox
