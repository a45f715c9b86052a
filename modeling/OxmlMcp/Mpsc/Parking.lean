import Mathlib.Data.Fintype.Card
import OxmlMcp.Mpsc.Channel

/-!
# Who is parked

A sender is parked by its own send, past the buffer, and by nothing else; and as many are parked as
there are messages past the buffer. Which of them a receive unparks does not matter to either.

* `parked_sublist`: the parked senders are some of those that have sent.
* `unparked_le`: of the senders of a channel at most its buffer more than it has received are not
  parked.
* `polite_bound`: where only unparked senders send, a channel holds at most its buffer and one
  message for each sender.
-/

namespace OxmlMcp.Mpsc
open OxmlMcp.Lts

variable {ι α : Type*}

/-- An operation parks at most the sender whose message it enqueues. -/
lemma Step.parked_inv {c c' : Chan ι α} {a} (st : Step c a c') :
    c'.parked.Sublist (c.parked ++ (sends [a]).map Prod.fst) := by
  cases st with
  | send h =>
    obtain ⟨-, -, -, -, parked⟩ := Chan.startSend_inv h
    rw [parked]
    split
    · exact List.Sublist.refl _
    · exact List.sublist_append_left _ _
  | recv h =>
    obtain ⟨-, -, -, -, less⟩ := Chan.nextMessage_inv h
    exact less.trans (List.sublist_append_left _ _)
  | close => exact List.nil_sublist _

/-- The parked senders are some of those that have sent, in the order of their messages. -/
lemma parked_sublist {n : Nat} {c : Chan ι α} {tr} (rn : Run Step (channel n) tr c) :
    c.parked.Sublist ((sends tr).map Prod.fst) := by
  induction rn with
  | refl => exact List.nil_sublist _
  | @tail tr c a c' rn st ih =>
    rw [sends_append, List.map_append]
    exact st.parked_inv.trans (ih.append_right _)

/-- Of those that have sent, each once, at most the buffer's size more than messages were received are
not parked. -/
theorem unparked_le {n : Nat} {c : Chan ι α} {tr} (rn : Run Step (channel n) tr c)
    (open' : c.isOpen = true) (once : ((sends tr).map Prod.fst).Nodup) {free : List ι}
    (nd : free.Nodup) (sub : ∀ i ∈ free, i ∈ (sends tr).map Prod.fst ∧ i ∉ c.parked) :
    free.length ≤ n + (recvs tr).length := by
  have parked := parked_sublist rn
  -- the parked and the free senders are different ones of those that have sent
  have all : (free ++ c.parked).length ≤ ((sends tr).map Prod.fst).length := by
    apply List.Nodup.length_le_of_subset
    · rw [List.nodup_append]
      refine ⟨nd, once.sublist parked, ?_⟩
      rintro i mem j mem' rfl
      exact (sub i mem).2 mem'
    · intro i mem
      rcases List.mem_append.1 mem with mem | mem
      · exact (sub i mem).1
      · exact parked.subset mem
  have queue := c.queue_le
  rw [run_buffer rn] at queue
  have total := congrArg List.length ((fifo rn).1 open')
  rw [List.length_append] at total all
  rw [List.length_map] at all
  omega

/-- Only unparked senders send. -/
def Polite (c : Chan ι α) (a : Ev ι α) : Prop :=
  ∀ i m, a = .send i m → i ∉ c.parked

/-- Where only unparked senders send, none is parked twice. -/
lemma Step.parked_nodup {c c' : Chan ι α} {a} (st : Step c a c') (polite : Polite c a)
    (nd : c.parked.Nodup) : c'.parked.Nodup := by
  cases st with
  | @send i m _ h =>
    obtain ⟨-, -, -, -, e⟩ := Chan.startSend_inv h
    rw [e]
    split
    · rw [← List.concat_eq_append]
      exact nd.concat (polite i m rfl)
    · exact nd
  | recv h =>
    obtain ⟨-, -, -, -, less⟩ := Chan.nextMessage_inv h
    exact nd.sublist less
  | close => exact List.nodup_nil

/-- Where only unparked senders send, a channel holds at most its buffer and one message for each
sender. -/
theorem polite_bound [Fintype ι] {n : Nat} {c : Chan ι α} {tr}
    (rn : Run (Guarded Step Polite) (channel n) tr c) :
    c.queue.length ≤ n + Fintype.card ι := by
  have nd : c.parked.Nodup := by
    apply rn.invariant (P := fun c => c.parked.Nodup)
    · exact List.nodup_nil
    · rintro c a c' nd ⟨st, polite⟩
      exact st.parked_nodup polite nd
  have queue := c.queue_le
  have few := nd.length_le_card
  rw [run_buffer rn.unguard] at queue
  omega

end OxmlMcp.Mpsc
