import OxmlMcp.Lts.Run

/-!
# A bounded channel with many senders

The channel of `futures::channel::mpsc`: a buffer of fixed size, any number of senders, one
receiver. A sender's guaranteed slot makes the bound soft: a sender that is not parked may enqueue
one message even when the buffer is full, but enqueuing past the buffer parks it, and it stays
parked until a receive unparks it or the receiver is gone. Dropping a sender takes neither its
message out of the queue nor its name off the parked ones.

These are the channel's documented rules, and two liberties are taken with them. Enqueuing and
parking are one step here, and so are receiving and unparking, which are several atomic operations
there. And which of the parked senders a receive unparks is left open, though there it is the one
parked longest: `nextMessage` has a parameter for it that every result is proved for all values of.

`Chan ι α` carries messages of type `α` from senders named by `ι`; each message is kept with the
name of its sender, which no operation reads. A channel carries the proof of its own accounting: as
many senders are parked as there are messages past the buffer, and a closed channel is empty.

* `Chan.startSend`, `Chan.nextMessage`, `Chan.close`: enqueue, receive, drop the receiver.
* `Step.sent_eq` / `fifo`: while the receiver is alive, what it received followed by what waits is
  what was sent, in the order sent; afterwards what it received is a prefix of it.
* `closed_quiet`: nothing is sent or received once the receiver is gone.
-/

namespace OxmlMcp.Mpsc
open OxmlMcp.Lts

variable {ι α : Type*}

/-- A channel: what waits in it, oldest first, and the parked senders. -/
structure Chan (ι α : Type*) where
  buffer : Nat
  queue : List (ι × α)
  parked : List ι
  isOpen : Bool
  parked_length : parked.length = queue.length - buffer
  closed_queue : isOpen = false → queue = []

/-- `mpsc::channel(buffer)`. -/
def channel (buffer : Nat) : Chan ι α where
  buffer := buffer
  queue := []
  parked := []
  isOpen := true
  parked_length := by simp
  closed_queue := nofun

/-- `start_send` by an unparked sender: enqueue, and park past the buffer. It fails when the
receiver is gone. -/
def Chan.startSend (c : Chan ι α) (i : ι) (m : α) : Option (Chan ι α) :=
  if open' : c.isOpen then
    some {
      buffer := c.buffer
      queue := c.queue ++ [(i, m)]
      parked := if c.queue.length + 1 > c.buffer then c.parked ++ [i] else c.parked
      isOpen := true
      parked_length := by
        have := c.parked_length
        split <;> simp <;> omega
      closed_queue := nofun }
  else none

/-- `poll_next` of the receiver when a message waits: take it, and unpark one of the parked senders,
which one `k` decides. -/
def Chan.nextMessage (c : Chan ι α) (k : Nat) : Option ((ι × α) × Chan ι α) :=
  match h : c.queue with
  | [] => none
  | m :: queue =>
    some (m, {
      buffer := c.buffer
      queue := queue
      parked := c.parked.eraseIdx (k % c.parked.length)
      isOpen := c.isOpen
      parked_length := by
        have e := c.parked_length
        rw [h, List.length_cons] at e
        rw [List.length_eraseIdx]
        split
        · omega
        · have none' : c.parked.length = 0 := by
            by_contra some'
            exact ‹¬ _› (Nat.mod_lt k (Nat.pos_of_ne_zero some'))
          omega
      closed_queue := fun closed => by simp [c.closed_queue closed] at h })

/-- Drop the receiver: the queue is drained and every sender unparked. -/
def Chan.close (c : Chan ι α) : Chan ι α where
  buffer := c.buffer
  queue := []
  parked := []
  isOpen := false
  parked_length := by simp
  closed_queue := fun _ => rfl

/-- `poll_flush` of a sender is ready: the receiver is gone, or the sender is not parked. -/
def Chan.Flushed (c : Chan ι α) (i : ι) : Prop :=
  c.isOpen = false ∨ i ∉ c.parked

/-- What happens on a channel. -/
inductive Ev (ι α : Type*) where
  | send (i : ι) (m : α)
  | recv (i : ι) (m : α)
  | close
deriving DecidableEq

/-- One operation on a channel. -/
inductive Step : Chan ι α → Ev ι α → Chan ι α → Prop where
  | send {c i m c'} :
    c.startSend i m = some c' →
    Step c (.send i m) c'
  | recv {c i m k c'} :
    c.nextMessage k = some ((i, m), c') →
    Step c (.recv i m) c'
  | close {c} :
    Step c .close c.close

/-- The messages a trace sends, with their senders. -/
def sends (tr : List (Ev ι α)) : List (ι × α) :=
  tr.filterMap fun
    | .send i m => some (i, m)
    | _ => none

/-- The messages a trace receives, with their senders. -/
def recvs (tr : List (Ev ι α)) : List (ι × α) :=
  tr.filterMap fun
    | .recv i m => some (i, m)
    | _ => none

/-! What is sent and received, event by event. -/

@[simp] lemma sends_nil : sends ([] : List (Ev ι α)) = [] := rfl
@[simp] lemma recvs_nil : recvs ([] : List (Ev ι α)) = [] := rfl

@[simp] lemma sends_append (tr tr' : List (Ev ι α)) : sends (tr ++ tr') = sends tr ++ sends tr' :=
  List.filterMap_append
@[simp] lemma recvs_append (tr tr' : List (Ev ι α)) : recvs (tr ++ tr') = recvs tr ++ recvs tr' :=
  List.filterMap_append

@[simp] lemma sends_send (i : ι) (m : α) : sends [Ev.send i m] = [(i, m)] := rfl
@[simp] lemma sends_recv (i : ι) (m : α) : sends [Ev.recv i m] = [] := rfl
@[simp] lemma sends_close : sends [(Ev.close : Ev ι α)] = [] := rfl
@[simp] lemma recvs_send (i : ι) (m : α) : recvs [Ev.send i m] = [] := rfl
@[simp] lemma recvs_recv (i : ι) (m : α) : recvs [Ev.recv i m] = [(i, m)] := rfl
@[simp] lemma recvs_close : recvs [(Ev.close : Ev ι α)] = [] := rfl

/-- What is sent is sent by an event. -/
lemma mem_sends {tr : List (Ev ι α)} {i m} : (i, m) ∈ sends tr ↔ .send i m ∈ tr := by
  rw [sends, List.mem_filterMap]
  constructor
  · rintro ⟨a, mem, e⟩
    cases a with
    | send j m' => cases e; exact mem
    | recv j m' => cases e
    | close => cases e
  · intro mem
    exact ⟨_, mem, rfl⟩

/-! A channel as it is made, and one whose receiver is gone. -/

@[simp] lemma channel_buffer (n : Nat) : (channel n : Chan ι α).buffer = n := rfl
@[simp] lemma channel_queue (n : Nat) : (channel n : Chan ι α).queue = [] := rfl
@[simp] lemma channel_parked (n : Nat) : (channel n : Chan ι α).parked = [] := rfl
@[simp] lemma channel_isOpen (n : Nat) : (channel n : Chan ι α).isOpen = true := rfl
@[simp] lemma Chan.close_queue (c : Chan ι α) : c.close.queue = [] := rfl
@[simp] lemma Chan.close_parked (c : Chan ι α) : c.close.parked = [] := rfl
@[simp] lemma Chan.close_isOpen (c : Chan ι α) : c.close.isOpen = false := rfl

/-- What a send does: its message is the last, and past the buffer its sender is parked. -/
lemma Chan.startSend_inv {c c' : Chan ι α} {i m} (h : c.startSend i m = some c') :
    c.isOpen = true ∧ c'.isOpen = true ∧ c'.buffer = c.buffer ∧
    c'.queue = c.queue ++ [(i, m)] ∧
    c'.parked = if c.queue.length + 1 > c.buffer then c.parked ++ [i] else c.parked := by
  unfold Chan.startSend at h
  split at h
  · cases h
    exact ⟨‹_›, rfl, rfl, rfl, rfl⟩
  · cases h

/-- While the receiver is there a send succeeds. -/
lemma Chan.startSend_open {c : Chan ι α} (open' : c.isOpen = true) (i m) :
    ∃ c', c.startSend i m = some c' := by
  exact ⟨_, dif_pos open'⟩

/-- What a receive does: the oldest message is gone, and one sender at most is parked no more. -/
lemma Chan.nextMessage_inv {c c' : Chan ι α} {m} {k : Nat} (h : c.nextMessage k = some (m, c')) :
    c.isOpen = true ∧ c'.isOpen = true ∧ c'.buffer = c.buffer ∧
    c.queue = m :: c'.queue ∧ c'.parked.Sublist c.parked := by
  unfold Chan.nextMessage at h
  split at h
  · cases h
  · rename_i m' queue e
    cases h
    have open' : c.isOpen = true := by
      by_contra closed
      simp [c.closed_queue (by simpa using closed)] at e
    exact ⟨open', open', rfl, e, List.eraseIdx_sublist _ _⟩

/-- A receive finds no message exactly when none waits. -/
lemma Chan.nextMessage_eq_none {c : Chan ι α} {k : Nat} : c.nextMessage k = none ↔ c.queue = [] := by
  unfold Chan.nextMessage
  split
  · simpa using ‹_›
  · simp [*]

/-- No operation changes the buffer. -/
lemma Step.buffer {c c' : Chan ι α} {a} (st : Step c a c') : c'.buffer = c.buffer := by
  cases st with
  | send h => exact (Chan.startSend_inv h).2.2.1
  | recv h => exact (Chan.nextMessage_inv h).2.2.1
  | close => rfl

/-- The buffer of a channel is the one it was made with. -/
lemma run_buffer {n : Nat} {c : Chan ι α} {tr} (rn : Run Step (channel n) tr c) : c.buffer = n :=
  rn.invariant (P := fun c => c.buffer = n) rfl fun e st => st.buffer.trans e

/-- The messages past the buffer are no more than the parked senders. -/
lemma Chan.queue_le (c : Chan ι α) : c.queue.length ≤ c.buffer + c.parked.length := by
  have := c.parked_length
  omega

/-- A parked sender means a queue past the buffer by as many messages as senders are parked. -/
lemma Chan.queue_eq {c : Chan ι α} {i} (mem : i ∈ c.parked) :
    c.queue.length = c.buffer + c.parked.length := by
  have := c.parked_length
  have := List.length_pos_of_mem mem
  omega

/-- Where a sender is parked the receiver is there. -/
lemma Chan.isOpen_of_parked {c : Chan ι α} {i} (mem : i ∈ c.parked) : c.isOpen = true := by
  by_contra closed
  have e := c.closed_queue (by simpa using closed)
  have len := Chan.queue_eq mem
  have pos := List.length_pos_of_mem mem
  rw [e, List.length_nil] at len
  omega

/-- One operation keeps the accounting of the messages: those received, then those waiting, are
those sent. -/
lemma Step.sent_eq {c c' : Chan ι α} {tr a} (st : Step c a c')
    (ih : c.isOpen = true → recvs tr ++ c.queue = sends tr) :
    c'.isOpen = true → recvs (tr ++ [a]) ++ c'.queue = sends (tr ++ [a]) := by
  cases st with
  | send h =>
    obtain ⟨open', -, -, e, -⟩ := Chan.startSend_inv h
    intro _
    simp [e, ← ih open']
  | recv h =>
    obtain ⟨open', -, -, e, -⟩ := Chan.nextMessage_inv h
    intro _
    simp [← ih open', e]
  | close => exact nofun

/-- First in, first out: while the receiver is alive, what it received followed by what waits is
what was sent; and always what it received is a prefix of what was sent. -/
theorem fifo {n : Nat} {c : Chan ι α} {tr} (rn : Run Step (channel n) tr c) :
    (c.isOpen = true → recvs tr ++ c.queue = sends tr) ∧ recvs tr <+: sends tr := by
  induction rn with
  | refl => simp
  | @tail tr c a c' rn st ih =>
    obtain ⟨ih, pre⟩ := ih
    refine ⟨st.sent_eq ih, ?_⟩
    cases st with
    | send _ => simpa using pre.trans (List.prefix_append _ _)
    | recv h =>
      obtain ⟨open', -, -, e, -⟩ := Chan.nextMessage_inv h
      rw [sends_append, sends_recv, ← ih open', e]
      simp
    | close => simpa using pre

/-- Once the receiver is gone nothing is sent or received. -/
theorem closed_quiet {c c' : Chan ι α} {tr} (closed : c.isOpen = false) (rn : Run Step c tr c') :
    c'.isOpen = false ∧ sends tr = [] ∧ recvs tr = [] := by
  induction rn with
  | refl => exact ⟨closed, rfl, rfl⟩
  | @tail tr t a u rn st ih =>
    obtain ⟨closed', s, r⟩ := ih
    cases st with
    | send h => simp [(Chan.startSend_inv h).1] at closed'
    | recv h => simp [(Chan.nextMessage_inv h).1] at closed'
    | close => exact ⟨rfl, by simpa using s, by simpa using r⟩

/-- The receiver is gone exactly when it was dropped. -/
lemma closed_iff_mem {n : Nat} {c : Chan ι α} {tr} (rn : Run Step (channel n) tr c) :
    c.isOpen = false ↔ .close ∈ tr := by
  induction rn with
  | refl => simp
  | @tail tr t a u rn st ih =>
    cases st with
    | send h => simp [(Chan.startSend_inv h).2.1, ← ih, (Chan.startSend_inv h).1]
    | recv h => simp [(Chan.nextMessage_inv h).2.1, ← ih, (Chan.nextMessage_inv h).1]
    | close => simp

end OxmlMcp.Mpsc
