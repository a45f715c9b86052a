import OxmlMcp.Lines.Limit
import OxmlMcp.Lts.Run
import Mathlib.Algebra.Group.Nat.Defs

/-!
# Bounded stdio lines

Model of `src/transport/bounded_lines.rs`: a reader between standard input and the SDK that passes
bytes on unchanged and fails for good once a line is longer than `MAX_LINE_BYTES`.

`pollRead` is one `poll_read`. The inner reader is whatever it is: each call is given its own answer
for each capacity it might be polled with, so a run of `Step` is any schedule of reads over any
input, with any output buffers, `Pending`s and errors in it. A `Call` records what was asked, what
the inner reader answered if it was polled, and what came back.

* `Step.reads`: what one call can do.
* `Account`: what a run has delivered, before and after the limit is passed.
* `limited`: the reader is the plain byte stream with a limit on the length of lines.
-/

namespace OxmlMcp.Stdio
open OxmlMcp.Lts OxmlMcp.Lines

/-- `MAX_LINE_BYTES`: the longest line, 16 MiB. -/
def MAX_LINE_BYTES : Nat := 16 * 1024 * 1024

/-- The chunk that one call reads at most. -/
def chunkSize : Nat := 8192

/-- `b'\n'`. -/
def NEWLINE : UInt8 := 10

/-- `usize::saturating_add`, on 64 bits. -/
def saturatingAdd (a b : Nat) : Nat :=
  min (a + b) (2 ^ 64 - 1)

/-- What a `poll_read` answers: `ready` with the bytes it put into the buffer, none at the end of the
input. -/
inductive Poll (ε : Type) where
  | pending
  | ready (bytes : List UInt8)
  | error (e : ε)
deriving DecidableEq

/-- The bytes put into the buffer. -/
def Poll.bytes {ε : Type} : Poll ε → List UInt8
  | .ready bytes => bytes
  | _ => []

/-- The errors of a read: the inner reader's, and those raised here. -/
inductive IoError (ε : Type) where
  | inner (e : ε)
  | invalidData (message : String)
deriving DecidableEq

variable {ε : Type}

/-- `line_limit`. -/
def lineLimit : IoError ε :=
  .invalidData "stdio line exceeds the 16 MiB limit"

/-- A reader, whatever its state: its answers by the capacity it is polled with, which they fit. -/
def Reader (ε : Type) := (capacity : Nat) → { p : Poll ε // p.bytes.length ≤ capacity }

/-- `BoundedLines`: the bytes of the line at hand. -/
structure BoundedLines where
  lineBytes : Nat
deriving DecidableEq

/-- `BoundedLines::new`. -/
def BoundedLines.new : BoundedLines := ⟨0⟩

/-- Count the bytes of a chunk, up to the one that passes the limit. -/
def BoundedLines.charge (s : BoundedLines) :
    List UInt8 → BoundedLines × Except (IoError ε) Unit
  | [] => (s, .ok ())
  | byte :: bytes =>
    let s := ⟨if byte = NEWLINE then 0 else saturatingAdd s.lineBytes 1⟩
    if s.lineBytes > MAX_LINE_BYTES then (s, .error lineLimit) else s.charge bytes

/-- One `poll_read` with `remaining` bytes of room in the output: the answer of the inner reader, if
it was polled, and the answer. -/
def BoundedLines.pollRead (s : BoundedLines) (reader : Reader ε) (remaining : Nat) :
    BoundedLines × Option (Poll ε) × Poll (IoError ε) :=
  if s.lineBytes > MAX_LINE_BYTES then (s, none, .error lineLimit)
  else if remaining = 0 then (s, none, .ready [])
  else
    let capacity := min chunkSize remaining
    match (reader capacity).val with
    | .pending => (s, some .pending, .pending)
    | .error e => (s, some (.error e), .error (.inner e))
    | .ready filled =>
      match s.charge filled with
      | (s, .error e) => (s, some (.ready filled), .error e)
      | (s, .ok ()) => (s, some (.ready filled), .ready filled)

/-- One call of `poll_read`. -/
structure Call (ε : Type) where
  remaining : Nat
  polled : Option (Poll ε)
  result : Poll (IoError ε)
deriving DecidableEq

/-- A call, with some answer of the inner reader. -/
inductive Step : BoundedLines → Call ε → BoundedLines → Prop where
  | pollRead {s reader remaining s' polled result} :
    s.pollRead reader remaining = (s', polled, result) →
    Step s ⟨remaining, polled, result⟩ s'

/-- The bytes the inner reader produced. -/
def produced (tr : List (Call ε)) : List UInt8 :=
  tr.flatMap fun c => (c.polled.map Poll.bytes).getD []

/-- The bytes that were delivered. -/
def delivered (tr : List (Call ε)) : List UInt8 :=
  tr.flatMap fun c => c.result.bytes

/-- What is produced, run by run, -/
lemma produced_append (tr tr' : List (Call ε)) : produced (tr ++ tr') = produced tr ++ produced tr' :=
  List.flatMap_append

/-- what is delivered, -/
lemma delivered_append (tr tr' : List (Call ε)) :
    delivered (tr ++ tr') = delivered tr ++ delivered tr' :=
  List.flatMap_append

/-- and both of one call. -/
lemma produced_singleton (c : Call ε) : produced [c] = (c.polled.map Poll.bytes).getD [] := by
  simp [produced]

lemma delivered_singleton (c : Call ε) : delivered [c] = c.result.bytes := by
  simp [delivered]

/-- Within the limit the counter does not saturate. -/
lemma saturatingAdd_one {n : Nat} (le : n ≤ MAX_LINE_BYTES) : saturatingAdd n 1 = n + 1 := by
  unfold saturatingAdd MAX_LINE_BYTES at *
  omega

/-- A chunk that keeps every line within the limit is counted to its end. -/
lemma BoundedLines.charge_ok {s : BoundedLines} {bytes}
    (fits : Fits NEWLINE MAX_LINE_BYTES s.lineBytes bytes) :
    s.charge (ε := ε) bytes = (⟨lastLength NEWLINE s.lineBytes bytes⟩, .ok ()) := by
  induction bytes generalizing s with
  | nil => rfl
  | cons byte bytes ih =>
    obtain ⟨le, fits⟩ := fits_cons.1 fits
    have le' : (if byte = NEWLINE then 0 else s.lineBytes + 1) ≤ MAX_LINE_BYTES :=
      fits [] List.nil_prefix
    rw [BoundedLines.charge, saturatingAdd_one le]
    simp only [gt_iff_lt, Nat.not_lt.2 le', if_false]
    exact ih (s := ⟨_⟩) fits

/-- A chunk that takes a line past the limit is counted up to the byte that does. -/
lemma BoundedLines.charge_error {s : BoundedLines} {bytes} (le : s.lineBytes ≤ MAX_LINE_BYTES)
    (not : ¬ Fits NEWLINE MAX_LINE_BYTES s.lineBytes bytes) :
    s.charge (ε := ε) bytes = (⟨MAX_LINE_BYTES + 1⟩, .error lineLimit) := by
  induction bytes generalizing s with
  | nil => exact absurd (fits_nil.2 le) not
  | cons byte bytes ih =>
    rw [BoundedLines.charge, saturatingAdd_one le]
    rw [fits_cons, not_and] at not
    have not := not le
    by_cases nl : byte = NEWLINE
    · simp only [nl, if_true] at not ⊢
      rw [if_neg (Nat.not_lt_zero _), ih (Nat.zero_le _) not]
    · simp only [if_neg nl] at not ⊢
      by_cases lt : s.lineBytes + 1 ≤ MAX_LINE_BYTES
      · rw [if_neg (Nat.not_lt.2 lt), ih lt not]
      · rw [if_pos (Nat.lt_of_not_le lt), show s.lineBytes = MAX_LINE_BYTES by omega]

/-- What a call can do. -/
inductive Reads (s : BoundedLines) : Call ε → BoundedLines → Prop where
  | tripped {n} :
    MAX_LINE_BYTES < s.lineBytes →
    Reads s ⟨n, none, .error lineLimit⟩ s
  | full :
    s.lineBytes ≤ MAX_LINE_BYTES →
    Reads s ⟨0, none, .ready []⟩ s
  | pending {n} :
    s.lineBytes ≤ MAX_LINE_BYTES →
    Reads s ⟨n, some .pending, .pending⟩ s
  | failed {n e} :
    s.lineBytes ≤ MAX_LINE_BYTES →
    Reads s ⟨n, some (.error e), .error (.inner e)⟩ s
  | passed {n filled} :
    s.lineBytes ≤ MAX_LINE_BYTES →
    filled.length ≤ min chunkSize n →
    Fits NEWLINE MAX_LINE_BYTES s.lineBytes filled →
    Reads s ⟨n, some (.ready filled), .ready filled⟩ ⟨lastLength NEWLINE s.lineBytes filled⟩
  | exceeded {n filled} :
    s.lineBytes ≤ MAX_LINE_BYTES →
    filled.length ≤ min chunkSize n →
    ¬ Fits NEWLINE MAX_LINE_BYTES s.lineBytes filled →
    Reads s ⟨n, some (.ready filled), .error lineLimit⟩ ⟨MAX_LINE_BYTES + 1⟩

/-- A call does one of these. -/
lemma Step.reads {s s' : BoundedLines} {c : Call ε} (st : Step s c s') : Reads s c s' := by
  cases st with | @pollRead reader remaining _ _ _ e => ?_
  unfold BoundedLines.pollRead at e
  split at e
  · cases e
    exact .tripped ‹_›
  · have le : s.lineBytes ≤ MAX_LINE_BYTES := Nat.le_of_not_lt ‹_›
    split at e
    · subst remaining
      cases e
      exact .full le
    · have room := (reader (min chunkSize remaining)).property
      dsimp only at e
      generalize (reader (min chunkSize remaining)).val = p at e room
      cases p with
      | pending =>
        cases e
        exact .pending le
      | error err =>
        cases e
        exact .failed le
      | ready filled =>
        by_cases fits : Fits NEWLINE MAX_LINE_BYTES s.lineBytes filled
        · simp only [BoundedLines.charge_ok fits] at e
          cases e
          exact .passed le room fits
        · simp only [BoundedLines.charge_error le fits] at e
          cases e
          exact .exceeded le room fits

/-- What a history has delivered as long as no line passed the limit: all that was produced. -/
structure Within (tr : List (Call ε)) : Prop where
  fits : Fits NEWLINE MAX_LINE_BYTES 0 (produced tr)
  all : delivered tr = produced tr
  quiet : ∀ c ∈ tr, c.result ≠ .error lineLimit

/-- A history up to the call `c` in which a line passes the limit, and after it. -/
structure Tripped (tr tr1 : List (Call ε)) (c : Call ε) (tr2 : List (Call ε)) : Prop where
  split : tr = tr1 ++ c :: tr2
  within : Within tr1
  chunk : (produced [c]).length ≤ chunkSize
  not : ¬ Fits NEWLINE MAX_LINE_BYTES 0 (produced (tr1 ++ [c]))
  result : c.result = .error lineLimit
  after : ∀ c' ∈ tr2, c'.result = .error lineLimit ∧ c'.polled = none

/-- The account of a history that ends in the state `s`. -/
def Account (tr : List (Call ε)) (s : BoundedLines) : Prop :=
  (Within tr ∧ s.lineBytes = lastLength NEWLINE 0 (produced tr)) ∨
  (MAX_LINE_BYTES < s.lineBytes ∧ ∃ tr1 c tr2, Tripped tr tr1 c tr2)

/-- A call that neither takes nor delivers bytes nor fails at the limit. -/
lemma Within.idle {tr : List (Call ε)} {c} (ok : Within tr) (taken : produced [c] = [])
    (given : c.result.bytes = []) (quiet : c.result ≠ .error lineLimit) :
    Within (tr ++ [c]) ∧ produced (tr ++ [c]) = produced tr := by
  have same : produced (tr ++ [c]) = produced tr := by
    rw [produced_append, taken, List.append_nil]
  refine ⟨⟨same ▸ ok.fits, ?_, ?_⟩, same⟩
  · rw [same, delivered_append, delivered_singleton, given, List.append_nil, ok.all]
  · exact List.forall_mem_append.2 ⟨ok.quiet, by simpa using quiet⟩

/-- One call keeps the account, -/
lemma Reads.account {tr : List (Call ε)} {s c s'} (rd : Reads s c s') (acc : Account tr s) :
    Account (tr ++ [c]) s' := by
  rcases acc with ⟨ok, len⟩ | ⟨gt, tr1, c1, tr2, tripped⟩
  · have le : s.lineBytes ≤ MAX_LINE_BYTES := len ▸ ok.fits _ List.prefix_rfl
    cases rd with
    | tripped gt => omega
    | full _ =>
      obtain ⟨ok', same⟩ := ok.idle (c := ⟨0, none, .ready []⟩) rfl rfl nofun
      exact .inl ⟨ok', same ▸ len⟩
    | @pending n _ =>
      obtain ⟨ok', same⟩ := ok.idle (c := ⟨n, some .pending, .pending⟩) rfl rfl nofun
      exact .inl ⟨ok', same ▸ len⟩
    | @failed n e _ =>
      obtain ⟨ok', same⟩ := ok.idle (c := ⟨n, some (.error e), .error (.inner e)⟩) rfl rfl nofun
      exact .inl ⟨ok', same ▸ len⟩
    | @passed n filled _ room fits =>
      have more : produced (tr ++ [⟨n, some (.ready filled), .ready filled⟩]) =
          produced tr ++ filled := by
        rw [produced_append, produced_singleton]
        rfl
      refine .inl ⟨⟨?_, ?_, ?_⟩, ?_⟩
      · rw [more, fits_append]
        exact ⟨ok.fits, len ▸ fits⟩
      · rw [more, delivered_append, delivered_singleton, ok.all]
        rfl
      · exact List.forall_mem_append.2 ⟨ok.quiet, by simp⟩
      · rw [more, lastLength_append, len]
    | @exceeded n filled _ room not =>
      refine .inr ⟨Nat.lt_succ_self _, tr, ⟨n, some (.ready filled), .error lineLimit⟩, [], ?_⟩
      refine ⟨rfl, ok, ?_, ?_, rfl, by simp⟩
      · rw [produced_singleton]
        exact room.trans (Nat.min_le_left _ _)
      · rw [produced_append, produced_singleton, fits_append, ← len]
        exact fun fits => not fits.2
  · cases rd with
    | @tripped n _ =>
      refine .inr ⟨gt, tr1, c1, tr2 ++ [⟨n, none, .error lineLimit⟩], ?_⟩
      obtain ⟨rfl, within, chunk, not, result, after⟩ := tripped
      exact ⟨by simp, within, chunk, not, result,
        List.forall_mem_append.2 ⟨after, by simp⟩⟩
    | full le => omega
    | pending le => omega
    | failed le => omega
    | passed le => omega
    | exceeded le => omega

/-- What is delivered fits the output, and only the inner reader ends the input. -/
lemma Reads.call {s s' : BoundedLines} {c : Call ε} (rd : Reads s c s') :
    c.result.bytes.length ≤ c.remaining ∧
    (c.result = .ready [] → c.remaining ≠ 0 → c.polled = some (.ready [])) := by
  cases rd with
  | full _ => exact ⟨Nat.le_refl 0, fun _ ne => absurd rfl ne⟩
  | passed _ room _ =>
    refine ⟨room.trans (Nat.min_le_right _ _), fun e _ => ?_⟩
    cases e
    rfl
  | tripped _ => exact ⟨Nat.zero_le _, nofun⟩
  | pending _ => exact ⟨Nat.zero_le _, nofun⟩
  | failed _ => exact ⟨Nat.zero_le _, nofun⟩
  | exceeded _ _ _ => exact ⟨Nat.zero_le _, nofun⟩

/-- A reader that has some bytes ready. -/
def Reader.ready (bytes : List UInt8) : Reader ε := fun capacity =>
  ⟨.ready (bytes.take capacity), List.length_take_le capacity bytes⟩

end OxmlMcp.Stdio
