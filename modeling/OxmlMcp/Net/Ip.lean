import Mathlib.Tactic.Common
import Mathlib.Algebra.GroupWithZero.Nat

/-!
# Internet addresses as the standard library reads them

`Ipv4Addr::from_str` and `Ipv6Addr::from_str` of Rust. A reader takes a value off the front of a text,
or fails and takes nothing.

* `parseIp_chars`: a text that is read as an address has the characters of addresses only.
-/

namespace OxmlMcp.Net

/-- A `u8`. -/
abbrev Octet := Fin 256

/-- A `u16`. -/
abbrev Segment := Fin 65536

/-- There is a segment, so numerals are read as segments. -/
instance Segment.limit_ne_zero : NeZero 65536 :=
  ⟨by decide⟩

/-- `Ipv4Addr`: four octets. -/
structure Ipv4Addr where
  a : Octet
  b : Octet
  c : Octet
  d : Octet
deriving DecidableEq

/-- Eight segments. -/
@[ext]
structure Ipv6Addr where
  segments : List Segment
  size : segments.length = 8
deriving DecidableEq

/-- `IpAddr`. -/
inductive IpAddr where
  | v4 (addr : Ipv4Addr)
  | v6 (addr : Ipv6Addr)
deriving DecidableEq

/-- `char::to_digit`, in a radix up to 16. -/
def toDigit (radix : Nat) (c : Char) : Option Nat :=
  let n := c.toNat
  let d :=
    if 48 ≤ n ∧ n ≤ 57 then n - 48
    else if 65 ≤ n ∧ n ≤ 70 then n - 55
    else if 97 ≤ n ∧ n ≤ 102 then n - 87
    else radix
  if d < radix then some d else none

/-- The digits at the front of a text. -/
def digits (radix : Nat) : List Char → List Nat × List Char
  | [] => ([], [])
  | c :: cs =>
    match toDigit radix c with
    | none => ([], c :: cs)
    | some d => (d :: (digits radix cs).1, (digits radix cs).2)

/-- The number that some digits stand for. -/
def value (radix : Nat) (ds : List Nat) : Nat :=
  ds.foldl (fun n d => radix * n + d) 0

/-- `Parser::read_number`. -/
def readNumber (limit radix maxDigits : Nat) (allowZeroPrefix : Bool) (cs : List Char) :
    Option (Fin limit × List Char) :=
  let ds := (digits radix cs).1
  if ds.length = 0 ∨ maxDigits < ds.length then none
  else if allowZeroPrefix = false ∧ cs.head? = some '0' ∧ 1 < ds.length then none
  else if h : value radix ds < limit then some (⟨_, h⟩, (digits radix cs).2)
  else none

/-- `Parser::read_separator`: all but the first of a sequence have a separator before them. -/
def readSeparator {α : Type} (sep : Char) (index : Nat)
    (inner : List Char → Option (α × List Char)) (cs : List Char) : Option (α × List Char) :=
  if index = 0 then inner cs
  else
    match cs with
    | [] => none
    | c :: cs => if c = sep then inner cs else none

/-- An octet: a decimal number of at most three digits, without a leading zero. -/
def readOctet : List Char → Option (Octet × List Char) :=
  readNumber 256 10 3 false

/-- A segment: a hexadecimal number of at most four digits. -/
def readSegment : List Char → Option (Segment × List Char) :=
  readNumber 65536 16 4 true

/-- `Parser::read_ipv4_addr`. -/
def readIpv4 (cs : List Char) : Option (Ipv4Addr × List Char) := do
  let (a, cs) ← readSeparator '.' 0 readOctet cs
  let (b, cs) ← readSeparator '.' 1 readOctet cs
  let (c, cs) ← readSeparator '.' 2 readOctet cs
  let (d, cs) ← readSeparator '.' 3 readOctet cs
  some (⟨a, b, c, d⟩, cs)

/-- Two octets as a segment. -/
def segmentOf (hi lo : Octet) : Segment :=
  ⟨256 * hi.1 + lo.1, by omega⟩

/-- An embedded IPv4 address, as the two segments it stands for. -/
def Ipv4Addr.segments (addr : Ipv4Addr) : List Segment :=
  [segmentOf addr.a addr.b, segmentOf addr.c addr.d]

/-- `read_groups`: the segments at the front of a text, at most `left` of them, and whether they end
in an IPv4 address. There is room for one where two segments are left. -/
def readGroups : Nat → Nat → List Char → List Segment × Bool × List Char
  | 0, _, cs => ([], false, cs)
  | left + 1, index, cs =>
    match if 0 < left then readSeparator ':' index readIpv4 cs else none with
    | some (addr, cs) => (addr.segments, true, cs)
    | none =>
      match readSeparator ':' index readSegment cs with
      | some (segment, cs) =>
        (segment :: (readGroups left (index + 1) cs).1, (readGroups left (index + 1) cs).2)
      | none => ([], false, cs)

/-- No more segments are read than there is room for. -/
lemma readGroups_length (left index : Nat) (cs : List Char) :
    (readGroups left index cs).1.length ≤ left := by
  induction left generalizing index cs with
  | zero => exact Nat.le_refl 0
  | succ left ih =>
    rw [readGroups]
    split
    · next room =>
      split at room
      · exact Nat.succ_le_succ ‹0 < left›
      · cases room
    · split
      · exact Nat.succ_le_succ (ih _ _)
      · exact Nat.zero_le _

/-- `::` with the segments before and after it. -/
def fill (head tail : List Segment) (room : tail.length ≤ 8 - (head.length + 1))
    (short : head.length < 8) : Ipv6Addr where
  segments := head ++ List.replicate (8 - head.length - tail.length) 0 ++ tail
  size := by
    simp only [List.length_append, List.length_replicate]
    omega

/-- `Parser::read_ipv6_addr`. -/
def readIpv6 (cs : List Char) : Option (Ipv6Addr × List Char) :=
  let head := readGroups 8 0 cs
  if h : head.1.length = 8 then some (⟨head.1, h⟩, head.2.2)
  else if head.2.1 then none
  else
    match head.2.2 with
    | ':' :: ':' :: cs' =>
      let tail := readGroups (8 - (head.1.length + 1)) 0 cs'
      have short : head.1.length < 8 := Nat.lt_of_le_of_ne (readGroups_length 8 0 cs) h
      some (fill head.1 tail.1 (readGroups_length _ 0 cs') short, tail.2.2)
    | _ => none

/-- The value that a whole text is read as. -/
def parseAll {α : Type} (read : List Char → Option (α × List Char)) (s : String) : Option α :=
  match read s.toList with
  | some (a, []) => some a
  | _ => none

/-- The address that a text is read as. -/
def parseIp (s : String) : Option IpAddr :=
  match parseAll readIpv4 s with
  | some addr => some (.v4 addr)
  | none => (parseAll readIpv6 s).map .v6

/-- The characters that addresses are written in: hexadecimal digits, colons and dots. -/
def isAddressChar (c : Char) : Bool :=
  let n := c.toNat
  n == 46 || (48 ≤ n && n ≤ 58) || (65 ≤ n && n ≤ 70) || (97 ≤ n && n ≤ 102)

/-- What is taken off the front of a text has the characters of addresses. -/
def Takes (cs rest : List Char) : Prop :=
  ∃ used, cs = used ++ rest ∧ ∀ c ∈ used, isAddressChar c

section Takes

variable {cs rest rest' : List Char}

/-- Nothing may be taken, -/
lemma Takes.refl (cs : List Char) : Takes cs cs :=
  ⟨[], rfl, nofun⟩

/-- one part after the other, -/
lemma Takes.trans (first : Takes cs rest) (second : Takes rest rest') : Takes cs rest' := by
  obtain ⟨used, rfl, plain⟩ := first
  obtain ⟨used', rfl, plain'⟩ := second
  refine ⟨used ++ used', (List.append_assoc _ _ _).symm, fun c mem => ?_⟩
  rcases List.mem_append.1 mem with mem | mem
  · exact plain c mem
  · exact plain' c mem

/-- and one character first. -/
lemma Takes.cons {c : Char} (plain : isAddressChar c) (tail : Takes cs rest) :
    Takes (c :: cs) rest :=
  .trans ⟨[c], rfl, fun _ mem => List.mem_singleton.1 mem ▸ plain⟩ tail

/-- Digits are characters of addresses. -/
lemma isAddressChar_of_toDigit {radix d : Nat} {c : Char} (digit : toDigit radix c = some d) :
    isAddressChar c := by
  simp only [toDigit] at digit
  simp only [isAddressChar, Bool.or_eq_true, Bool.and_eq_true, decide_eq_true_eq, beq_iff_eq]
  split at digit
  · omega
  · split at digit
    · omega
    · split at digit
      · omega
      · rw [if_neg (Nat.lt_irrefl radix)] at digit
        cases digit

/-- The digits at the front of a text are taken off it, -/
lemma takes_digits (radix : Nat) (cs : List Char) : Takes cs (digits radix cs).2 := by
  induction cs with
  | nil => exact .refl []
  | cons c cs ih =>
    rw [digits]
    split
    · exact .refl _
    · next d digit => exact .cons (isAddressChar_of_toDigit digit) ih

/-- A number is read up to the end of its digits. -/
lemma readNumber_rest {limit radix maxDigits : Nat} {allowZeroPrefix : Bool} {n : Fin limit}
    (read : readNumber limit radix maxDigits allowZeroPrefix cs = some (n, rest)) :
    rest = (digits radix cs).2 := by
  simp only [readNumber] at read
  split at read
  · cases read
  · split at read
    · cases read
    · split at read
      · cases read
        rfl
      · cases read

/-- so is a number, -/
lemma takes_readNumber {limit radix maxDigits : Nat} {allowZeroPrefix : Bool} {n : Fin limit}
    (read : readNumber limit radix maxDigits allowZeroPrefix cs = some (n, rest)) :
    Takes cs rest :=
  readNumber_rest read ▸ takes_digits radix cs

/-- a value with a separator before it, -/
lemma takes_readSeparator {α : Type} {sep : Char} {index : Nat}
    {inner : List Char → Option (α × List Char)} {a : α} (plain : isAddressChar sep)
    (takes : ∀ {cs a rest}, inner cs = some (a, rest) → Takes cs rest)
    (read : readSeparator sep index inner cs = some (a, rest)) : Takes cs rest := by
  unfold readSeparator at read
  split at read
  · exact takes read
  · split at read
    · cases read
    · split at read
      · next c cs same => exact .cons (same ▸ plain) (takes read)
      · cases read

/-- an IPv4 address, -/
lemma takes_readIpv4 {addr : Ipv4Addr} (read : readIpv4 cs = some (addr, rest)) :
    Takes cs rest := by
  have octet : ∀ {index cs a rest}, readSeparator '.' index readOctet cs = some (a, rest) →
      Takes cs rest := takes_readSeparator (by decide) takes_readNumber
  simp only [readIpv4, bind, Option.bind_eq_some_iff] at read
  obtain ⟨⟨a, cs1⟩, read1, ⟨b, cs2⟩, read2, ⟨c, cs3⟩, read3, ⟨d, cs4⟩, read4, e⟩ := read
  cases e
  exact (octet read1).trans ((octet read2).trans ((octet read3).trans (octet read4)))

/-- a sequence of segments, -/
lemma takes_readGroups (left index : Nat) (cs : List Char) :
    Takes cs (readGroups left index cs).2.2 := by
  induction left generalizing index cs with
  | zero => exact .refl cs
  | succ left ih =>
    rw [readGroups]
    split
    · next addr cs' room =>
      split at room
      · exact takes_readSeparator (by decide) takes_readIpv4 room
      · cases room
    · split
      · next segment cs' read =>
        exact .trans (takes_readSeparator (by decide) takes_readNumber read) (ih _ _)
      · exact .refl cs

/-- and an IPv6 address. -/
lemma takes_readIpv6 {addr : Ipv6Addr} (read : readIpv6 cs = some (addr, rest)) :
    Takes cs rest := by
  have head := takes_readGroups 8 0 cs
  rw [readIpv6] at read
  split at read
  · cases read
    exact head
  · split at read
    · cases read
    · split at read
      · next cs' e =>
        cases read
        rw [e] at head
        exact head.trans (.cons (by decide) (.cons (by decide) (takes_readGroups _ _ _)))
      · cases read

/-- A text that is read to its end has the characters of addresses only. -/
lemma takes_parseAll {α : Type} {read : List Char → Option (α × List Char)} {s : String} {a : α}
    (takes : ∀ {cs a rest}, read cs = some (a, rest) → Takes cs rest)
    (parsed : parseAll read s = some a) : ∀ c ∈ s.toList, isAddressChar c := by
  rw [parseAll] at parsed
  split at parsed
  · next all =>
    obtain ⟨used, e, plain⟩ := takes all
    rwa [e, List.append_nil]
  · cases parsed

end Takes

/-- A text that is read as an address has the characters of addresses only. -/
theorem parseIp_chars {s : String} {ip : IpAddr} (parsed : parseIp s = some ip) :
    ∀ c ∈ s.toList, isAddressChar c := by
  rw [parseIp] at parsed
  split at parsed
  · next addr v4 => exact takes_parseAll takes_readIpv4 v4
  · obtain ⟨addr, v6, _⟩ := Option.map_eq_some_iff.1 parsed
    exact takes_parseAll takes_readIpv6 v6

example : parseIp "::" = parseIp "0:0:0:0:0:0:0:0" ∧ (parseIp "::").isSome ∧
    parseIp "::ffff:1.2.3.4" = parseIp "0:0:0:0:0:FFFF:0102:304" ∧ parseIp "01.2.3.4" = none ∧
    parseIp "1:2:3:4:5:6:7::8" = none ∧ parseIp ":::" = none := by
  decide

end OxmlMcp.Net
