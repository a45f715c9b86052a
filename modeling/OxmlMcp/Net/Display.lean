import OxmlMcp.Net.Ip
import Mathlib.Data.List.Forall2
import Mathlib.Data.List.GetD
import Mathlib.Data.List.TakeWhile

/-!
# The canonical text of an address

`Display` of Rust for addresses: the longest run of zero segments is written as `::`, the first of
equally long ones, and an IPv4 address mapped into IPv6 in its own notation.

* `parseIp_display`: the canonical text of an address is read as the address.
-/

namespace OxmlMcp.Net

/-- An octet in decimal. -/
def decimal (o : Octet) : List Char :=
  Nat.toDigits 10 o.1

/-- A segment in hexadecimal. -/
def hex (g : Segment) : List Char :=
  Nat.toDigits 16 g.1

/-- Some segments, each with a colon before it. -/
def colonGroups (gs : List Segment) : List Char :=
  gs.flatMap fun g => ':' :: hex g

/-- `fmt_subslice`: some segments with colons between them. -/
def groups : List Segment → List Char
  | [] => []
  | g :: gs => hex g ++ colonGroups gs

/-- The number of zero segments from a place on. -/
def zerosAt (segments : List Segment) (start : Nat) : Nat :=
  ((segments.drop start).takeWhile (· = 0)).length

/-- The longest span of zero segments, the first of equally long ones: its start and its length. -/
def longestZeros (segments : List Segment) : Nat × Nat :=
  (List.range segments.length).foldl
    (fun best i => if best.2 < zerosAt segments i then (i, zerosAt segments i) else best) (0, 0)

/-- `Display for Ipv4Addr`. -/
def Ipv4Addr.chars (addr : Ipv4Addr) : List Char :=
  decimal addr.a ++ '.' :: (decimal addr.b ++ '.' :: (decimal addr.c ++ '.' :: decimal addr.d))

/-- `Ipv6Addr::to_ipv4_mapped`. -/
def Ipv6Addr.toIpv4Mapped (addr : Ipv6Addr) : Option Ipv4Addr :=
  if addr.segments.take 6 = [0, 0, 0, 0, 0, 65535] then
    let hi := addr.segments.getD 6 0
    let lo := addr.segments.getD 7 0
    some ⟨⟨hi.1 / 256, by omega⟩, ⟨hi.1 % 256, by omega⟩, ⟨lo.1 / 256, by omega⟩,
      ⟨lo.1 % 256, by omega⟩⟩
  else none

/-- Some segments with a span of zeros written as `::`, if it is longer than one. -/
def compress (segments : List Segment) (zeros : Nat × Nat) : List Char :=
  if 1 < zeros.2 then
    groups (segments.take zeros.1) ++ ':' :: ':' :: groups (segments.drop (zeros.1 + zeros.2))
  else groups segments

/-- `Display for Ipv6Addr`. -/
def Ipv6Addr.chars (addr : Ipv6Addr) : List Char :=
  match addr.toIpv4Mapped with
  | some mapped => ':' :: ':' :: 'f' :: 'f' :: 'f' :: 'f' :: ':' :: mapped.chars
  | none => compress addr.segments (longestZeros addr.segments)

/-- The canonical text of an address. -/
def IpAddr.display : IpAddr → String
  | v4 addr => .ofList addr.chars
  | v6 addr => .ofList addr.chars

example : (parseIp "2001:DB8:0:0:1::1").map IpAddr.display = some "2001:db8::1:0:0:1" ∧
    (parseIp "0:0:0:0:0:0:0:0").map IpAddr.display = some "::" ∧
    (parseIp "::FFFF:7f00:1").map IpAddr.display = some "::ffff:127.0.0.1" := by
  decide

section Digits

variable {radix : Nat} {cs rest : List Char} {ds : List Nat}

/-- A text that does not go on with a digit. -/
def NoDigit (radix : Nat) (rest : List Char) : Prop :=
  rest.head?.bind (toDigit radix) = none

/-- No digits are at the front of a text that does not begin with one. -/
lemma digits_noDigit (stop : NoDigit radix rest) : digits radix rest = ([], rest) := by
  cases rest with
  | nil => rfl
  | cons c rest =>
    have none' : toDigit radix c = none := stop
    rw [digits, none']

/-- The digits at the front of a text end where no digit follows. -/
lemma digits_append (each : List.Forall₂ (fun c d => toDigit radix c = some d) cs ds)
    (stop : NoDigit radix rest) : digits radix (cs ++ rest) = (ds, rest) := by
  induction each with
  | nil => exact digits_noDigit stop
  | cons digit _ ih => rw [List.cons_append, digits, digit, ih]

/-- One digit more. -/
lemma value_concat (ds : List Nat) (d : Nat) : value radix (ds ++ [d]) = radix * value radix ds + d := by
  rw [value, List.foldl_append]
  rfl

/-- The two radices that addresses are written in. -/
def AddressRadix (radix : Nat) : Prop :=
  radix = 10 ∨ radix = 16

/-- A digit is read as it is written. -/
lemma toDigit_digitChar (known : AddressRadix radix) {d : Nat} (lt : d < radix) :
    toDigit radix d.digitChar = some d := by
  have decimal : ∀ d < 10, toDigit 10 (Nat.digitChar d) = some d := by decide
  have hex : ∀ d < 16, toDigit 16 (Nat.digitChar d) = some d := by decide
  rcases known with rfl | rfl
  · exact decimal d lt
  · exact hex d lt

/-- Both radices are more than one, -/
lemma AddressRadix.one_lt (known : AddressRadix radix) : 1 < radix := by
  rcases known with rfl | rfl
  · decide
  · decide

/-- and at most 16. -/
lemma AddressRadix.le (known : AddressRadix radix) : radix ≤ 16 := by
  rcases known with rfl | rfl
  · decide
  · exact Nat.le_refl 16

/-- The digits of a number stand for it. -/
lemma exists_digits (known : AddressRadix radix) (n : Nat) :
    ∃ ds, List.Forall₂ (fun c d => toDigit radix c = some d) (Nat.toDigits radix n) ds ∧
      value radix ds = n := by
  have two := known.one_lt
  induction n using Nat.strongRecOn with
  | _ n ih =>
    rw [Nat.toDigits_eq_if two]
    split
    · next lt =>
      exact ⟨[n], .cons (toDigit_digitChar known lt) .nil, by simp [value]⟩
    · next le =>
      obtain ⟨ds, each, same⟩ := ih (n / radix) (Nat.div_lt_self (by omega) two)
      have last := toDigit_digitChar known (Nat.mod_lt n (by omega))
      refine ⟨ds ++ [n % radix], List.rel_append each (.cons last .nil), ?_⟩
      rw [value_concat, same]
      exact Nat.div_add_mod n radix

/-- The digits that numbers are written with. -/
def isLowerHex (c : Char) : Bool :=
  let n := c.toNat
  (48 ≤ n && n ≤ 57) || (97 ≤ n && n ≤ 102)

/-- Numbers are written with lowercase hexadecimal digits. -/
lemma isLowerHex_of_mem (known : AddressRadix radix) {n : Nat} {c : Char}
    (mem : c ∈ Nat.toDigits radix n) : isLowerHex c := by
  have plain : ∀ d < 16, isLowerHex (Nat.digitChar d) := by decide
  have two := known.one_lt
  induction n using Nat.strongRecOn with
  | _ n ih =>
    rw [Nat.toDigits_eq_if two] at mem
    split at mem
    · next lt =>
      rw [List.mem_singleton.1 mem]
      exact plain n (Nat.lt_of_lt_of_le lt known.le)
    · next ge =>
      rcases List.mem_append.1 mem with mem | mem
      · exact ih (n / radix) (Nat.div_lt_self (by omega) two) mem
      · rw [List.mem_singleton.1 mem]
        have lt := Nat.mod_lt n (Nat.zero_lt_of_lt two)
        exact plain _ (Nat.lt_of_lt_of_le lt known.le)

/-- A number has a first digit, whatever follows it. -/
lemma head?_toDigits_append (n : Nat) (rest : List Char) :
    (Nat.toDigits radix n ++ rest).head? = (Nat.toDigits radix n).head? := by
  obtain ⟨c, cs, e⟩ := List.exists_cons_of_ne_nil (Nat.toDigits_ne_nil (b := radix) (n := n))
  rw [e]
  rfl

/-- The digits of a number do not start with a zero, unless they are one. -/
lemma eq_zero_of_head (known : AddressRadix radix) {n : Nat}
    (head : (Nat.toDigits radix n).head? = some '0') : n = 0 := by
  have two := known.one_lt
  induction n using Nat.strongRecOn with
  | _ n ih =>
    rw [Nat.toDigits_eq_if two] at head
    split at head
    · exact Nat.digitChar_eq_zero.1 (Option.some.inj head)
    · rw [head?_toDigits_append] at head
      have zero := ih (n / radix) (Nat.div_lt_self (by omega) two) head
      have pos : 0 < n / radix := Nat.div_pos (by omega) (by omega)
      omega

/-- A number is read back from its digits. -/
lemma readNumber_toDigits {limit maxDigits n : Nat} {allowZeroPrefix : Bool}
    (known : AddressRadix radix) (lt : n < limit) (short : (Nat.toDigits radix n).length ≤ maxDigits)
    (stop : NoDigit radix rest) :
    readNumber limit radix maxDigits allowZeroPrefix (Nat.toDigits radix n ++ rest) =
      some (⟨n, lt⟩, rest) := by
  obtain ⟨ds, each, same⟩ := exists_digits known n
  have length := each.length_eq
  have pos := Nat.length_toDigits_pos (b := radix) (n := n)
  have noPrefix : ¬ (allowZeroPrefix = false ∧
      (Nat.toDigits radix n ++ rest).head? = some '0' ∧ 1 < ds.length) := by
    rintro ⟨_, head, many⟩
    rw [head?_toDigits_append] at head
    rw [eq_zero_of_head known head, Nat.toDigits_zero, List.length_singleton] at length
    omega
  unfold readNumber
  simp only [digits_append each stop, same]
  rw [if_neg (by omega), if_neg noPrefix, dif_pos lt]

end Digits

/-- An octet is read as it is written, -/
lemma readOctet_decimal (o : Octet) {rest : List Char} (stop : NoDigit 10 rest) :
    readOctet (decimal o ++ rest) = some (o, rest) := by
  refine readNumber_toDigits (.inl rfl) o.2 ?_ stop
  exact (Nat.length_toDigits_le_iff (by decide) (by decide)).2 (by omega)

/-- and so is a segment. -/
lemma readSegment_hex (g : Segment) {rest : List Char} (stop : NoDigit 16 rest) :
    readSegment (hex g ++ rest) = some (g, rest) := by
  refine readNumber_toDigits (.inr rfl) g.2 ?_ stop
  exact (Nat.length_toDigits_le_iff (by decide) (by decide)).2 (by omega)

/-- The first of a sequence has no separator before it, -/
@[simp] lemma readSeparator_zero {α : Type} (sep : Char)
    (inner : List Char → Option (α × List Char)) (cs : List Char) :
    readSeparator sep 0 inner cs = inner cs :=
  if_pos rfl

/-- the others have one, -/
@[simp] lemma readSeparator_succ {α : Type} (sep : Char) (index : Nat)
    (inner : List Char → Option (α × List Char)) (cs : List Char) :
    readSeparator sep (index + 1) inner (sep :: cs) = inner cs := by
  simp [readSeparator]

/-- and are not read without it. -/
lemma head_of_readSeparator {α : Type} {sep : Char} {index : Nat}
    {inner : List Char → Option (α × List Char)} {cs : List Char} {r : α × List Char}
    (read : readSeparator sep (index + 1) inner cs = some r) : cs.head? = some sep := by
  cases cs with
  | nil => cases read
  | cons c cs =>
    have read : (if c = sep then inner cs else none) = some r := read
    split at read
    · next same => rw [same]; rfl
    · cases read

/-- An IPv4 address is read back from its text. -/
lemma readIpv4_chars (addr : Ipv4Addr) {rest : List Char} (stop : NoDigit 10 rest) :
    readIpv4 (addr.chars ++ rest) = some (addr, rest) := by
  have dot : ∀ cs, NoDigit 10 ('.' :: cs) := fun _ => rfl
  have next' : ∀ (o : Octet) index cs, NoDigit 10 cs →
      readSeparator '.' (index + 1) readOctet ('.' :: (decimal o ++ cs)) = some (o, cs) := by
    intro o index cs stop
    rw [readSeparator_succ, readOctet_decimal o stop]
  simp only [Ipv4Addr.chars, List.append_assoc, List.cons_append, readIpv4, readSeparator_zero,
    readOctet_decimal addr.a (dot _), next' addr.b 0 _ (dot _), next' addr.c 1 _ (dot _),
    next' addr.d 2 _ stop, bind, Option.bind]

/-- Or from the whole of a text. -/
lemma readIpv4_whole (addr : Ipv4Addr) : readIpv4 addr.chars = some (addr, []) := by
  have read : readIpv4 (addr.chars ++ []) = some (addr, []) := readIpv4_chars addr rfl
  rwa [List.append_nil] at read

/-- What follows a group: nothing, or a colon. -/
def GroupEnds (rest : List Char) : Prop :=
  rest.head?.all (· = ':')

/-- What follows the last group: nothing, or two colons. -/
def GroupsEnd (rest : List Char) : Prop :=
  rest = [] ∨ ∃ cs, rest = ':' :: ':' :: cs

/-- A group ends where no digit follows, -/
lemma GroupEnds.noDigit {rest : List Char} (stop : GroupEnds rest) (radix : Nat) :
    NoDigit radix rest := by
  cases rest with
  | nil => rfl
  | cons c rest =>
    obtain rfl : c = ':' := by simpa [GroupEnds] using stop
    show toDigit radix ':' = none
    simp [toDigit]

/-- nor a dot. -/
lemma GroupEnds.head_ne_dot {rest : List Char} (stop : GroupEnds rest) :
    rest.head? ≠ some '.' := by
  intro head
  rw [GroupEnds, head] at stop
  exact absurd stop (by decide)

/-- The last group ends as a group does. -/
lemma GroupsEnd.groupEnds {rest : List Char} (stop : GroupsEnd rest) : GroupEnds rest := by
  rcases stop with rfl | ⟨cs, rfl⟩
  · rfl
  · rfl

/-- No IPv4 address is at the front of a text unless a dot follows its digits. -/
lemma readIpv4_none {cs : List Char} (stop : (digits 10 cs).2.head? ≠ some '.') :
    readIpv4 cs = none := by
  rw [Option.eq_none_iff_forall_ne_some]
  rintro ⟨addr, rest⟩ read
  simp only [readIpv4, bind, Option.bind_eq_some_iff, readSeparator_zero] at read
  obtain ⟨⟨a, cs1⟩, read1, ⟨b, cs2⟩, read2, _⟩ := read
  obtain rfl := readNumber_rest read1
  exact stop (head_of_readSeparator read2)

/-- No IPv4 address starts with a group. -/
lemma readIpv4_hex (g : Segment) {rest : List Char} (stop : GroupEnds rest) :
    readIpv4 (hex g ++ rest) = none := by
  have plain : ∀ c ∈ hex g, c ≠ '.' := by
    rintro c mem rfl
    exact absurd (isLowerHex_of_mem (.inr rfl) mem) (by decide)
  apply readIpv4_none
  generalize hex g = cs at plain
  induction cs with
  | nil =>
    rw [List.nil_append, digits_noDigit (stop.noDigit 10)]
    exact stop.head_ne_dot
  | cons c cs ih =>
    obtain ⟨first, later⟩ := List.forall_mem_cons.1 plain
    rw [List.cons_append, digits]
    split
    · simpa using first
    · exact ih later

/-- Nothing is read at the end of the groups. -/
lemma GroupsEnd.readSeparator {α : Type} {inner : List Char → Option (α × List Char)}
    {rest : List Char} (stop : GroupsEnd rest) (index : Nat)
    (nothing : ∀ rest, GroupEnds rest → inner rest = none) :
    readSeparator ':' index inner rest = none := by
  cases index with
  | zero =>
    rw [readSeparator_zero]
    exact nothing _ stop.groupEnds
  | succ index =>
    rcases stop with rfl | ⟨cs, rfl⟩
    · rfl
    · rw [readSeparator_succ]
      exact nothing _ rfl

/-- No IPv4 address begins where a group ends, -/
lemma readIpv4_groupEnds {rest : List Char} (stop : GroupEnds rest) : readIpv4 rest = none := by
  apply readIpv4_none
  rw [digits_noDigit (stop.noDigit 10)]
  exact stop.head_ne_dot

/-- and no segment. -/
lemma readSegment_groupEnds {rest : List Char} (stop : GroupEnds rest) :
    readSegment rest = none := by
  unfold readSegment readNumber
  simp only [digits_noDigit (stop.noDigit 16)]
  exact if_pos (.inl rfl)

/-- No segments are read after the last group. -/
lemma GroupsEnd.readGroups {rest : List Char} (stop : GroupsEnd rest) (left index : Nat) :
    readGroups left index rest = ([], false, rest) := by
  cases left with
  | zero => rfl
  | succ left =>
    have noAddr := stop.readSeparator index fun _ => readIpv4_groupEnds
    have noSegment := stop.readSeparator index fun _ => readSegment_groupEnds
    rw [Net.readGroups, noAddr, noSegment]
    simp

/-- One group more. -/
lemma readGroups_group {left index : Nat} {g : Segment} {cs rest : List Char}
    (here : ∀ {α : Type} (inner : List Char → Option (α × List Char)),
      readSeparator ':' index inner cs = inner (hex g ++ rest))
    (stop : GroupEnds rest) :
    readGroups (left + 1) index cs =
      (g :: (readGroups left (index + 1) rest).1, (readGroups left (index + 1) rest).2) := by
  rw [readGroups, here, here, readIpv4_hex g stop, readSegment_hex g (stop.noDigit 16)]
  simp

/-- A group ends where another begins, or where the last one does. -/
lemma colonGroups_ends (gs : List Segment) {rest : List Char} (stop : GroupsEnd rest) :
    GroupEnds (colonGroups gs ++ rest) := by
  cases gs with
  | nil => exact stop.groupEnds
  | cons g gs => rfl

/-- The groups after the first are read back from their text. -/
lemma readGroups_colonGroups {gs : List Segment} {left index : Nat} {rest : List Char}
    (room : gs.length ≤ left) (stop : GroupsEnd rest) :
    readGroups left (index + 1) (colonGroups gs ++ rest) = (gs, false, rest) := by
  induction gs generalizing left index with
  | nil => exact stop.readGroups left (index + 1)
  | cons g gs ih =>
    obtain ⟨left, rfl⟩ := Nat.exists_eq_succ_of_ne_zero (Nat.ne_zero_of_lt room)
    have text : colonGroups (g :: gs) ++ rest = ':' :: (hex g ++ (colonGroups gs ++ rest)) := by
      simp [colonGroups]
    have read : readGroups left (index + 1 + 1) (colonGroups gs ++ rest) = (gs, false, rest) :=
      ih (Nat.le_of_succ_le_succ room)
    rw [text, readGroups_group (g := g) (fun inner => readSeparator_succ ':' index inner _)
      (colonGroups_ends gs stop), read]

/-- Groups are read back from their text. -/
lemma readGroups_groups {gs : List Segment} {left : Nat} {rest : List Char}
    (room : gs.length ≤ left) (stop : GroupsEnd rest) :
    readGroups left 0 (groups gs ++ rest) = (gs, false, rest) := by
  cases gs with
  | nil => exact stop.readGroups left 0
  | cons g gs =>
    obtain ⟨left, rfl⟩ := Nat.exists_eq_succ_of_ne_zero (Nat.ne_zero_of_lt room)
    rw [groups, List.append_assoc, readGroups_group (g := g)
      (fun inner => readSeparator_zero ':' inner _) (colonGroups_ends gs stop),
      readGroups_colonGroups (Nat.le_of_succ_le_succ room) stop]

/-- Or from the whole of a text. -/
lemma readGroups_whole {gs : List Segment} {left : Nat} (room : gs.length ≤ left) :
    readGroups left 0 (groups gs) = (gs, false, []) := by
  have read := readGroups_groups room (.inl rfl)
  rwa [List.append_nil] at read

/-- A text without `::` is read as its eight groups. -/
lemma readIpv6_groups (addr : Ipv6Addr) : readIpv6 (groups addr.segments) = some (addr, []) := by
  unfold readIpv6
  simp only [readGroups_whole (Nat.le_of_eq addr.size)]
  rw [dif_pos addr.size]

/-- A text with `::` is read as the groups before and after it, with zeros between. -/
lemma readIpv6_fill {head tail : List Segment} (room : tail.length ≤ 8 - (head.length + 1))
    (short : head.length < 8) :
    readIpv6 (groups head ++ ':' :: ':' :: groups tail) =
      some (fill head tail room short, []) := by
  have first := readGroups_groups (Nat.le_of_lt short) (.inr ⟨groups tail, rfl⟩)
  unfold readIpv6
  simp only [first]
  rw [dif_neg (Nat.ne_of_lt short), if_neg Bool.false_ne_true]
  simp only [readGroups_whole room]

/-- Some places of a list hold zeros. -/
def ZeroSpan (segments : List Segment) (span : Nat × Nat) : Prop :=
  segments.drop span.1 = List.replicate span.2 0 ++ segments.drop (span.1 + span.2)

/-- From each place on there is a span of as many zeros as are counted. -/
lemma zeroSpan_zerosAt (segments : List Segment) (start : Nat) :
    ZeroSpan segments (start, zerosAt segments start) := by
  have zeros : (segments.drop start).takeWhile (· = 0) =
      List.replicate (zerosAt segments start) 0 := by
    refine List.eq_replicate_iff.2 ⟨rfl, fun g mem => ?_⟩
    simpa using List.mem_takeWhile_imp mem
  have cut := List.takeWhile_append_dropWhile (p := (· = 0)) (l := segments.drop start)
  have after : (segments.drop start).dropWhile (· = 0) =
      segments.drop (start + zerosAt segments start) := by
    have left : (_ ++ (segments.drop start).dropWhile (· = 0)).drop
        ((segments.drop start).takeWhile (· = 0)).length = _ := List.drop_left
    rw [← List.drop_drop, zerosAt, ← left, cut]
  rw [ZeroSpan, ← after, ← zeros, cut]

/-- The longest span of zeros is one. -/
lemma zeroSpan_longestZeros (segments : List Segment) :
    ZeroSpan segments (longestZeros segments) := by
  have fold : ∀ (starts : List Nat) best, ZeroSpan segments best →
      ZeroSpan segments (starts.foldl (fun best i =>
        if best.2 < zerosAt segments i then (i, zerosAt segments i) else best) best) := by
    intro starts
    induction starts with
    | nil => exact fun _ span => span
    | cons i starts ih =>
      intro best span
      apply ih
      show ZeroSpan segments (if _ then _ else _)
      split
      · exact zeroSpan_zerosAt segments i
      · exact span
  exact fold _ (0, 0) rfl

variable {addr : Ipv6Addr}

/-- A segment is that of its two octets. -/
lemma segmentOf_div (g : Segment) :
    segmentOf ⟨g.1 / 256, by omega⟩ ⟨g.1 % 256, by omega⟩ = g := by
  apply Fin.ext
  exact Nat.div_add_mod g.1 256

/-- A mapped address has zeros, ones, and the segments of the IPv4 address. -/
lemma segments_of_mapped {mapped : Ipv4Addr} (is : addr.toIpv4Mapped = some mapped) :
    addr.segments = [0, 0, 0, 0, 0, 65535] ++ mapped.segments := by
  have six : 6 < addr.segments.length := by rw [addr.size]; decide
  have seven : 7 < addr.segments.length := by rw [addr.size]; decide
  rw [Ipv6Addr.toIpv4Mapped] at is
  split at is
  · next front =>
    have mapped' := Option.some.inj is
    have last : addr.segments.drop 6 = [addr.segments.getD 6 0, addr.segments.getD 7 0] := by
      rw [List.drop_eq_getElem_cons six, List.drop_eq_getElem_cons seven,
        List.drop_of_length_le (Nat.le_of_eq addr.size), List.getD_eq_getElem _ _ six,
        List.getD_eq_getElem _ _ seven]
    rw [← mapped', ← front, Ipv4Addr.segments, segmentOf_div, segmentOf_div, ← last,
      List.take_append_drop]
  · cases is

/-- A mapped address is read as it is written. -/
lemma readIpv6_mapped {mapped : Ipv4Addr} (is : addr.toIpv4Mapped = some mapped) :
    readIpv6 (':' :: ':' :: 'f' :: 'f' :: 'f' :: 'f' :: ':' :: mapped.chars) =
      some (addr, []) := by
  have ones : hex 65535 = ['f', 'f', 'f', 'f'] := by decide
  have last : readGroups 6 1 (':' :: mapped.chars) = (mapped.segments, true, []) := by
    rw [readGroups, if_pos (by decide), readSeparator_succ, readIpv4_whole]
  have first : readGroups 7 0 (hex 65535 ++ ':' :: mapped.chars) =
      (65535 :: (readGroups 6 1 (':' :: mapped.chars)).1,
        (readGroups 6 1 (':' :: mapped.chars)).2) :=
    readGroups_group (fun inner => readSeparator_zero ':' inner _) rfl
  rw [last, ones] at first
  have second : readGroups 7 0 ('f' :: 'f' :: 'f' :: 'f' :: ':' :: mapped.chars) =
      (65535 :: mapped.segments, true, []) := first
  have front := GroupsEnd.readGroups
    (.inr ⟨'f' :: 'f' :: 'f' :: 'f' :: ':' :: mapped.chars, rfl⟩) 8 0
  have same : ∀ room short, fill [] (65535 :: mapped.segments) room short = addr := by
    intro room short
    apply Ipv6Addr.ext
    exact (segments_of_mapped is).symm
  unfold readIpv6
  simp only [front]
  rw [dif_neg (by decide), if_neg Bool.false_ne_true]
  show some (fill [] (readGroups 7 0 ('f' :: 'f' :: 'f' :: 'f' :: ':' :: mapped.chars)).1 _ _,
    (readGroups 7 0 ('f' :: 'f' :: 'f' :: 'f' :: ':' :: mapped.chars)).2.2) = _
  simp only [second, same]

/-- A span of zeros is read back. -/
lemma readIpv6_span {zeros : Nat × Nat} (span : ZeroSpan addr.segments zeros)
    (many : 1 < zeros.2) :
    readIpv6 (groups (addr.segments.take zeros.1) ++
      ':' :: ':' :: groups (addr.segments.drop (zeros.1 + zeros.2))) = some (addr, []) := by
  have lengths := congrArg List.length span
  simp only [List.length_append, List.length_drop, List.length_replicate, addr.size] at lengths
  have head : (addr.segments.take zeros.1).length = zeros.1 := by
    rw [List.length_take, addr.size]
    omega
  have tail : (addr.segments.drop (zeros.1 + zeros.2)).length = 8 - (zeros.1 + zeros.2) := by
    rw [List.length_drop, addr.size]
  rw [readIpv6_fill (by omega) (by omega)]
  refine congrArg (fun addr => some (addr, [])) (Ipv6Addr.ext ?_)
  show addr.segments.take zeros.1 ++ List.replicate _ 0 ++ addr.segments.drop _ = addr.segments
  have count : 8 - (addr.segments.take zeros.1).length -
      (addr.segments.drop (zeros.1 + zeros.2)).length = zeros.2 := by
    omega
  rw [count, List.append_assoc, ← span, List.take_append_drop]

/-- The text of an IPv6 address is read as the address. -/
lemma readIpv6_chars (addr : Ipv6Addr) : readIpv6 addr.chars = some (addr, []) := by
  rw [Ipv6Addr.chars]
  split
  · next mapped is => exact readIpv6_mapped is
  · rw [compress]
    split
    · next many => exact readIpv6_span (zeroSpan_longestZeros addr.segments) many
    · exact readIpv6_groups addr

/-- No IPv4 address is at the front of some segments. -/
lemma readIpv4_groups (gs : List Segment) {rest : List Char} (stop : GroupsEnd rest) :
    readIpv4 (groups gs ++ rest) = none := by
  cases gs with
  | nil => exact readIpv4_groupEnds stop.groupEnds
  | cons g gs =>
    rw [groups, List.append_assoc]
    exact readIpv4_hex g (colonGroups_ends gs stop)

/-- It is not read as an IPv4 address. -/
lemma readIpv4_none_chars (addr : Ipv6Addr) : readIpv4 addr.chars = none := by
  rw [Ipv6Addr.chars]
  split
  · exact readIpv4_groupEnds rfl
  · rw [compress]
    split
    · exact readIpv4_groups _ (.inr ⟨_, rfl⟩)
    · rw [← List.append_nil (groups addr.segments)]
      exact readIpv4_groups _ (.inl rfl)

/-- The canonical text of an address is read as the address. -/
theorem parseIp_display (ip : IpAddr) : parseIp ip.display = some ip := by
  cases ip with
  | v4 addr =>
    rw [parseIp, IpAddr.display, parseAll, String.toList_ofList, readIpv4_whole]
  | v6 addr =>
    have notV4 : parseAll readIpv4 (.ofList addr.chars) = none := by
      rw [parseAll, String.toList_ofList, readIpv4_none_chars]
    have whole : parseAll readIpv6 (.ofList addr.chars) = some addr := by
      rw [parseAll, String.toList_ofList, readIpv6_chars]
    rw [parseIp, IpAddr.display, notV4, whole]
    rfl

/-- The characters of canonical texts. -/
def isCanonicalChar (c : Char) : Bool :=
  isLowerHex c || c == ':' || c == '.'

/-- A text of these characters. -/
def Canonical (cs : List Char) : Prop :=
  ∀ c ∈ cs, isCanonicalChar c

/-- One character first, -/
lemma Canonical.cons {c : Char} {cs : List Char} (first : isCanonicalChar c)
    (rest : Canonical cs) : Canonical (c :: cs) :=
  List.forall_mem_cons.2 ⟨first, rest⟩

/-- and one text after another. -/
lemma Canonical.append {cs cs' : List Char} (first : Canonical cs) (rest : Canonical cs') :
    Canonical (cs ++ cs') :=
  List.forall_mem_append.2 ⟨first, rest⟩

/-- Numbers are written with these characters, -/
lemma canonical_toDigits {radix : Nat} (known : AddressRadix radix) (n : Nat) :
    Canonical (Nat.toDigits radix n) := by
  intro c mem
  rw [isCanonicalChar, isLowerHex_of_mem known mem]
  rfl

/-- so are IPv4 addresses, -/
lemma Ipv4Addr.canonical (addr : Ipv4Addr) : Canonical addr.chars := by
  have octet : ∀ o : Octet, Canonical (decimal o) := fun o => canonical_toDigits (.inl rfl) o.1
  have dot : isCanonicalChar '.' := by decide
  exact (octet _).append (.cons dot ((octet _).append (.cons dot ((octet _).append
    (.cons dot (octet _))))))

/-- segments with colons between them, -/
lemma canonical_groups (gs : List Segment) : Canonical (groups gs) := by
  have segment : ∀ g : Segment, Canonical (hex g) := fun g => canonical_toDigits (.inr rfl) g.1
  cases gs with
  | nil => exact nofun
  | cons g gs =>
    apply (segment g).append
    intro c mem
    obtain ⟨g', _, mem⟩ := List.mem_flatMap.1 mem
    exact Canonical.cons (by decide) (segment g') c mem

/-- and IPv6 addresses. -/
lemma Ipv6Addr.canonical (addr : Ipv6Addr) : Canonical addr.chars := by
  have colon : isCanonicalChar ':' := by decide
  have f : isCanonicalChar 'f' := by decide
  rw [Ipv6Addr.chars]
  split
  · next mapped _ =>
    exact .cons colon (.cons colon (.cons f (.cons f (.cons f (.cons f (.cons colon
      mapped.canonical))))))
  · rw [compress]
    split
    · exact (canonical_groups _).append (.cons colon (.cons colon (canonical_groups _)))
    · exact canonical_groups _

/-- The canonical text of an address is in lowercase. -/
theorem display_canonical (ip : IpAddr) : Canonical ip.display.toList := by
  cases ip with
  | v4 addr =>
    rw [IpAddr.display, String.toList_ofList]
    exact addr.canonical
  | v6 addr =>
    rw [IpAddr.display, String.toList_ofList]
    exact addr.canonical

/-- An IPv6 address is written with a colon. -/
lemma colon_mem_chars (addr : Ipv6Addr) : ':' ∈ addr.chars := by
  rw [Ipv6Addr.chars]
  split
  · exact List.mem_cons_self
  · rw [compress]
    split
    · exact List.mem_append_right _ List.mem_cons_self
    · -- eight groups have colons between them
      cases e : addr.segments with
      | nil =>
        have size := addr.size
        rw [e] at size
        cases size
      | cons g gs =>
        cases gs with
        | nil =>
          have size := addr.size
          rw [e] at size
          cases size
        | cons g' gs => exact List.mem_append_right _ List.mem_cons_self

end OxmlMcp.Net
