import OxmlMcp.Access.Sdk
import OxmlMcp.Net.Display

/-!
# Spellings of an address

The socket layer binds the address that `--host` is read as, and the guard compares its text. Two
texts that are read as one address bind the same interface.

* `forBindHost_spelling`: which spellings of an address the guard tells apart.
-/

namespace OxmlMcp.Access
open OxmlMcp.Text OxmlMcp.Http OxmlMcp.Net

/-- The addresses that stand for every interface. -/
def Unspecified (ip : IpAddr) : Prop :=
  some ip = parseIp "0.0.0.0" ∨ some ip = parseIp "::"

/-- `Authority::host` of an address is the address, an IPv6 one in its brackets. -/
def ReadsAddresses (http : Parsers) : Prop :=
  ∀ s ip, parseIp s = some ip → http.authorityHost (bracketed s) = some (bracketed s)

/-- Two listeners accept the same requests. -/
def SameRequests (http : Parsers) (a b : String) : Prop :=
  ∀ headers, (Guard.forBindHost a).check http headers = .ok () ↔
    (Guard.forBindHost b).check http headers = .ok ()

/-- A listener asks nothing of the `Host` of a request. -/
def HostCheckOff (http : Parsers) (bindHost : String) : Prop :=
  ∀ headers, (Guard.forBindHost bindHost).check http headers = .ok () ↔
    ∀ v, headers.get ORIGIN = some v → LocalOrigin http bindHost v

/-- A listener accepts every request with a certain `Host` and no `Origin`. -/
def AcceptsHost (http : Parsers) (bindHost host : String) : Prop :=
  ∀ headers : HeaderMap, headers.get HOST = some (.ofStr host) → headers.get ORIGIN = none →
    (Guard.forBindHost bindHost).check http headers = .ok ()

variable {http : Parsers} {a b s : String} {ip : IpAddr}

section Address

/-- The characters of addresses are among these codes. -/
lemma isAddressChar_bounds {c : Char} (plain : isAddressChar c) :
    46 ≤ c.toNat ∧ c.toNat ≤ 70 ∨ 97 ≤ c.toNat ∧ c.toNat ≤ 102 := by
  simp only [isAddressChar, Bool.or_eq_true, Bool.and_eq_true, decide_eq_true_eq,
    beq_iff_eq] at plain
  omega

/-- The text of an address has no brackets. -/
lemma plain_of_parseIp (parsed : parseIp s = some ip) : ∀ c ∈ s.toList, c ≠ '[' ∧ c ≠ ']' := by
  intro c mem
  have bounds := isAddressChar_bounds (parseIp_chars parsed c mem)
  constructor
  · rintro rfl
    exact absurd bounds (by decide)
  · rintro rfl
    exact absurd bounds (by decide)

/-- An address is only put into lowercase, -/
lemma normalize_address (parsed : parseIp s = some ip) : normalize s = toAsciiLowercase s :=
  normalize_plain (plain_of_parseIp parsed)

/-- and so it is in brackets. -/
lemma normalize_bracketed (parsed : parseIp s = some ip) :
    normalize (bracketed s) = toAsciiLowercase s := by
  rw [bracketed]
  split
  · next colon => exact normalize_literal (by simpa using colon) (plain_of_parseIp parsed)
  · exact normalize_address parsed

/-- Brackets add no character but themselves. -/
lemma mem_bracketed {c : Char} (mem : c ∈ (bracketed s).toList) :
    c ∈ s.toList ∨ c = '[' ∨ c = ']' := by
  rw [bracketed] at mem
  split at mem
  · simp only [String.toList_append, List.mem_append] at mem
    rcases mem with (mem | mem) | mem
    · exact .inr (.inl (by simpa using mem))
    · exact .inl mem
    · exact .inr (.inr (by simpa using mem))
  · exact .inl mem

/-- A `Host` that is an address is visible and has no blanks. -/
lemma bracketed_bounds (parsed : parseIp s = some ip) :
    ∀ c ∈ (bracketed s).toList, 46 ≤ c.toNat ∧ c.toNat < 103 := by
  intro c mem
  rcases mem_bracketed mem with mem | rfl | rfl
  · have bounds := isAddressChar_bounds (parseIp_chars parsed c mem)
    omega
  · decide
  · decide

/-- An address has no blanks around it, -/
lemma trim_bracketed (parsed : parseIp s = some ip) : trim (bracketed s) = bracketed s := by
  apply trimMatches_of_forall
  intro c mem
  have bounds := bracketed_bounds parsed c mem
  simp only [isWhitespace, Bool.or_eq_false_iff, Bool.and_eq_false_iff, decide_eq_false_iff_not,
    beq_eq_false_iff_ne]
  omega

/-- and is a text as a header value. -/
lemma toStr_bracketed (parsed : parseIp s = some ip) :
    (HeaderValue.ofStr (bracketed s)).toStr = some (bracketed s) := by
  apply HeaderValue.toStr_ofStr
  intro c mem
  have bounds := bracketed_bounds parsed c mem
  omega

/-- An address that is a loopback name is spelled as the list has it. -/
lemma loopback_spelling (parsed : parseIp s = some ip)
    (mem : toAsciiLowercase s ∈ loopbackHosts) : s = "127.0.0.1" ∨ s = "::1" := by
  rcases List.mem_cons.1 mem with name | mem
  · -- `l` is no character of an address
    have letter : 'l' ∈ (toAsciiLowercase s).toList := by
      rw [name]
      decide
    rw [toAsciiLowercase, String.toList_ofList] at letter
    obtain ⟨c, mem, lower⟩ := List.mem_map.1 letter
    have bounds := isAddressChar_bounds (parseIp_chars parsed c mem)
    have toLower := toNat_toLower c
    rw [lower, show 'l'.toNat = 108 from rfl] at toLower
    split at toLower <;> omega
  · rcases List.mem_pair.1 mem with e | e
    · exact .inl (eq_of_toAsciiLowercase (by decide) e)
    · exact .inr (eq_of_toAsciiLowercase (by decide) e)

/-- The spellings that the guard compares with. -/
def knownSpellings : List String := ["0.0.0.0", "::", "127.0.0.1", "::1"]

/-- No two of them are one address. -/
lemma known_unique :
    ∀ s ∈ knownSpellings, ∀ t ∈ knownSpellings, parseIp s = parseIp t → s = t := by
  decide

/-- The wildcards are among the known spellings, -/
lemma Wildcard.known (wildcard : Wildcard s) : s ∈ knownSpellings := by
  rcases wildcard with rfl | rfl <;> decide

/-- and so are the loopback names that are addresses. -/
lemma loopback_known (parsed : parseIp s = some ip) (mem : toAsciiLowercase s ∈ loopbackHosts) :
    s ∈ knownSpellings := by
  rcases loopback_spelling parsed mem with rfl | rfl <;> decide

/-- A wildcard is the unspecified address, -/
lemma Wildcard.unspecified (wildcard : Wildcard s) (parsed : parseIp s = some ip) :
    Unspecified ip := by
  rcases wildcard with rfl | rfl
  · exact .inl parsed.symm
  · exact .inr parsed.symm

/-- and has one spelling. -/
lemma Wildcard.of_lowercase (wildcard : Wildcard a)
    (e : toAsciiLowercase a = toAsciiLowercase b) : b = a := by
  have plain : toAsciiLowercase a = a := by
    rcases wildcard with rfl | rfl <;> decide
  refine eq_of_toAsciiLowercase ?_ (e.symm.trans plain)
  rcases wildcard with rfl | rfl <;> decide

end Address

/-- A request with neither header passes exactly when every interface is bound. -/
lemma check_nil : (Guard.forBindHost a).check http [] = .ok () ↔ Wildcard a := by
  rw [check_ok_iff]
  constructor
  · rintro ⟨named, _⟩
    by_contra specific
    obtain ⟨_, none', _⟩ := named specific
    cases none'
  · exact fun wildcard => ⟨fun specific => absurd wildcard specific, nofun⟩

/-- A `Host` that is an address passes exactly when its lowercase names the server. -/
lemma check_host (reads : ReadsAddresses http) (parsed : parseIp s = some ip) {headers : HeaderMap}
    (host : headers.get HOST = some (.ofStr (bracketed s))) (noOrigin : headers.get ORIGIN = none) :
    (Guard.forBindHost a).check http headers = .ok () ↔
      (¬ Wildcard a → ServerName a (toAsciiLowercase s)) := by
  have parts : (HeaderValue.ofStr (bracketed s)).toStr.bind (hostName http) =
      some (toAsciiLowercase s) := by
    rw [toStr_bracketed parsed, Option.bind_some, hostName, trim_bracketed parsed,
      reads s ip parsed, Option.map_some, normalize_bracketed parsed]
  have name : LocalHost http a (.ofStr (bracketed s)) ↔ ServerName a (toAsciiLowercase s) := by
    rw [localHost_iff, parts]
    constructor
    · rintro ⟨_, e, named⟩
      cases e
      exact named
    · exact fun named => ⟨_, rfl, named⟩
  rw [check_ok_iff, host, noOrigin]
  constructor
  · rintro ⟨named, _⟩ specific
    obtain ⟨_, e, loc⟩ := named specific
    cases e
    exact name.1 loc
  · intro named
    refine ⟨fun specific => ⟨_, rfl, name.2 (named specific)⟩, ?_⟩
    intro v none'
    cases none'

/-- A request with a `Host` has it, -/
lemma get_host (v : HeaderValue) : HeaderMap.get [(HOST, v)] HOST = some v :=
  rfl

/-- and no `Origin`. -/
lemma get_origin (v : HeaderValue) : HeaderMap.get [(HOST, v)] ORIGIN = none :=
  rfl

/-- A listener accepts the text it is bound to. -/
lemma ServerName.self (specific : ¬ Wildcard a) (parsed : parseIp a = some ip) :
    ServerName a (toAsciiLowercase a) :=
  .inr ⟨specific, (normalize_address parsed).symm⟩

/-- What one listener accepts of another's text, if they accept the same. -/
lemma SameRequests.serverName (reads : ReadsAddresses http) (same : SameRequests http a b)
    (pa : parseIp a = some ip) (specific : ¬ Wildcard a) (specific' : ¬ Wildcard b) :
    ServerName b (toAsciiLowercase a) := by
  have own := (check_host reads pa (get_host _) (get_origin _)).2 fun _ => .self specific pa
  exact (check_host reads pa (get_host _) (get_origin _)).1 ((same _).1 own) specific'

/-- Accepting the same requests is symmetric. -/
lemma SameRequests.symm (same : SameRequests http a b) : SameRequests http b a :=
  fun headers => (same headers).symm

/-- Two listeners that accept the same are bound to one text, letter case aside. -/
lemma SameRequests.lowercase (reads : ReadsAddresses http) (same : SameRequests http a b)
    (pa : parseIp a = some ip) (pb : parseIp b = some ip) :
    toAsciiLowercase a = toAsciiLowercase b := by
  have wildcards : Wildcard a ↔ Wildcard b := (check_nil.symm.trans (same [])).trans check_nil
  have one : parseIp a = parseIp b := pa.trans pb.symm
  by_cases wildcard : Wildcard a
  · rw [known_unique a wildcard.known b (wildcards.1 wildcard).known one]
  · have specific := mt wildcards.2 wildcard
    rcases same.serverName reads pa wildcard specific with memA | ⟨_, e⟩
    · rcases same.symm.serverName reads pb specific wildcard with memB | ⟨_, e⟩
      · rw [known_unique a (loopback_known pa memA) b (loopback_known pb memB) one]
      · rw [e, normalize_address pa]
    · rw [e, normalize_address pb]

/-- Letter case does not matter. -/
lemma SameRequests.of_lowercase (pa : parseIp a = some ip) (pb : parseIp b = some ip)
    (e : toAsciiLowercase a = toAsciiLowercase b) : SameRequests http a b := by
  have wildcards : Wildcard a ↔ Wildcard b :=
    ⟨fun wildcard => wildcard.of_lowercase e ▸ wildcard,
      fun wildcard => wildcard.of_lowercase e.symm ▸ wildcard⟩
  have names : ServerName a = ServerName b := by
    funext name
    rw [ServerName, ServerName, wildcards, normalize_address pa, normalize_address pb, e]
  intro headers
  simp only [check_ok_iff, LocalHost, LocalOrigin, wildcards, names]

/-- The `Host` check is off exactly for a wildcard. -/
lemma hostCheckOff_iff : HostCheckOff http a ↔ Wildcard a := by
  constructor
  · intro off
    exact check_nil.1 ((off []).2 nofun)
  · intro wildcard headers
    rw [check_ok_iff]
    exact ⟨And.right, fun origin => ⟨fun specific => absurd wildcard specific, origin⟩⟩

/-- Canonical texts have no capitals, -/
lemma not_upper_of_canonical {c : Char} (plain : isCanonicalChar c) :
    ¬ (65 ≤ c.toNat ∧ c.toNat ≤ 90) := by
  simp only [isCanonicalChar, isLowerHex, Bool.or_eq_true, Bool.and_eq_true, decide_eq_true_eq,
    beq_iff_eq] at plain
  rcases plain with (digit | rfl) | rfl
  · omega
  · decide
  · decide

/-- so an address is displayed in lowercase. -/
lemma display_lowercase (ip : IpAddr) : toAsciiLowercase ip.display = ip.display := by
  rw [← String.toList_inj, toAsciiLowercase, String.toList_ofList]
  refine (List.map_congr_left fun c mem => ?_).trans (List.map_id' _)
  have toLower := toNat_toLower c
  rw [if_neg (not_upper_of_canonical (display_canonical ip c mem))] at toLower
  exact Char.toNat_inj.1 toLower

/-- An IPv6 address is displayed with colons, so it gets brackets. -/
lemma bracketed_display (addr : Ipv6Addr) :
    bracketed (IpAddr.v6 addr).display = "[" ++ (IpAddr.v6 addr).display ++ "]" := by
  rw [bracketed, if_pos]
  simpa [IpAddr.display] using colon_mem_chars addr

/-- The canonical text of a specific address names the server that is bound to this text, letter case
aside, or on the loopback interface. -/
lemma serverName_display {addr : Ipv6Addr} (parsed : parseIp a = some (.v6 addr))
    (specific : ¬ Wildcard a) :
    ServerName a (IpAddr.v6 addr).display ↔
      toAsciiLowercase a = (IpAddr.v6 addr).display ∨ (IpAddr.v6 addr).display = "::1" := by
  constructor
  · rintro (mem | ⟨_, e⟩)
    · rw [← display_lowercase] at mem
      rcases loopback_spelling (parseIp_display _) mem with e | e
      · -- an IPv4 address has no colon
        have colon := colon_mem_chars addr
        rw [← @String.toList_ofList addr.chars, show String.ofList addr.chars = _ from e] at colon
        exact absurd colon (by decide)
      · exact .inr e
    · rw [normalize_address parsed] at e
      exact .inl e.symm
  · rintro (e | e)
    · rw [← e]
      exact .self specific parsed
    · rw [e]
      exact .inl (by decide)

/-- A listener accepts the `Host` that is a text of an address when the text names it. -/
lemma acceptsHost_iff (reads : ReadsAddresses http) (parsed : parseIp s = some ip)
    (specific : ¬ Wildcard a) :
    AcceptsHost http a (bracketed s) ↔ ServerName a (toAsciiLowercase s) := by
  constructor
  · intro accepts
    exact (check_host reads parsed (get_host _) (get_origin _)).1
      (accepts _ (get_host _) (get_origin _)) specific
  · intro named headers host noOrigin
    exact (check_host reads parsed host noOrigin).2 fun _ => named

/-- The guard goes by the spelling of its address. It treats two spellings alike exactly when they
differ in the case of letters only, checks no `Host` for the two spellings `0.0.0.0` and `::` only,
and accepts a specific IPv6 address in its canonical form exactly when it is spelled so, letter case
aside, or is the loopback one. -/
theorem forBindHost_spelling (reads : ReadsAddresses http) (pa : parseIp a = some ip)
    (pb : parseIp b = some ip) :
    (SameRequests http a b ↔ toAsciiLowercase a = toAsciiLowercase b) ∧
    (HostCheckOff http a ↔ a = "0.0.0.0" ∨ a = "::") ∧
    ∀ addr, ip = .v6 addr → ¬ Unspecified ip →
      (AcceptsHost http a ("[" ++ ip.display ++ "]") ↔
        toAsciiLowercase a = ip.display ∨ ip.display = "::1") := by
  refine ⟨⟨fun same => same.lowercase reads pa pb, .of_lowercase pa pb⟩, hostCheckOff_iff, ?_⟩
  rintro addr rfl other
  have specific : ¬ Wildcard a := fun wildcard => other (wildcard.unspecified pa)
  rw [← bracketed_display, acceptsHost_iff reads (parseIp_display _) specific, display_lowercase]
  exact serverName_display pa specific

/-- The parsers on hosts without a port. -/
def plainHosts : Parsers where
  authorityHost s :=
    if s.toList.all fun c => isAddressChar c || c == '[' || c == ']' || c.isAlphanum || c == '-' then
      some s
    else none
  uri _ := none

/-- The sample parser reads addresses. -/
lemma plainHosts_readsAddresses : ReadsAddresses plainHosts := by
  intro s ip parsed
  refine if_pos (List.all_eq_true.2 fun c mem => ?_)
  rcases mem_bracketed mem with mem | rfl | rfl
  · rw [parseIp_chars parsed c mem]
    rfl
  · rfl
  · rfl

/-- A specific address in uppercase and spelled out. -/
theorem forBindHost_spelling_specific :
    ¬ SameRequests plainHosts "2001:DB8::1" "2001:db8:0:0:0:0:0:1" ∧
    ¬ HostCheckOff plainHosts "2001:DB8::1" ∧
    AcceptsHost plainHosts "2001:DB8::1" "[2001:db8::1]" := by
  have upper : parseIp "2001:DB8::1" =
      some (.v6 ⟨[8193, 3512, 0, 0, 0, 0, 0, 1], rfl⟩) := by decide
  have full : parseIp "2001:db8:0:0:0:0:0:1" =
      some (.v6 ⟨[8193, 3512, 0, 0, 0, 0, 0, 1], rfl⟩) := by decide
  obtain ⟨same, off, canonical⟩ := forBindHost_spelling plainHosts_readsAddresses upper full
  refine ⟨mt same.1 (by decide), mt off.1 (by decide), ?_⟩
  exact (canonical _ rfl (by unfold Unspecified; decide)).2 (.inl (by decide))

/-- Spelled out, the unspecified address has its `Host` check on, and a specific one is not reached
by its canonical name. -/
theorem spelled_out :
    parseIp "0:0:0:0:0:0:0:0" = parseIp "::" ∧ (parseIp "::").isSome ∧
    (Guard.forBindHost "::").check plainHosts [(HOST, .ofStr "box.lan")] = .ok () ∧
    (Guard.forBindHost "0:0:0:0:0:0:0:0").check plainHosts [(HOST, .ofStr "box.lan")] =
      .error (forbidden "Host header is not allowed") ∧
    parseIp "2001:db8:0:0:0:0:0:1" = parseIp "2001:db8::1" ∧
    (parseIp "2001:db8:0:0:0:0:0:1").map IpAddr.display = some "2001:db8::1" ∧
    (Guard.forBindHost "2001:db8:0:0:0:0:0:1").check plainHosts [(HOST, .ofStr "[2001:db8::1]")] =
      .error (forbidden "Host header is not allowed") := by
  refine ⟨?_, ?_, ?_, ?_, ?_, ?_, ?_⟩ <;> decide

end OxmlMcp.Access
