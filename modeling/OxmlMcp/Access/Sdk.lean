import OxmlMcp.Access.Policy

/-!
# The SDK's checks

The streamable HTTP transport leaves the `Host` and `Origin` checks to the SDK, configured with the
name lists of the guard (`streamableConfig`, from `serve_streamable_http` in `src/transport.rs`). The
SDK is not under `src/`: `Sdk` carries its decision as a parameter, and `Sdk.Documented` what is
documented of it for lists of the kind that the server makes (`SdkConfig.Plain`).

* `serverName_iff`: a parsed host is one of the server's names exactly when it is one of the hosts in
  the patterns made of them.
* `policies_compare`: the SDK accepts what the guard accepts, but for an `Origin` whose scheme is
  neither `http` nor `https`, and for a `Host` that is missing or names no host, which the guard does
  not look at where every interface is bound.
-/

namespace OxmlMcp.Access
open OxmlMcp.Text OxmlMcp.Http

/-- What the SDK is configured with: `none` for a disabled `Host` check. -/
structure SdkConfig where
  allowedHosts : Option (List String)
  allowedOrigins : List String

/-- The SDK, by whether it serves a request with this `Host` and `Origin`, each of which it may
lack. -/
structure Sdk where
  accepts : SdkConfig → Option HeaderValue → Option HeaderValue → Bool

/-- The configuration in `serve_streamable_http`. -/
def streamableConfig (bindHost : String) : SdkConfig where
  allowedHosts := Access.allowedHosts bindHost
  allowedOrigins := Access.allowedOrigins bindHost

/-- A host without a port: a name, or an IPv6 address, which has at least two colons. -/
def NoPort (entry : String) : Prop :=
  entry.toList.count ':' ≠ 1

instance (entry : String) : Decidable (NoPort entry) :=
  inferInstanceAs (Decidable (_ ≠ _))

/-- The schemes of web pages. -/
def WebScheme (scheme : String) : Prop :=
  scheme = "http" ∨ scheme = "https"

/-- The origin pattern `scheme://name:*`. -/
def originPattern (scheme name : String) : String :=
  scheme ++ "://" ++ name ++ ":*"

/-- The lists that are given have entries; none for a host has a port, and each for an origin is a
pattern of a web scheme. -/
structure SdkConfig.Plain (config : SdkConfig) : Prop where
  hosts : ∀ hosts, config.allowedHosts = some hosts → hosts ≠ [] ∧ ∀ entry ∈ hosts, NoPort entry
  origins : config.allowedOrigins ≠ [] ∧ ∀ entry ∈ config.allowedOrigins,
    ∃ scheme name, WebScheme scheme ∧ entry = originPattern scheme name

/-- A `Host` value that is an authority, with this host. The `trim` is the guard's; a value comes off
the wire without blanks around it. -/
def HostIs (http : Parsers) (v : HeaderValue) (host : String) : Prop :=
  ∃ text, v.toStr = some text ∧ http.authorityHost (trim text) = some host

/-- An `Origin` value that is a URI, with this scheme and host, trimmed likewise. -/
def OriginIs (http : Parsers) (v : HeaderValue) (scheme host : String) : Prop :=
  ∃ text uri, v.toStr = some text ∧ http.uri (trim text) = some uri ∧
    uri.scheme = some scheme ∧ uri.host = some host

/-- What the SDK asks of a `Host`: to be there and to name a host (it answers `400` otherwise, whether
or not the check is disabled), and one of the list. An entry without a port matches its host with any
port, brackets and case aside. -/
def HostPasses (http : Parsers) (config : SdkConfig) (host : Option HeaderValue) : Prop :=
  ∃ v name, host = some v ∧ HostIs http v name ∧
    ∀ hosts, config.allowedHosts = some hosts →
      ∃ entry ∈ hosts, normalize name = normalize entry

/-- What the SDK asks of an `Origin`, where there is one: to match a pattern. The pattern
`scheme://name:*` matches the origins of that scheme and host, case aside, with any port or none. -/
def OriginPasses (http : Parsers) (config : SdkConfig) (origin : Option HeaderValue) : Prop :=
  ∀ v, origin = some v → ∃ scheme name host, WebScheme scheme ∧
    originPattern scheme name ∈ config.allowedOrigins ∧ OriginIs http v scheme host ∧
    toAsciiLowercase host = toAsciiLowercase name

/-- What is documented of the SDK. -/
def Sdk.Documented (http : Parsers) (sdk : Sdk) : Prop :=
  ∀ config host origin, config.Plain →
    (sdk.accepts config host origin = true ↔
      HostPasses http config host ∧ OriginPasses http config origin)

/-- A host as it stands in a URI: a name or an address without colons, or an IPv6 literal in
brackets. -/
def UriHost (host : String) : Prop :=
  (∀ c ∈ host.toList, c ≠ '[' ∧ c ≠ ']' ∧ c ≠ ':') ∨
  ∃ inner, host = "[" ++ inner ++ "]" ∧ ':' ∈ inner.toList ∧
    ∀ c ∈ inner.toList, c ≠ '[' ∧ c ≠ ']'

/-- An `Origin` of the form `scheme://host[:port]`, as far as it is a URI. -/
def PlainOrigin (http : Parsers) (v : HeaderValue) : Prop :=
  ∀ scheme host, OriginIs http v scheme host → UriHost host

variable {http : Parsers} {bindHost : String}

/-- A host without brackets is only put into lowercase, -/
lemma normalize_plain {host : String} (plain : ∀ c ∈ host.toList, c ≠ '[' ∧ c ≠ ']') :
    normalize host = toAsciiLowercase host := by
  rw [normalize, trimMatches_of_forall]
  intro c mem
  simp [plain c mem]

/-- and of an IPv6 literal the brackets go. -/
lemma normalize_literal {inner : String} (colon : ':' ∈ inner.toList)
    (plain : ∀ c ∈ inner.toList, c ≠ '[' ∧ c ≠ ']') :
    normalize ("[" ++ inner ++ "]") = toAsciiLowercase inner := by
  have text : "[" ++ inner ++ "]" = String.ofList ('[' :: (inner.toList ++ [']'])) := by
    rw [← String.toList_inj]
    simp
  rw [normalize, text, trimMatches_enclosed (by decide) (by decide) (List.ne_nil_of_mem colon)]
  intro c mem
  simp [plain c mem]

/-- A normal form is its own normal form. -/
lemma normalize_idem (host : String) : normalize (normalize host) = normalize host := by
  have stable : ∀ c : Char, (c.toLower == '[' || c.toLower == ']') = (c == '[' || c == ']') := by
    intro c
    rw [Bool.eq_iff_iff, Bool.or_eq_true, Bool.or_eq_true, beq_iff_eq, beq_iff_eq, beq_iff_eq,
      beq_iff_eq, toLower_eq_iff (by decide) (by decide), toLower_eq_iff (by decide) (by decide)]
  rw [normalize, normalize, trimMatches_toAsciiLowercase stable, toAsciiLowercase_idem,
    trimMatches_idem]

/-- The names of a server are in normal form, -/
lemma ServerName.normal {name : String} (h : ServerName bindHost name) : normalize name = name := by
  have loopback : ∀ name ∈ loopbackHosts, normalize name = name := by decide
  rcases h with mem | ⟨_, rfl⟩
  · exact loopback name mem
  · exact normalize_idem bindHost

/-- so they are in lowercase. -/
lemma ServerName.lowercase {name : String} (h : ServerName bindHost name) :
    toAsciiLowercase name = name := by
  rw [← h.normal, normalize, toAsciiLowercase_idem]

/-- A name as it stands in an origin pattern. -/
def bracketed (name : String) : String :=
  if name.toList.contains ':' then "[" ++ name ++ "]" else name

/-- The patterns made of a name: one for each web scheme. -/
lemma mem_originPatterns {name entry : String} :
    entry ∈ originPatterns name ↔ ∃ scheme, WebScheme scheme ∧
      entry = originPattern scheme (bracketed name) := by
  have patterns : originPatterns name =
      [originPattern "http" (bracketed name), originPattern "https" (bracketed name)] := rfl
  rw [patterns, List.mem_pair]
  constructor
  · rintro (rfl | rfl)
    · exact ⟨"http", .inl rfl, rfl⟩
    · exact ⟨"https", .inr rfl, rfl⟩
  · rintro ⟨scheme, rfl | rfl, rfl⟩
    · exact .inl rfl
    · exact .inr rfl

/-- The patterns of a server: those of its names, with a web scheme. -/
lemma mem_allowedOrigins {entry : String} :
    entry ∈ allowedOrigins bindHost ↔ ∃ name scheme, ServerName bindHost name ∧ WebScheme scheme ∧
      entry = originPattern scheme (bracketed name) := by
  simp only [allowedOrigins, List.mem_flatMap, mem_originNames, mem_originPatterns]
  constructor
  · rintro ⟨name, named, scheme, web, e⟩
    exact ⟨name, scheme, named, web, e⟩
  · rintro ⟨name, scheme, named, web, e⟩
    exact ⟨name, named, scheme, web, e⟩

/-- A pattern of a web scheme says its scheme and its name, whatever stands in it. -/
lemma originPattern_inj {s t a b : String} (ht : WebScheme t)
    (e : originPattern s a = originPattern t b) (hs : WebScheme s) : s = t ∧ a = b := by
  rw [originPattern, originPattern, ← String.toList_inj] at e
  rcases hs with rfl | rfl <;> rcases ht with rfl | rfl
  · refine ⟨rfl, ?_⟩
    rw [← String.toList_inj]
    simpa using e
  · simp at e
  · simp at e
  · refine ⟨rfl, ?_⟩
    rw [← String.toList_inj]
    simpa using e

/-- A parsed host is one of the server's names exactly when it is one of the hosts in the patterns
made of them. -/
lemma serverName_iff {host : String} (uh : UriHost host) :
    ServerName bindHost (normalize host) ↔
      ∃ name, ServerName bindHost name ∧
        toAsciiLowercase host = toAsciiLowercase (bracketed name) := by
  have colon : ∀ {s : String}, ':' ∈ (toAsciiLowercase s).toList ↔ ':' ∈ s.toList :=
    mem_toAsciiLowercase (by decide) (by decide)
  rcases uh with plain | ⟨inner, rfl, mem, plain⟩
  · -- a name or an address: no brackets on either side
    rw [normalize_plain fun c mem => ⟨(plain c mem).1, (plain c mem).2.1⟩]
    have noColon : ':' ∉ host.toList := fun mem => (plain _ mem).2.2 rfl
    constructor
    · intro named
      refine ⟨_, named, ?_⟩
      rw [bracketed, if_neg (by simpa [colon] using noColon), toAsciiLowercase_idem]
    · rintro ⟨name, named, e⟩
      have noColon' : ':' ∉ name.toList := by
        intro mem
        refine noColon (colon.1 ?_)
        rw [e, colon, bracketed, if_pos (by simpa using mem)]
        simp [mem]
      rw [bracketed, if_neg (by simpa using noColon'), named.lowercase] at e
      rwa [e]
  · rw [normalize_literal mem plain]
    constructor
    · intro named
      refine ⟨_, named, ?_⟩
      rw [bracketed, if_pos (by simpa [colon] using mem)]
      simp
    · rintro ⟨name, named, e⟩
      have mem' : ':' ∈ name.toList := by
        by_contra noColon
        rw [bracketed, if_neg (by simpa using noColon)] at e
        refine noColon (colon.1 ?_)
        rw [← e, colon]
        simp [mem]
      rw [bracketed, if_pos (by simpa using mem')] at e
      have same : toAsciiLowercase inner = toAsciiLowercase name := by
        rw [← String.toList_inj] at e ⊢
        simpa using e
      rw [same, named.lowercase]
      exact named

/-- An `Origin` of a web page: its scheme is `http` or `https`. -/
def WebOrigin (http : Parsers) (v : HeaderValue) : Prop :=
  ∃ text uri scheme, v.toStr = some text ∧ http.uri (trim text) = some uri ∧
    uri.scheme = some scheme ∧ WebScheme scheme

/-- A server bound to a host without a port configures the SDK with plain lists. -/
lemma streamableConfig_plain (bound : NoPort (normalize bindHost)) :
    (streamableConfig bindHost).Plain where
  hosts hosts h := by
    have loopback : ∀ name ∈ loopbackHosts, NoPort name := by decide
    refine ⟨List.ne_nil_of_mem ((mem_allowedHosts h).2 (.inl (List.mem_cons_self))), ?_⟩
    intro name mem
    rcases (mem_allowedHosts h).1 mem with mem | ⟨_, rfl⟩
    · exact loopback name mem
    · exact bound
  origins := by
    constructor
    · have mem : originPattern "http" (bracketed "localhost") ∈ allowedOrigins bindHost :=
        mem_allowedOrigins.2 ⟨_, _, .inl List.mem_cons_self, .inl rfl, rfl⟩
      exact List.ne_nil_of_mem mem
    · intro entry mem
      obtain ⟨name, scheme, -, web, e⟩ := mem_allowedOrigins.1 mem
      exact ⟨scheme, _, web, e⟩

/-- The SDK asks of a `Host` what the guard asks of it, and where every interface is bound that it
names a host at all. -/
lemma hostPasses_iff {host : Option HeaderValue} :
    HostPasses http (streamableConfig bindHost) host ↔
      (¬ Wildcard bindHost → ∃ v, host = some v ∧ LocalHost http bindHost v) ∧
      (Wildcard bindHost → ∃ v name, host = some v ∧ HostIs http v name) := by
  have config : (streamableConfig bindHost).allowedHosts = allowedHosts bindHost := rfl
  constructor
  · rintro ⟨v, name, e, ⟨text, e', parse⟩, listed⟩
    refine ⟨fun specific => ⟨v, e, text, name, e', parse, ?_⟩, fun _ => ⟨v, name, e, text, e', parse⟩⟩
    obtain ⟨hosts, h⟩ := Option.ne_none_iff_exists'.1 (mt allowedHosts_eq_none.1 specific)
    obtain ⟨entry, mem, eq⟩ := listed hosts h
    have named := (mem_allowedHosts h).1 mem
    rwa [eq, named.normal]
  · rintro ⟨specific, wildcard⟩
    by_cases every : Wildcard bindHost
    · obtain ⟨v, name, e, is⟩ := wildcard every
      refine ⟨v, name, e, is, fun hosts h => ?_⟩
      rw [config, allowedHosts_eq_none.2 every] at h
      cases h
    · obtain ⟨v, e, text, name, e', parse, named⟩ := specific every
      exact ⟨v, name, e, ⟨text, e', parse⟩, fun hosts h =>
        ⟨_, (mem_allowedHosts h).2 named, named.normal.symm⟩⟩

/-- The SDK asks of an `Origin` what the guard asks of it, and to be of a web page. -/
lemma originPasses_iff {origin : Option HeaderValue}
    (plain : ∀ v, origin = some v → PlainOrigin http v) :
    OriginPasses http (streamableConfig bindHost) origin ↔
      ∀ v, origin = some v → LocalOrigin http bindHost v ∧ WebOrigin http v := by
  refine forall₂_congr fun v ev => ?_
  constructor
  · rintro ⟨scheme, name, host, web, mem, is, eq⟩
    obtain ⟨server, scheme', named, web', e⟩ := mem_allowedOrigins.1 mem
    obtain ⟨rfl, rfl⟩ := originPattern_inj web' e web
    have named' := (serverName_iff (plain v ev _ _ is)).2 ⟨server, named, eq⟩
    obtain ⟨text, uri, e, parse, es, eh⟩ := is
    exact ⟨⟨text, uri, scheme, host, e, parse, es, eh, named'⟩, text, uri, scheme, e, parse, es, web⟩
  · rintro ⟨⟨text, uri, scheme, host, e, parse, es, eh, named⟩, text', uri', scheme', e', parse',
      es', web⟩
    cases e.symm.trans e'
    cases parse.symm.trans parse'
    cases es.symm.trans es'
    have is : OriginIs http v scheme host := ⟨text, uri, e, parse, es, eh⟩
    obtain ⟨name, named, eq⟩ := (serverName_iff (plain v ev _ _ is)).1 named
    exact ⟨scheme, bracketed name, host, web,
      mem_allowedOrigins.2 ⟨name, scheme, named, web, rfl⟩, is, eq⟩

/-- The streamable HTTP service accepts what the guard of the SSE transport accepts, but for an
`Origin` that is not of a web page and, where every interface is bound, a `Host` that is missing or
names no host. -/
theorem policies_compare {sdk : Sdk} (docs : sdk.Documented http)
    (bound : NoPort (normalize bindHost)) {headers : HeaderMap} {host origin : Option HeaderValue}
    (oneHost : headers.getAll HOST = host.toList)
    (oneOrigin : headers.getAll ORIGIN = origin.toList)
    (plain : ∀ v, origin = some v → PlainOrigin http v) :
    sdk.accepts (streamableConfig bindHost) host origin = true ↔
      (Guard.forBindHost bindHost).check http headers = .ok () ∧
        (∀ v, origin = some v → WebOrigin http v) ∧
        (Wildcard bindHost → ∃ v name, host = some v ∧ HostIs http v name) := by
  have getHost : headers.get HOST = host := by
    rw [HeaderMap.get, oneHost]
    cases host <;> rfl
  have getOrigin : headers.get ORIGIN = origin := by
    rw [HeaderMap.get, oneOrigin]
    cases origin <;> rfl
  rw [docs _ _ _ (streamableConfig_plain bound), hostPasses_iff, originPasses_iff plain, check_ok_iff,
    getHost, getOrigin]
  constructor
  · rintro ⟨⟨specific, every⟩, origins⟩
    exact ⟨⟨specific, fun v e => (origins v e).1⟩, fun v e => (origins v e).2, every⟩
  · rintro ⟨⟨specific, origins⟩, web, every⟩
    exact ⟨⟨specific, every⟩, fun v e => ⟨origins v e, web v e⟩⟩

/-- The SDK as it is documented, on any parsers. -/
def Sdk.sample (http : Parsers) : Sdk where
  accepts config host origin :=
    (host.any fun v => (v.toStr.bind (hostName http)).any fun name =>
      config.allowedHosts.all fun hosts => hosts.any fun entry => name == normalize entry) &&
    origin.all fun v => (v.toStr.bind fun text => http.uri (trim text)).any fun uri =>
      match uri.scheme, uri.host with
      | some scheme, some host => (scheme == "http" || scheme == "https") &&
          config.allowedOrigins.any fun entry =>
            toAsciiLowercase entry == originPattern scheme (toAsciiLowercase host)
      | _, _ => false

/-- A pattern of a web scheme in lowercase is that of its name in lowercase. -/
lemma toAsciiLowercase_originPattern {scheme name : String} (web : WebScheme scheme) :
    toAsciiLowercase (originPattern scheme name) = originPattern scheme (toAsciiLowercase name) := by
  rcases web with rfl | rfl <;> simp only [originPattern, toAsciiLowercase_append] <;> rfl

/-- It is as documented. -/
lemma Sdk.sample_documented : (Sdk.sample http).Documented http := by
  intro config host origin plain
  rw [show (Sdk.sample http).accepts config host origin = (_ && _) from rfl, Bool.and_eq_true]
  refine and_congr ?_ ?_
  · rw [Option.any_eq_true]
    constructor
    · rintro ⟨v, rfl, ok⟩
      obtain ⟨_, found, ok⟩ := (Option.any_eq_true _ _).1 ok
      obtain ⟨text, e, found⟩ := Option.bind_eq_some_iff.1 found
      obtain ⟨name, parse, rfl⟩ := Option.map_eq_some_iff.1 found
      refine ⟨v, name, rfl, ⟨text, e, parse⟩, fun hosts h => ?_⟩
      rw [h] at ok
      simpa using ok
    · rintro ⟨v, name, rfl, ⟨text, e, parse⟩, listed⟩
      refine ⟨v, rfl, (Option.any_eq_true _ _).2 ⟨normalize name, by simp [e, hostName, parse], ?_⟩⟩
      cases h : config.allowedHosts with
      | none => rfl
      | some hosts => simpa using listed hosts h
  · cases origin with
    | none =>
      refine ⟨fun _ v ev => ?_, fun _ => rfl⟩
      cases ev
    | some v =>
      rw [Option.all_some, Option.any_eq_true]
      constructor
      · rintro ⟨uri, found, ok⟩ _ ev
        cases ev
        obtain ⟨text, e, parse⟩ := Option.bind_eq_some_iff.1 found
        cases es : uri.scheme with
        | none => simp [es] at ok
        | some scheme =>
          cases eh : uri.host with
          | none => simp [es, eh] at ok
          | some host =>
            simp only [es, eh, Bool.and_eq_true, Bool.or_eq_true, beq_iff_eq, List.any_eq_true] at ok
            obtain ⟨web, entry, mem, eq⟩ := ok
            obtain ⟨scheme', name, web', rfl⟩ := plain.origins.2 entry mem
            rw [toAsciiLowercase_originPattern web'] at eq
            obtain ⟨rfl, same⟩ := originPattern_inj web eq web'
            exact ⟨scheme', name, host, web, mem, ⟨text, uri, e, parse, es, eh⟩, same.symm⟩
      · intro passes
        obtain ⟨scheme, name, host, web, mem, ⟨text, uri, e, parse, es, eh⟩, eq⟩ := passes v rfl
        refine ⟨uri, by simp [e, parse], ?_⟩
        simp only [es, eh, Bool.and_eq_true, Bool.or_eq_true, beq_iff_eq, List.any_eq_true]
        exact ⟨web, _, mem, by rw [toAsciiLowercase_originPattern web, eq]⟩

/-- The page of the server itself. -/
lemma plainOrigin_local : PlainOrigin .sample (.ofStr "http://localhost:8000") := by
  rintro scheme host ⟨text, uri, e, parse, es, eh⟩
  have known : (HeaderValue.ofStr "http://localhost:8000").toStr = some "http://localhost:8000" := by
    decide
  cases e.symm.trans known
  have known : Parsers.sample.uri (trim "http://localhost:8000") =
      some ⟨some "http", some "localhost"⟩ := by decide
  cases parse.symm.trans known
  cases eh
  exact .inl (by simp)

/-- The request of a page of the server itself. -/
theorem policies_compare_local :
    (Sdk.sample .sample).accepts (streamableConfig "127.0.0.1") (some (.ofStr "localhost"))
        (some (.ofStr "http://localhost:8000")) = true ↔
      (Guard.forBindHost "127.0.0.1").check .sample
          [(HOST, .ofStr "localhost"), (ORIGIN, .ofStr "http://localhost:8000")] = .ok () ∧
        (∀ v, some (HeaderValue.ofStr "http://localhost:8000") = some v → WebOrigin .sample v) ∧
        (Wildcard "127.0.0.1" →
          ∃ v name, some (HeaderValue.ofStr "localhost") = some v ∧ HostIs .sample v name) := by
  refine policies_compare Sdk.sample_documented (by decide) rfl rfl fun v e => ?_
  cases e
  exact plainOrigin_local

/-- A page of an application with a scheme of its own, on the local host, and a request without
`Host` to a server that binds every interface: the guard of the SSE transport accepts both, and the
SDK, as documented, neither. -/
theorem policies_differ :
    (Sdk.sample .sample).Documented .sample ∧
    (Guard.forBindHost "127.0.0.1").check .sample
      [(HOST, .ofStr "localhost"), (ORIGIN, .ofStr "tauri://localhost")] = .ok () ∧
    (Sdk.sample .sample).accepts (streamableConfig "127.0.0.1") (some (.ofStr "localhost"))
      (some (.ofStr "tauri://localhost")) = false ∧
    (Guard.forBindHost "0.0.0.0").check .sample [] = .ok () ∧
    (Sdk.sample .sample).accepts (streamableConfig "0.0.0.0") none none = false :=
  ⟨Sdk.sample_documented, rfl, by decide, rfl, by decide⟩

end OxmlMcp.Access
