import OxmlMcp.Access.Guard

/-!
# The access policy

What the guard is there for, said of all the values a request carries: unless every interface is
bound, there is a `Host` and every one names this server, and every `Origin` names it too
(`Policy`). `Guard.check` looks at the first value of each header only.

* `Guard.check_ok_iff`: what the check sees.
* `check_policy_iff`: a passed check means the policy exactly when no foreign value comes after a
  first one that passes.
* `Policy.check`: the policy passes the check when the values are single.
-/

namespace OxmlMcp.Access
open OxmlMcp.Text OxmlMcp.Http

/-- The bind hosts that stand for every interface. -/
def Wildcard (bindHost : String) : Prop :=
  bindHost = "0.0.0.0" ∨ bindHost = "::"

instance (bindHost : String) : Decidable (Wildcard bindHost) :=
  inferInstanceAs (Decidable (_ ∨ _))

/-- The names of the server: the loopback names, and the bound one when it is a specific one. -/
def ServerName (bindHost name : String) : Prop :=
  name ∈ loopbackHosts ∨ ¬ Wildcard bindHost ∧ name = normalize bindHost

/-- A `Host` value that names the server, on any port. -/
def LocalHost (http : Parsers) (bindHost : String) (v : HeaderValue) : Prop :=
  ∃ text host, v.toStr = some text ∧ http.authorityHost (trim text) = some host ∧
    ServerName bindHost (normalize host)

/-- An `Origin` value with a scheme and a host that names the server. -/
def LocalOrigin (http : Parsers) (bindHost : String) (v : HeaderValue) : Prop :=
  ∃ text uri scheme host, v.toStr = some text ∧ http.uri (trim text) = some uri ∧
    uri.scheme = some scheme ∧ uri.host = some host ∧ ServerName bindHost (normalize host)

/-- Every value that a request carries names the server. -/
structure Policy (http : Parsers) (bindHost : String) (headers : HeaderMap) : Prop where
  host : ¬ Wildcard bindHost → headers.getAll HOST ≠ [] ∧
    ∀ v ∈ headers.getAll HOST, LocalHost http bindHost v
  origin : ∀ v ∈ headers.getAll ORIGIN, LocalOrigin http bindHost v

variable {http : Parsers} {bindHost : String} {headers : HeaderMap}

lemma allowedHosts_eq_none : allowedHosts bindHost = none ↔ Wildcard bindHost := by
  unfold allowedHosts Wildcard
  split <;> simp_all

lemma mem_allowedHosts {hosts : List String} {name : String}
    (h : allowedHosts bindHost = some hosts) : name ∈ hosts ↔ ServerName bindHost name := by
  have specific : ¬ Wildcard bindHost := by
    rw [← allowedHosts_eq_none, h]
    nofun
  unfold allowedHosts at h
  split at h
  · cases h
  · obtain rfl := Option.some.inj h
    unfold ServerName
    split
    · have known : normalize bindHost ∈ loopbackHosts :=
        List.contains_iff_mem.1 ‹loopbackHosts.contains (normalize bindHost) = true›
      constructor
      · exact .inl
      · rintro (mem | ⟨_, rfl⟩)
        · exact mem
        · exact known
    · simp [specific]

lemma mem_originNames {name : String} :
    name ∈ originNames bindHost ↔ ServerName bindHost name := by
  unfold originNames
  cases h : allowedHosts bindHost with
  | none =>
    have wildcard := allowedHosts_eq_none.1 h
    simp [ServerName, wildcard]
  | some hosts => exact mem_allowedHosts h

lemma localHost_iff {v : HeaderValue} :
    LocalHost http bindHost v ↔
      ∃ n, v.toStr.bind (hostName http) = some n ∧ ServerName bindHost n := by
  constructor
  · rintro ⟨text, host, e, parse, name⟩
    exact ⟨normalize host, by simp [e, hostName, parse], name⟩
  · rintro ⟨n, e, name⟩
    obtain ⟨text, e1, parse⟩ := Option.bind_eq_some_iff.1 e
    obtain ⟨host, e2, rfl⟩ := Option.map_eq_some_iff.1 parse
    exact ⟨text, host, e1, e2, name⟩

lemma localOrigin_iff {v : HeaderValue} :
    LocalOrigin http bindHost v ↔
      ∃ n, v.toStr.bind (originHost http) = some n ∧ ServerName bindHost n := by
  constructor
  · rintro ⟨text, uri, scheme, host, e, parse, es, eh, name⟩
    exact ⟨normalize host, by simp [e, originHost, parse, es, eh], name⟩
  · rintro ⟨n, e, name⟩
    obtain ⟨text, e1, e2⟩ := Option.bind_eq_some_iff.1 e
    obtain ⟨uri, parse, e3⟩ := Option.bind_eq_some_iff.1 e2
    obtain ⟨scheme, es, e4⟩ := Option.bind_eq_some_iff.1 e3
    obtain ⟨host, eh, rfl⟩ := Option.map_eq_some_iff.1 e4
    exact ⟨text, uri, scheme, host, e1, parse, es, eh, name⟩

/-- What the check sees: the first `Host`, unless any is accepted, and the first `Origin`, if any. -/
lemma Guard.check_ok_iff {guard : Guard} :
    guard.check http headers = .ok () ↔
      (∀ hosts, guard.hosts = some hosts → ∃ n ∈ hosts,
        ((headers.get HOST).bind HeaderValue.toStr).bind (hostName http) = some n) ∧
      ∀ v, headers.get ORIGIN = some v → ∃ n ∈ guard.origins,
        v.toStr.bind (originHost http) = some n := by
  have any : ∀ {o : Option String} {names : List String},
      (∃ n ∈ names, o = some n) ↔ (o.any fun n => names.contains n) = true := by
    intro o names
    cases o <;> simp
  have hostPart : (∀ hosts, guard.hosts = some hosts → ∃ n ∈ hosts,
      ((headers.get HOST).bind HeaderValue.toStr).bind (hostName http) = some n) ↔
      (guard.hosts.all fun hosts => (((headers.get HOST).bind HeaderValue.toStr).bind
        (hostName http)).any fun n => hosts.contains n) = true := by
    cases guard.hosts <;> simp [any]
  have originPart : (∀ v, headers.get ORIGIN = some v → ∃ n ∈ guard.origins,
      v.toStr.bind (originHost http) = some n) ↔
      ((headers.get ORIGIN).all fun v => (v.toStr.bind (originHost http)).any fun n =>
        guard.origins.contains n) = true := by
    cases headers.get ORIGIN <;> simp [any]
  rw [hostPart, originPart]
  unfold Guard.check
  generalize ((headers.get HOST).bind HeaderValue.toStr).bind (hostName http) = host
  generalize headers.get ORIGIN = origin
  generalize guard.hosts = hosts
  have passed : ∀ v : HeaderValue,
      (if (v.toStr.bind (originHost http)).any fun n => guard.origins.contains n then
        (pure () : Except Refusal Unit)
        else throw (forbidden "Origin header is not allowed")) = .ok () ↔
      ((v.toStr.bind (originHost http)).any fun n => guard.origins.contains n) = true := by
    intro v
    split
    · exact ⟨fun _ => ‹_›, fun _ => rfl⟩
    · exact ⟨nofun, fun h => absurd h ‹_›⟩
  cases hosts with
  | none =>
    cases origin with
    | none => exact ⟨fun _ => ⟨rfl, rfl⟩, fun _ => rfl⟩
    | some v => exact (passed v).trans ⟨fun ok => ⟨rfl, ok⟩, And.right⟩
  | some hosts =>
    rw [Option.all_some]
    cases ok : host.any fun n => hosts.contains n with
    | false =>
      simp only [ok]
      exact ⟨nofun, nofun⟩
    | true =>
      simp only [ok]
      cases origin with
      | none => exact ⟨fun _ => ⟨trivial, rfl⟩, fun _ => rfl⟩
      | some v => exact (passed v).trans ⟨fun ok => ⟨trivial, ok⟩, And.right⟩

/-- The check of a listener bound to `bindHost`, by the first values of the two headers. -/
lemma check_ok_iff :
    (Guard.forBindHost bindHost).check http headers = .ok () ↔
      (¬ Wildcard bindHost → ∃ v, headers.get HOST = some v ∧ LocalHost http bindHost v) ∧
      ∀ v, headers.get ORIGIN = some v → LocalOrigin http bindHost v := by
  rw [Guard.check_ok_iff]
  refine and_congr ?_ (forall₂_congr fun v _ => ?_)
  · constructor
    · intro named specific
      obtain ⟨hosts, e⟩ := Option.ne_none_iff_exists'.1 (mt allowedHosts_eq_none.1 specific)
      obtain ⟨n, mem, e'⟩ := named hosts e
      obtain ⟨text, e', parse⟩ := Option.bind_eq_some_iff.1 e'
      obtain ⟨v, get, e'⟩ := Option.bind_eq_some_iff.1 e'
      exact ⟨v, get, localHost_iff.2 ⟨n, by simp [e', parse], (mem_allowedHosts e).1 mem⟩⟩
    · intro named hosts e
      have specific : ¬ Wildcard bindHost := by
        rw [← allowedHosts_eq_none, show allowedHosts bindHost = some hosts from e]
        nofun
      obtain ⟨v, get, loc⟩ := named specific
      obtain ⟨n, e', name⟩ := localHost_iff.1 loc
      exact ⟨n, (mem_allowedHosts e).2 name, by simp [get, e']⟩
  · rw [localOrigin_iff]
    constructor
    · rintro ⟨n, mem, e⟩
      exact ⟨n, e, mem_originNames.1 mem⟩
    · rintro ⟨n, e, name⟩
      exact ⟨n, mem_originNames.2 name, e⟩

/-- The first values of a request do not all name the server. -/
def FirstForeign (http : Parsers) (bindHost : String) (headers : HeaderMap) : Prop :=
  (¬ Wildcard bindHost ∧ ∀ v, headers.get HOST = some v → ¬ LocalHost http bindHost v) ∨
  ∃ v, headers.get ORIGIN = some v ∧ ¬ LocalOrigin http bindHost v

/-- The values of a request after the first ones name the server. -/
def LaterLocal (http : Parsers) (bindHost : String) (headers : HeaderMap) : Prop :=
  (¬ Wildcard bindHost → ∀ v ∈ (headers.getAll HOST).tail, LocalHost http bindHost v) ∧
  ∀ v ∈ (headers.getAll ORIGIN).tail, LocalOrigin http bindHost v

/-- A request in which no foreign value comes after first ones that name the server. -/
def NothingHidden (http : Parsers) (bindHost : String) (headers : HeaderMap) : Prop :=
  FirstForeign http bindHost headers ∨ LaterLocal http bindHost headers

lemma HeaderMap.forall_getAll {name : String} {P : HeaderValue → Prop} :
    (∀ v ∈ headers.getAll name, P v) ↔
      (∀ v, headers.get name = some v → P v) ∧ ∀ v ∈ (headers.getAll name).tail, P v := by
  unfold HeaderMap.get
  cases headers.getAll name <;> simp

/-- The policy is what the check sees, and the same of the values after the first. -/
lemma policy_iff :
    Policy http bindHost headers ↔
      (Guard.forBindHost bindHost).check http headers = .ok () ∧
        LaterLocal http bindHost headers := by
  have some' : ∀ v, headers.get HOST = some v → headers.getAll HOST ≠ [] := by
    intro v get e
    simp [HeaderMap.get, e] at get
  rw [check_ok_iff]
  constructor
  · rintro ⟨hosts, origins⟩
    rw [HeaderMap.forall_getAll] at origins
    refine ⟨⟨fun specific => ?_, origins.1⟩, fun specific => ?_, origins.2⟩
    · obtain ⟨ne, all⟩ := hosts specific
      obtain ⟨v, rest, e⟩ := List.exists_cons_of_ne_nil ne
      exact ⟨v, by simp [HeaderMap.get, e], all v (by simp [e])⟩
    · exact (HeaderMap.forall_getAll.1 (hosts specific).2).2
  · rintro ⟨⟨host, origin⟩, laterHost, laterOrigin⟩
    refine ⟨fun specific => ?_, HeaderMap.forall_getAll.2 ⟨origin, laterOrigin⟩⟩
    obtain ⟨v, get, loc⟩ := host specific
    refine ⟨some' v get, HeaderMap.forall_getAll.2 ⟨fun v' get' => ?_, laterHost specific⟩⟩
    cases get.symm.trans get'
    exact loc

/-- A request passes the check exactly when its first values name the server. -/
lemma check_ok_iff_not_firstForeign :
    (Guard.forBindHost bindHost).check http headers = .ok () ↔
      ¬ FirstForeign http bindHost headers := by
  rw [check_ok_iff, FirstForeign]
  push Not
  rfl

/-- A passed check means the policy exactly when no foreign value comes after first ones that name
the server. -/
lemma check_policy_iff :
    ((Guard.forBindHost bindHost).check http headers = .ok () → Policy http bindHost headers) ↔
      NothingHidden http bindHost headers := by
  rw [policy_iff, NothingHidden, check_ok_iff_not_firstForeign]
  tauto

lemma Policy.check (ok : Policy http bindHost headers) :
    (Guard.forBindHost bindHost).check http headers = .ok () :=
  (policy_iff.1 ok).1

end OxmlMcp.Access
