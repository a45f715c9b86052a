import OxmlMcp.Http.Header

/-!
# The guard

Model of `src/transport/guard.rs`: the checks the HTTP+SSE transport applies to a request before it
serves anything. `Guard.check` looks at `Host` and `Origin`, `requireJson` at `Content-Type`. The
same name lists, in the SDK's form, configure the streamable HTTP transport (`allowedHosts` and
`allowedOrigins`).
-/

namespace OxmlMcp.Access
open OxmlMcp.Text OxmlMcp.Http

/-- Why a request was refused: the status and a short reason. -/
abbrev Refusal := StatusCode × String

/-- `LOOPBACK_HOSTS`: the names a server on the loopback interface answers to. -/
def loopbackHosts : List String := ["localhost", "127.0.0.1", "::1"]

/-- A host name without its brackets, in lowercase. -/
def normalize (host : String) : String :=
  toAsciiLowercase (trimMatches (fun c => c == '[' || c == ']') host)

/-- The `Host` names a server bound to `bindHost` answers to, or `none` when it binds every
interface. -/
def allowedHosts (bindHost : String) : Option (List String) :=
  if bindHost == "0.0.0.0" || bindHost == "::" then none
  else
    let bind := normalize bindHost
    some (if loopbackHosts.contains bind then loopbackHosts else loopbackHosts ++ [bind])

/-- The host names an `Origin` may carry: the `Host` names, or the loopback ones when every
interface is bound. -/
def originNames (bindHost : String) : List String :=
  (allowedHosts bindHost).getD loopbackHosts

/-- The two patterns of one origin name, an IPv6 name in brackets. -/
def originPatterns (name : String) : List String :=
  let name := if name.toList.contains ':' then "[" ++ name ++ "]" else name
  ["http://" ++ name ++ ":*", "https://" ++ name ++ ":*"]

/-- The browser origins a server bound to `bindHost` accepts, in the form the SDK takes. -/
def allowedOrigins (bindHost : String) : List String :=
  (originNames bindHost).flatMap originPatterns

/-- The checks one listener applies. -/
structure Guard where
  /-- `none` accepts any `Host`. -/
  hosts : Option (List String)
  /-- The names an `Origin` may carry. -/
  origins : List String
deriving DecidableEq, Repr

/-- The guard for a listener bound to `bindHost`. -/
def Guard.forBindHost (bindHost : String) : Guard where
  hosts := allowedHosts bindHost
  origins := originNames bindHost

/-- `example.com:8080` or `[::1]:80` to its lowercase host name. -/
def hostName (http : Parsers) (value : String) : Option String :=
  (http.authorityHost (trim value)).map normalize

/-- `http://example.com:8080` to its lowercase host name; anything without a scheme or a host has
none. -/
def originHost (http : Parsers) (value : String) : Option String := do
  let uri ← http.uri (trim value)
  let _ ← uri.scheme
  (uri.host).map normalize

/-- A refusal with `403`. -/
def forbidden (message : String) : Refusal :=
  (.forbidden, message)

/-- Refuse a request whose `Host` or `Origin` is foreign. -/
def Guard.check (http : Parsers) (guard : Guard) (headers : HeaderMap) : Except Refusal Unit := do
  if let some hosts := guard.hosts then
    let host := ((headers.get HOST).bind HeaderValue.toStr).bind (hostName http)
    if !(host.any fun h => hosts.contains h) then
      throw (forbidden "Host header is not allowed")
  match headers.get ORIGIN with
  | none => return ()
  | some origin =>
    let name := origin.toStr.bind (originHost http)
    if name.any fun n => guard.origins.contains n then
      return ()
    else
      throw (forbidden "Origin header is not allowed")

lemma Guard.check_error {http : Parsers} {guard : Guard} {headers r}
    (h : guard.check http headers = .error r) : r.1 = .forbidden := by
  unfold Guard.check at h
  simp only [bind, Except.bind, pure, Except.pure, throw, throwThe, MonadExceptOf.throw] at h
  repeat' split at h
  all_goals first
    | cases h; rfl
    | cases h

/-- The text before the first `;`: `v.split(';').next()`. -/
def beforeSemicolon (v : String) : String :=
  .ofList (v.toList.takeWhile (· != ';'))

/-- Refuse a posted message that is not `application/json`. -/
def requireJson (headers : HeaderMap) : Except Refusal Unit :=
  let media := ((headers.get CONTENT_TYPE).bind HeaderValue.toStr).map
    fun v => trim (beforeSemicolon v)
  if media.any fun m => toAsciiLowercase m == "application/json" then
    .ok ()
  else
    .error (.unsupportedMediaType, "Content-Type must be application/json")

lemma requireJson_error {headers r} (h : requireJson headers = .error r) :
    r.1 = .unsupportedMediaType := by
  simp only [requireJson] at h
  split at h
  · cases h
  · cases h
    rfl

end OxmlMcp.Access
