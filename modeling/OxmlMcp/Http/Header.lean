import OxmlMcp.Text.Str

/-!
# Requests

What the transports use of the `http` crate. A header map is a multimap, `get` yields the first
value of a name; a value is a byte string, and `to_str` reads it when it is visible ASCII. The
parsers `Authority::try_from` and `Uri::try_from` are not under `src/`: `Parsers` carries them as
parameters, each by the parts the program reads.
-/

namespace OxmlMcp.Http

/-- The status codes the transports answer with. -/
inductive StatusCode where
  | accepted
  | badRequest
  | forbidden
  | notFound
  | gone
  | payloadTooLarge
  | unsupportedMediaType
  | serviceUnavailable
deriving DecidableEq, Repr

/-- The bytes of a header value. -/
abbrev HeaderValue := List UInt8

/-- A visible ASCII byte, a space or a tab. -/
def isVisibleAscii (b : UInt8) : Bool :=
  (32 ≤ b && b < 127) || b == 9

/-- `HeaderValue::to_str`, `none` for a value that is not visible ASCII. -/
def HeaderValue.toStr (v : HeaderValue) : Option String :=
  if v.all isVisibleAscii then some (.ofList (v.map fun b => Char.ofNat b.toNat)) else none

/-- The value with the bytes of an ASCII text. -/
def HeaderValue.ofStr (s : String) : HeaderValue :=
  s.toList.map fun c => c.toNat.toUInt8

/-- A visible ASCII text is read back. -/
lemma HeaderValue.toStr_ofStr {s : String} (visible : ∀ c ∈ s.toList, 32 ≤ c.toNat ∧ c.toNat < 127) :
    (HeaderValue.ofStr s).toStr = some s := by
  have byte : ∀ c ∈ s.toList, c.toNat.toUInt8.toNat = c.toNat := by
    intro c mem
    have small := (visible c mem).2
    show c.toNat % 256 = c.toNat
    omega
  have all : (HeaderValue.ofStr s).all isVisibleAscii := by
    rw [HeaderValue.ofStr, List.all_map, List.all_eq_true]
    intro c mem
    have range := visible c mem
    have low : (32 : UInt8) ≤ c.toNat.toUInt8 := by
      rw [UInt8.le_iff_toNat_le, byte c mem]
      exact range.1
    have high : c.toNat.toUInt8 < 127 := by
      rw [UInt8.lt_iff_toNat_lt, byte c mem]
      exact range.2
    simp [isVisibleAscii, low, high]
  have back : (HeaderValue.ofStr s).map (fun b => Char.ofNat b.toNat) = s.toList := by
    rw [HeaderValue.ofStr, List.map_map]
    refine (List.map_congr_left fun c mem => ?_).trans (List.map_id _)
    show Char.ofNat c.toNat.toUInt8.toNat = c
    rw [byte c mem, Char.ofNat_toNat]
  rw [HeaderValue.toStr, if_pos all, back, String.ofList_toList]

/-- The fields of a request, names in lowercase, in the order they came. -/
abbrev HeaderMap := List (String × HeaderValue)

/-- `HeaderMap::get_all`. -/
def HeaderMap.getAll (headers : HeaderMap) (name : String) : List HeaderValue :=
  (headers.filter (·.1 == name)).map (·.2)

/-- `HeaderMap::get`: the first value. -/
def HeaderMap.get (headers : HeaderMap) (name : String) : Option HeaderValue :=
  (headers.getAll name).head?

/-- `header::HOST`. -/
def HOST : String := "host"

/-- `header::ORIGIN`. -/
def ORIGIN : String := "origin"

/-- `header::CONTENT_TYPE`. -/
def CONTENT_TYPE : String := "content-type"

/-- A parsed `Uri`, by its `scheme_str()` and `host()`. -/
structure Uri where
  scheme : Option String
  host : Option String
deriving DecidableEq, Repr

/-- The parsers of the `http` crate. -/
structure Parsers where
  /-- `Authority::try_from`, by its `host()`: no userinfo, no port, brackets kept. -/
  authorityHost : String → Option String
  /-- `Uri::try_from`. -/
  uri : String → Option Uri

/-- The parsers on the few texts that concrete requests below carry. -/
def Parsers.sample : Parsers where
  authorityHost s :=
    if s == "localhost" || s == "localhost:8000" then some "localhost"
    else if s == "evil.example" then some "evil.example"
    else none
  uri s :=
    if s == "http://localhost:8000" then some ⟨some "http", some "localhost"⟩
    else if s == "tauri://localhost" then some ⟨some "tauri", some "localhost"⟩
    else if s == "http://evil.example" then some ⟨some "http", some "evil.example"⟩
    else none

end OxmlMcp.Http
