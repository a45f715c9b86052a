import OxmlMcp.Text.Numeral
import OxmlMcp.Text.Utf8

/-!
# The command line

Model of `parse` in `src/transport.rs`, with the texts of its errors. The loop over the arguments and
`applyFlag` share one iterator, which is here the list of the arguments that are left.

* `parseFrom_cons`: one turn of the loop.
-/

namespace OxmlMcp.Cli
open OxmlMcp.Text

/-- `Transport`: how the server talks to its client. -/
inductive Transport where
  | stdio
  | streamableHttp
  | sse
deriving DecidableEq

/-- `Transport::parse`. -/
def Transport.parse (name : String) : Option Transport :=
  if name = "stdio" then some .stdio
  else if name = "streamable-http" then some .streamableHttp
  else if name = "sse" then some .sse
  else none

/-- A `u16`. -/
abbrev Port := Fin 65536

/-- There is a port, so numerals are read as ports. -/
instance Port.limit_ne_zero : NeZero 65536 :=
  ⟨by decide⟩

/-- A `usize` of 64 bits. -/
abbrev Count := Fin 18446744073709551616

/-- There is a count, so numerals are read as counts. -/
instance Count.limit_ne_zero : NeZero 18446744073709551616 :=
  ⟨by decide⟩

/-- `Options`: what the command line asked for. -/
structure Options where
  transport : Transport
  host : String
  port : Port
  maxSessions : Count
deriving DecidableEq

/-- `DEFAULT_HOST`. -/
def defaultHost : String := "127.0.0.1"

/-- `DEFAULT_PORT`. -/
def defaultPort : Port := 8000

/-- `DEFAULT_MAX_SESSIONS`. -/
def defaultMaxSessions : Count := 64

/-- `Options::default`. -/
def Options.default : Options where
  transport := .stdio
  host := defaultHost
  port := defaultPort
  maxSessions := defaultMaxSessions

/-- `Command`: the outcome of reading the command line. -/
inductive Command where
  | serve (options : Options)
  | help
  | version
deriving DecidableEq

/-- The value of `--transport`, with the text of its error. -/
def parseTransport (name : String) : Except String Transport :=
  match Transport.parse name with
  | some transport => .ok transport
  | none =>
    .error ("unknown transport `" ++ name ++ "`; choose stdio, streamable-http or sse")

/-- The value of `--max-sessions`, with the text of its error. -/
def parseMaxSessions (text : String) : Except String Count :=
  match (parseUnsigned 18446744073709551616 text).filter fun n => 0 < n with
  | some n => .ok n
  | none => .error ("`" ++ text ++ "` is not a positive number of sessions")

/-- The value of `--port`, with the text of its error. -/
def parsePort (text : String) : Except String Port :=
  match parseUnsigned 65536 text with
  | some port => .ok port
  | none => .error ("`" ++ text ++ "` is not a port number")

/-- `--flag=value` at its first `=`; a bare `--flag` has no inline value. -/
def splitFlag (arg : String) : String × Option String :=
  match splitOnce '=' arg with
  | some (flag, value) => (flag, some value)
  | none => (arg, none)

/-- `inline.or_else(|| rest.next())`: a value, and the arguments that are left. -/
def orNext : Option String → List String → Option (String × List String)
  | some value, rest => some (value, rest)
  | none, value :: rest => some (value, rest)
  | none, [] => none

/-- The options with the one that a flag names set to a value: the second `match` of `apply_flag`. -/
def setOption (options : Options) (flag value : String) : Except String Options :=
  if flag = "--transport" then do
    let transport ← parseTransport value
    .ok { options with transport := transport }
  else if flag = "--port" then do
    let port ← parsePort value
    .ok { options with port := port }
  else if flag = "--max-sessions" then do
    let maxSessions ← parseMaxSessions value
    .ok { options with maxSessions := maxSessions }
  else .ok { options with host := value }

/-- `apply_flag`: the options, and the arguments that are left. -/
def applyFlag (options : Options) (flag : String) (inline : Option String) (rest : List String) :
    Except String (Options × List String) :=
  if flag ∉ ["--transport", "--host", "--port", "--max-sessions"] then
    .error ("unknown argument `" ++ flag ++ "`")
  else
    match orNext inline rest with
    | none => .error (flag ++ " needs a value")
    | some (value, rest) => do
      let options ← setOption options flag value
      .ok (options, rest)

/-- Taking a value puts no argument back. -/
lemma orNext_length {inline : Option String} {rest rest' : List String} {value : String}
    (some : orNext inline rest = some (value, rest')) : rest'.length ≤ rest.length := by
  cases inline with
  | some v =>
    cases some
    exact Nat.le_refl _
  | none =>
    cases rest with
    | nil => cases some
    | cons v rest =>
      cases some
      exact Nat.le_succ _

section ApplyFlag

variable {options options' : Options} {flag : String} {inline : Option String}
  {rest rest' : List String}

/-- A flag that is applied has a value, and sets an option to it. -/
lemma applyFlag_inv (ok : applyFlag options flag inline rest = .ok (options', rest')) :
    ∃ value, orNext inline rest = some (value, rest') ∧
      setOption options flag value = .ok options' := by
  rw [applyFlag] at ok
  split at ok
  · cases ok
  · split at ok
    · cases ok
    · next value left next' =>
      cases set : setOption options flag value with
      | error e =>
        rw [set] at ok
        cases ok
      | ok options =>
        rw [set] at ok
        cases ok
        exact ⟨value, next', set⟩

/-- No argument is put back. -/
lemma applyFlag_length (ok : applyFlag options flag inline rest = .ok (options', rest')) :
    rest'.length ≤ rest.length := by
  obtain ⟨value, next', _⟩ := applyFlag_inv ok
  exact orNext_length next'

end ApplyFlag

/-- The loop of `parse`. -/
def parseFrom (options : Options) : List String → Except String Command
  | [] => .ok (.serve options)
  | arg :: rest =>
    if (splitFlag arg).1 ∈ ["--help", "-h"] then .ok .help
    else if (splitFlag arg).1 ∈ ["--version", "-V"] then .ok .version
    else
      match _h : applyFlag options (splitFlag arg).1 (splitFlag arg).2 rest with
      | .error e => .error e
      | .ok (options, rest) => parseFrom options rest
termination_by args => args.length
decreasing_by exact Nat.lt_succ_of_le (applyFlag_length _h)

/-- `parse`. -/
def parse (args : List String) : Except String Command :=
  parseFrom .default args

variable {options : Options} {flag arg value : String} {rest : List String}

/-- At the end of the arguments the options are served. -/
@[simp] lemma parseFrom_nil (options : Options) : parseFrom options [] = .ok (.serve options) := by
  rw [parseFrom]

/-- Without arguments, the defaults are served. -/
example : parse [] = .ok (.serve ⟨.stdio, "127.0.0.1", 8000, 64⟩) :=
  parseFrom_nil .default

/-- One turn of the loop. -/
lemma parseFrom_cons (options : Options) (arg : String) (rest : List String) :
    parseFrom options (arg :: rest) =
      if (splitFlag arg).1 ∈ ["--help", "-h"] then .ok .help
      else if (splitFlag arg).1 ∈ ["--version", "-V"] then .ok .version
      else applyFlag options (splitFlag arg).1 (splitFlag arg).2 rest >>= fun left =>
        parseFrom left.1 left.2 := by
  rw [parseFrom]
  split
  · rfl
  · split
    · rfl
    · split
      · next e failed => rw [failed]; rfl
      · next options left ok => rw [ok]; rfl

/-- A flag without a value is split into itself. -/
lemma splitFlag_bare (free : '=' ∉ flag.toList) : splitFlag flag = (flag, none) := by
  rw [splitFlag, splitOnce_none free]

/-- A value may have any characters. -/
lemma splitFlag_inline (value : String) (free : '=' ∉ flag.toList) :
    splitFlag (flag ++ "=" ++ value) = (flag, some value) := by
  have cut : (flag ++ "=" ++ value).toList = flag.toList ++ '=' :: value.toList := by
    simp
  rw [splitFlag, splitOnce_eq cut free]

end OxmlMcp.Cli
