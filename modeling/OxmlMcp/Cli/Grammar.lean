import OxmlMcp.Cli.Parse

/-!
# The grammar of the command line

A command line is a list of settings, each in one of two spellings, and a tail.

* `parseFrom_render`: the loop applies the settings and goes on with the tail.
* `exists_settled`: of each flag, the last setting is the one that counts.
* `command_line`: so what is parsed does not depend on the spelling.
-/

namespace OxmlMcp.Cli
open OxmlMcp.Text

/-- The flags that take a value. -/
inductive Flag where
  | transport
  | host
  | port
  | maxSessions
deriving DecidableEq

/-- A flag as it is written. -/
def Flag.name : Flag → String
  | transport => "--transport"
  | host => "--host"
  | port => "--port"
  | maxSessions => "--max-sessions"

/-- A transport as it is written. -/
def Transport.name : Transport → String
  | stdio => "stdio"
  | streamableHttp => "streamable-http"
  | sse => "sse"

/-- The values that a flag takes. -/
def Flag.Takes : Flag → String → Prop
  | transport, value => ∃ t : Transport, value = t.name
  | host, _ => True
  | port, value => ∃ n : Port, Numeral value n
  | maxSessions, value => ∃ n : Count, Numeral value n ∧ 0 < n

/-- What a flag does to the options with a value that it takes. -/
inductive Sets : Flag → String → Options → Options → Prop where
  | transport {o} (t : Transport) :
    Sets .transport t.name o { o with transport := t }
  | host {o host} :
    Sets .host host o { o with host := host }
  | port {o value} {n : Port} :
    Numeral value n →
    Sets .port value o { o with port := n }
  | maxSessions {o value} {n : Count} :
    Numeral value n →
    0 < n →
    Sets .maxSessions value o { o with maxSessions := n }

/-- A flag with its value, as `--flag=value` or as `--flag value`. -/
structure Setting where
  flag : Flag
  value : String
  inline : Bool

/-- The arguments that a setting is spelled with. -/
def Setting.render (s : Setting) : List String :=
  if s.inline then [s.flag.name ++ "=" ++ s.value] else [s.flag.name, s.value]

/-- The arguments that some settings are spelled with, in their order. -/
def render (settings : List Setting) : List String :=
  settings.flatMap Setting.render

/-- What a setting says, however it is spelled. -/
def Setting.said (s : Setting) : Flag × String :=
  (s.flag, s.value)

/-- The settings that say what the options are. -/
def Options.settings (o : Options) (inline : Flag → Bool) : List Setting :=
  [⟨.transport, o.transport.name, inline .transport⟩, ⟨.host, o.host, inline .host⟩,
    ⟨.port, o.port.1.repr, inline .port⟩, ⟨.maxSessions, o.maxSessions.1.repr, inline .maxSessions⟩]

/-- The value of the last setting of a flag. -/
def lastValue (settings : List Setting) (flag : Flag) : Option String :=
  (settings.filter fun s => s.flag = flag).getLast?.map Setting.value

/-- The options with some settings applied, from left to right. -/
def setAll (o : Options) (settings : List Setting) : Except String Options :=
  settings.foldlM (fun o s => setOption o s.flag.name s.value) o

/-- What the options have at a flag, if the last setting of it is the one that counts: what that
setting says, or what they had before. -/
def Flag.Holds (flag : Flag) (base o : Options) (last : Option String) : Prop :=
  match flag with
  | transport => last.elim (o.transport = base.transport) (· = o.transport.name)
  | host => o.host = last.getD base.host
  | port => last.elim (o.port = base.port) (Numeral · o.port)
  | maxSessions => last.elim (o.maxSessions = base.maxSessions) (Numeral · o.maxSessions)

/-- The last setting of each flag counts, and what no flag sets is as it was. -/
def Settled (base : Options) (settings : List Setting) (o : Options) : Prop :=
  ∀ flag : Flag, flag.Holds base o (lastValue settings flag)

/-- An argument that is a name, with a value after it or without. -/
def Spells (arg name : String) : Prop :=
  '=' ∉ name.toList ∧ (arg = name ∨ ∃ value, arg = name ++ "=" ++ value)

/-- The names that the command line knows. -/
def knownNames : List String :=
  ["--help", "-h", "--version", "-V", "--transport", "--host", "--port", "--max-sessions"]

variable {o o' base : Options} {flag : Flag} {value : String} {settings : List Setting}

/-- A name stands for the transport that is written so. -/
lemma transportParse_iff {name : String} {t : Transport} :
    Transport.parse name = some t ↔ name = t.name := by
  constructor
  · intro known
    rw [Transport.parse] at known
    split at known
    · next e => cases known; exact e
    · split at known
      · next e => cases known; exact e
      · split at known
        · next e => cases known; exact e
        · cases known
  · rintro rfl
    cases t with
    | stdio => rfl
    | streamableHttp => rfl
    | sse => rfl

/-- A value is a transport exactly when it is the name of one. -/
lemma parseTransport_iff {t : Transport} : parseTransport value = .ok t ↔ value = t.name := by
  rw [parseTransport, ← transportParse_iff]
  split
  · next known => rw [known, Except.ok.injEq, Option.some.injEq]
  · next unknown => rw [unknown]; exact ⟨nofun, nofun⟩

/-- A value is a port exactly when it is a numeral of it. -/
lemma parsePort_iff {n : Port} : parsePort value = .ok n ↔ Numeral value n := by
  rw [parsePort, ← parseUnsigned_iff]
  split
  · next read => rw [read, Except.ok.injEq, Option.some.injEq]
  · next unread => rw [unread]; exact ⟨nofun, nofun⟩

/-- A value is a number of sessions exactly when it is a numeral of it and not zero. -/
lemma parseMaxSessions_iff {n : Count} :
    parseMaxSessions value = .ok n ↔ Numeral value n ∧ 0 < n := by
  have kept : (parseUnsigned 18446744073709551616 value).filter (fun n => 0 < n) = some n ↔
      Numeral value n ∧ 0 < n := by
    rw [Option.filter_eq_some_iff, parseUnsigned_iff, decide_eq_true_eq]
  rw [parseMaxSessions, ← kept]
  split
  · next read => rw [read, Except.ok.injEq, Option.some.injEq]
  · next unread => rw [unread]; exact ⟨nofun, nofun⟩

/-- `--transport` sets the transport, -/
lemma setOption_transport (o : Options) (value : String) :
    setOption o Flag.transport.name value =
      (parseTransport value).map fun t => { o with transport := t } :=
  if_pos rfl

/-- `--port` the port, -/
lemma setOption_port (o : Options) (value : String) :
    setOption o Flag.port.name value = (parsePort value).map fun n => { o with port := n } :=
  (if_neg (by decide)).trans (if_pos rfl)

/-- `--max-sessions` the number of sessions, -/
lemma setOption_maxSessions (o : Options) (value : String) :
    setOption o Flag.maxSessions.name value =
      (parseMaxSessions value).map fun n => { o with maxSessions := n } :=
  (if_neg (by decide)).trans ((if_neg (by decide)).trans (if_pos rfl))

/-- and `--host` the host, whatever it is. -/
lemma setOption_host (o : Options) (value : String) :
    setOption o Flag.host.name value = .ok { o with host := value } :=
  (if_neg (by decide)).trans ((if_neg (by decide)).trans (if_neg (by decide)))

/-- A flag sets what the code sets. -/
lemma Sets.setOption_eq (sets : Sets flag value o o') :
    setOption o flag.name value = .ok o' := by
  cases sets with
  | transport t => rw [setOption_transport, parseTransport_iff.2 rfl]; rfl
  | host => exact setOption_host o value
  | port numeral => rw [setOption_port, parsePort_iff.2 numeral]; rfl
  | maxSessions numeral pos => rw [setOption_maxSessions, parseMaxSessions_iff.2 ⟨numeral, pos⟩]; rfl

/-- And the code sets what some flag sets. -/
lemma Sets.of_setOption {name : String} (ok : setOption o name value = .ok o') :
    ∃ flag, Sets flag value o o' := by
  rw [setOption] at ok
  split at ok
  · cases known : parseTransport value with
    | error e => rw [known] at ok; cases ok
    | ok t =>
      rw [known] at ok
      cases ok
      obtain rfl := parseTransport_iff.1 known
      exact ⟨_, .transport t⟩
  · split at ok
    · cases read : parsePort value with
      | error e => rw [read] at ok; cases ok
      | ok n =>
        rw [read] at ok
        cases ok
        exact ⟨_, .port (parsePort_iff.1 read)⟩
    · split at ok
      · cases read : parseMaxSessions value with
        | error e => rw [read] at ok; cases ok
        | ok n =>
          rw [read] at ok
          cases ok
          obtain ⟨numeral, pos⟩ := parseMaxSessions_iff.1 read
          exact ⟨_, .maxSessions numeral pos⟩
      · cases ok
        exact ⟨_, .host⟩

/-- A value that a flag takes is set. -/
lemma Flag.Takes.sets (takes : flag.Takes value) (o : Options) : ∃ o', Sets flag value o o' := by
  cases flag with
  | transport =>
    obtain ⟨t, rfl⟩ := takes
    exact ⟨_, .transport t⟩
  | host => exact ⟨_, .host⟩
  | port =>
    obtain ⟨n, numeral⟩ := takes
    exact ⟨_, .port numeral⟩
  | maxSessions =>
    obtain ⟨n, numeral, pos⟩ := takes
    exact ⟨_, .maxSessions numeral pos⟩

/-- A text names a value that stands in it between backticks. -/
lemma contains_quoted {before after : String} (value rest rest' : String)
    (open' : before = rest ++ "`") (close : after = "`" ++ rest') :
    contains (before ++ value ++ after) ("`" ++ value ++ "`") := by
  refine decide_eq_true ⟨rest.toList, rest'.toList, ?_⟩
  rw [open', close]
  simp only [String.toList_append, List.append_assoc]

/-- A value that a flag does not take is an error, which names the value. -/
lemma setOption_refused (refused : ¬ flag.Takes value) :
    ∃ e, contains e ("`" ++ value ++ "`") ∧ ∀ o, setOption o flag.name value = .error e := by
  cases flag with
  | transport =>
    refine ⟨_, contains_quoted value "unknown transport "
      "; choose stdio, streamable-http or sse" rfl rfl, fun o => ?_⟩
    rw [setOption_transport, parseTransport]
    split
    · next t known => exact absurd ⟨t, transportParse_iff.1 known⟩ refused
    · rfl
  | host => exact absurd trivial refused
  | port =>
    refine ⟨_, contains_quoted value "" " is not a port number" rfl rfl, fun o => ?_⟩
    rw [setOption_port, parsePort]
    split
    · next n read => exact absurd ⟨n, parseUnsigned_iff.1 read⟩ refused
    · rfl
  | maxSessions =>
    refine ⟨_, contains_quoted value "" " is not a positive number of sessions" rfl rfl,
      fun o => ?_⟩
    rw [setOption_maxSessions, parseMaxSessions]
    split
    · next n read =>
      obtain ⟨read, pos⟩ := Option.filter_eq_some_iff.1 read
      exact absurd ⟨n, parseUnsigned_iff.1 read, of_decide_eq_true pos⟩ refused
    · rfl

/-- No flag has a `=` in its name, -/
lemma name_free (flag : Flag) : '=' ∉ flag.name.toList := by
  cases flag with
  | transport => decide
  | host => decide
  | port => decide
  | maxSessions => decide

/-- and each is one that takes a value, which `--help` and `--version` are not. -/
lemma name_known (flag : Flag) :
    flag.name ∉ ["--help", "-h"] ∧ flag.name ∉ ["--version", "-V"] ∧
      flag.name ∈ ["--transport", "--host", "--port", "--max-sessions"] := by
  cases flag with
  | transport => decide
  | host => decide
  | port => decide
  | maxSessions => decide

/-- One turn of the loop at a flag that takes a value. -/
lemma parseFrom_flag {arg : String} {inline : Option String} {rest rest' : List String}
    (split : splitFlag arg = (flag.name, inline)) (next : orNext inline rest = some (value, rest')) :
    parseFrom o (arg :: rest) = setOption o flag.name value >>= fun o => parseFrom o rest' := by
  obtain ⟨help, version, known⟩ := name_known flag
  rw [parseFrom_cons, split, if_neg help, if_neg version, applyFlag, if_neg (not_not.2 known), next]
  show (setOption o flag.name value >>= _) >>= _ = _
  cases setOption o flag.name value with
  | error e => rfl
  | ok o => rfl

/-- In both spellings. -/
lemma parseFrom_setting (o : Options) (s : Setting) (rest : List String) :
    parseFrom o (s.render ++ rest) =
      setOption o s.flag.name s.value >>= fun o => parseFrom o rest := by
  rw [Setting.render]
  split
  · exact parseFrom_flag (splitFlag_inline s.value (name_free s.flag)) rfl
  · exact parseFrom_flag (splitFlag_bare (name_free s.flag)) rfl

/-- The first setting is applied first. -/
lemma setAll_cons (o : Options) (s : Setting) (settings : List Setting) :
    setAll o (s :: settings) =
      setOption o s.flag.name s.value >>= fun o => setAll o settings := by
  rw [setAll, List.foldlM_cons]
  rfl

/-- Settings go on from the options that those before them lead to. -/
lemma setAll_append (settings settings' : List Setting) (applied : setAll base settings = .ok o) :
    setAll base (settings ++ settings') = setAll o settings' := by
  rw [setAll] at applied
  rw [setAll, List.foldlM_append, applied]
  rfl

/-- A setting of a value that its flag takes is applied. -/
lemma Sets.setAll_cons {s : Setting} (sets : Sets s.flag s.value o o') (settings : List Setting) :
    setAll o (s :: settings) = setAll o' settings := by
  rw [Cli.setAll_cons, sets.setOption_eq]
  rfl

/-- The loop applies the settings, and goes on with the tail. -/
theorem parseFrom_render (o : Options) (settings : List Setting) (tail : List String) :
    parseFrom o (render settings ++ tail) =
      setAll o settings >>= fun o => parseFrom o tail := by
  induction settings generalizing o with
  | nil => rfl
  | cons s settings ih =>
    rw [render, List.flatMap_cons, List.append_assoc, parseFrom_setting, setAll_cons]
    cases setOption o s.flag.name s.value with
    | error e => rfl
    | ok o => exact ih o

/-- The last value of a flag, with one setting more. -/
lemma lastValue_concat (settings : List Setting) (s : Setting) (flag : Flag) :
    lastValue (settings ++ [s]) flag =
      if s.flag = flag then some s.value else lastValue settings flag := by
  rw [lastValue, List.filter_append]
  by_cases same : s.flag = flag
  · rw [if_pos same, List.filter_cons_of_pos (by simpa using same), List.filter_nil,
      List.getLast?_concat, Option.map_some]
  · rw [if_neg same, List.filter_cons_of_neg (by simpa using same), List.filter_nil,
      List.append_nil, lastValue]

/-- A flag that is set holds what it was set to. -/
lemma Sets.holds (sets : Sets flag value o o') : flag.Holds base o' (some value) := by
  cases sets with
  | transport t => exact rfl
  | host => exact rfl
  | port numeral => exact numeral
  | maxSessions numeral _ => exact numeral

/-- A setting changes no option but that of its flag. -/
lemma Sets.frame {other : Flag} {last : Option String} (sets : Sets flag value o o')
    (ne : flag ≠ other) (holds : other.Holds base o last) : other.Holds base o' last := by
  cases sets <;> cases other <;> first | exact holds | exact absurd rfl ne

/-- One setting more counts for its flag, and leaves the other options as they were. -/
lemma Settled.concat {s : Setting} (settled : Settled base settings o)
    (sets : Sets s.flag s.value o o') : Settled base (settings ++ [s]) o' := by
  intro other
  rw [lastValue_concat]
  split
  · next same => exact same ▸ sets.holds
  · next ne => exact sets.frame ne (settled other)

/-- Settings with values that their flags take are applied, and the last of each flag counts. -/
lemma exists_settled (base : Options) (settings : List Setting)
    (valid : ∀ s ∈ settings, s.flag.Takes s.value) :
    ∃ o, Settled base settings o ∧
      setAll base settings = .ok o := by
  induction settings using List.reverseRecOn with
  | nil =>
    refine ⟨base, fun flag => ?_, rfl⟩
    cases flag <;> exact rfl
  | append_singleton settings s ih =>
    obtain ⟨o, settled, applied⟩ := ih fun s' mem => valid s' (List.mem_append_left _ mem)
    have takes := valid s (List.mem_append_right _ (List.mem_singleton_self s))
    obtain ⟨o', sets⟩ := takes.sets o
    refine ⟨o', settled.concat sets, ?_⟩
    rw [setAll_append _ _ applied, sets.setAll_cons]
    rfl

/-- The first value that its flag does not take ends the loop with an error that names it. -/
lemma parseFrom_refused (refused : ¬ flag.Takes value) :
    ∃ e, contains e ("`" ++ value ++ "`") ∧ ∀ inline base before after tail,
      (∀ s ∈ before, s.flag.Takes s.value) →
      parseFrom base (render (before ++ ⟨flag, value, inline⟩ :: after) ++ tail) = .error e := by
  obtain ⟨e, names, failed⟩ := setOption_refused refused
  refine ⟨e, names, fun inline base before after tail valid => ?_⟩
  obtain ⟨o, _, applied⟩ := exists_settled base before valid
  rw [parseFrom_render, setAll_append _ _ applied, setAll_cons, failed]
  rfl

/-- The loop serves with a positive number of sessions, if it starts with one. -/
lemma parseFrom_pos {args : List String} (ok : parseFrom base args = .ok (.serve o))
    (pos : 0 < base.maxSessions) : 0 < o.maxSessions := by
  induction base, args using parseFrom.induct with
  | case1 base =>
    rw [parseFrom_nil] at ok
    cases ok
    exact pos
  | case2 base arg rest help =>
    rw [parseFrom_cons, if_pos help] at ok
    cases ok
  | case3 base arg rest help version =>
    rw [parseFrom_cons, if_neg help, if_pos version] at ok
    cases ok
  | case4 base arg rest help version e failed =>
    rw [parseFrom_cons, if_neg help, if_neg version, failed] at ok
    cases ok
  | case5 base arg rest help version o' rest' applied ih =>
    rw [parseFrom_cons, if_neg help, if_neg version, applied] at ok
    obtain ⟨value, _, set⟩ := applyFlag_inv applied
    obtain ⟨flag, sets⟩ := Sets.of_setOption set
    apply ih ok
    cases sets with
    | transport | host | port => exact pos
    | maxSessions _ pos => exact pos

/-- Options are read back from their settings. -/
lemma parse_settings (inline : Flag → Bool) (pos : 0 < o.maxSessions) :
    parse (render (o.settings inline)) = .ok (.serve o) := by
  have read := parseFrom_render .default (o.settings inline) []
  rw [List.append_nil] at read
  rw [parse, read, Options.settings, (Sets.transport o.transport).setAll_cons, Sets.host.setAll_cons,
    (Sets.port (.inl (digits_repr o.port.1))).setAll_cons,
    (Sets.maxSessions (.inl (digits_repr o.maxSessions.1)) pos).setAll_cons]
  exact parseFrom_nil o

/-- An argument is split into the name that it spells. -/
lemma Spells.splitFlag {arg name : String} (spells : Spells arg name) :
    (splitFlag arg).1 = name := by
  obtain ⟨free, rfl | ⟨value, rfl⟩⟩ := spells
  · rw [splitFlag_bare free]
  · rw [splitFlag_inline value free]

/-- `--help` ends the loop, whatever comes after it, -/
lemma parseFrom_help {arg name : String} {rest : List String} (spells : Spells arg name)
    (help : name ∈ ["--help", "-h"]) : parseFrom o (arg :: rest) = .ok .help := by
  rw [parseFrom_cons, spells.splitFlag, if_pos help]

/-- so does `--version`, -/
lemma parseFrom_version {arg name : String} {rest : List String} (spells : Spells arg name)
    (version : name ∈ ["--version", "-V"]) : parseFrom o (arg :: rest) = .ok .version := by
  have other : name ∉ ["--help", "-h"] := by
    rcases List.mem_pair.1 version with rfl | rfl
    · decide
    · decide
  rw [parseFrom_cons, spells.splitFlag, if_neg other, if_pos version]

/-- a name that is not known is an error, -/
lemma parseFrom_unknown {arg name : String} {rest : List String} (spells : Spells arg name)
    (unknown : name ∉ knownNames) :
    parseFrom o (arg :: rest) = .error ("unknown argument `" ++ name ++ "`") := by
  have apart : ∀ names, names ⊆ knownNames → name ∉ names := fun names sub mem => unknown (sub mem)
  rw [parseFrom_cons, spells.splitFlag, if_neg (apart _ (by decide)), if_neg (apart _ (by decide)),
    applyFlag, if_pos (apart _ (by decide))]
  rfl

/-- and so is a flag at the end that needs a value. -/
lemma parseFrom_needs (o : Options) (flag : Flag) :
    parseFrom o [flag.name] = .error (flag.name ++ " needs a value") := by
  obtain ⟨help, version, known⟩ := name_known flag
  rw [parseFrom_cons, splitFlag_bare (name_free flag), if_neg help, if_neg version, applyFlag,
    if_neg (not_not.2 known)]
  rfl

/-- Two lists of settings that say the same have the same effect. -/
lemma setAll_congr {settings' : List Setting}
    (same : settings.map Setting.said = settings'.map Setting.said) :
    setAll base settings = setAll base settings' := by
  have said : ∀ settings, setAll base settings =
      (settings.map Setting.said).foldlM (fun o s => setOption o s.1.name s.2) base := by
    intro settings
    rw [setAll, List.foldlM_map]
    rfl
  rw [said, said, same]

/-- The grammar of the command line. The settings before a tail may be spelled in both ways; if their
values are valid they are applied, the last of each flag counting, and the tail is read from there; the
first value that is not valid is an error, which names it, whatever follows. A tail that starts with
help or the version, with an unknown flag, or with a flag alone that takes a value, is read by that
alone. And the options that are served are those with a positive number of sessions. -/
theorem command_line :
    (∀ settings settings' tail, settings.map Setting.said = settings'.map Setting.said →
      parse (render settings ++ tail) = parse (render settings' ++ tail)) ∧
    (∀ settings tail, (∀ s ∈ settings, s.flag.Takes s.value) →
      ∃ o, setAll .default settings = .ok o ∧ Settled .default settings o ∧
        parse (render settings ++ tail) = parseFrom o tail) ∧
    (∀ flag : Flag, ∀ value, ¬ flag.Takes value →
      ∃ e, contains e ("`" ++ value ++ "`") ∧
        ∀ inline before after tail, (∀ s ∈ before, s.flag.Takes s.value) →
          parse (render (before ++ ⟨flag, value, inline⟩ :: after) ++ tail) = .error e) ∧
    (∀ o arg name rest, Spells arg name →
      (name ∈ ["--help", "-h"] → parseFrom o (arg :: rest) = .ok .help) ∧
      (name ∈ ["--version", "-V"] → parseFrom o (arg :: rest) = .ok .version) ∧
      (name ∉ knownNames →
        parseFrom o (arg :: rest) = .error ("unknown argument `" ++ name ++ "`"))) ∧
    (∀ o, ∀ flag : Flag, parseFrom o [flag.name] = .error (flag.name ++ " needs a value")) ∧
    (∀ o inline, 0 < o.maxSessions → parse (render (o.settings inline)) = .ok (.serve o)) ∧
    ∀ args o, parse args = .ok (.serve o) → 0 < o.maxSessions := by
  refine ⟨?_, ?_, ?_, ?_, parseFrom_needs, fun o inline pos => parse_settings inline pos, ?_⟩
  · intro settings settings' tail same
    rw [parse, parse, parseFrom_render, parseFrom_render, setAll_congr same]
  · intro settings tail valid
    obtain ⟨o, settled, applied⟩ := exists_settled .default settings valid
    refine ⟨o, applied, settled, ?_⟩
    rw [parse, parseFrom_render, applied]
    rfl
  · intro flag value refused
    obtain ⟨e, names, failed⟩ := parseFrom_refused refused
    exact ⟨e, names, fun inline => failed inline .default⟩
  · intro o arg name rest spells
    exact ⟨parseFrom_help spells, parseFrom_version spells, parseFrom_unknown spells⟩
  · intro args o ok
    exact parseFrom_pos ok (by decide)

/-- A value may look like a flag. -/
example : parse ["--host", "--help"] = .ok (.serve { Options.default with host := "--help" }) := by
  rw [parse, show ["--host", "--help"] = (Setting.mk .host "--help" false).render ++ [] from rfl,
    parseFrom_setting, setOption_host]
  exact parseFrom_nil _

end OxmlMcp.Cli
