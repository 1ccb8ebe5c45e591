import Heartbeat.CommandLine.Option

/-!
# Heartbeat.CommandLine.Parse

From arguments and environment to the configuration of a run.

Arguments are taken one by one. A value attached with `=` is read at once; an option with its value
in the next argument stays pending, and is read when another option is taken or the arguments are
at their end. Then the environment fills in options that were not given, in the order of the
command, and last come defaults and the check for required options.
-/

namespace Heartbeat.CommandLine

inductive ParseError where
  | unknownArgument (arg : String)
  | valueMissing (k : Key)
  /-- A value for an option, so named, that takes none. -/
  | valueUnexpected (option value : String)
  | repeated (k : Key)
  | invalidValue (k : Key) (value : String) (fault : ValueFault)
  | requiredMissing (ks : List Key)
  /-- Not an error: the help text is asked for. -/
  | help
  /-- Not an error: the version is asked for. -/
  | version
  deriving DecidableEq, Repr

/-! ## Values -/

/-- The values read so far for each option. -/
def Matches := (k : Key) → List k.Value

namespace Matches

def empty : Matches := fun _ => []

def has (m : Matches) (k : Key) : Bool := !(m k).isEmpty

def set (m : Matches) (k : Key) (vs : List k.Value) : Matches :=
  fun j => if h : j = k then h ▸ vs else m j

end Matches

/-- The texts of the single values in a text. -/
def Key.pieces (k : Key) (text : String) : List String :=
  if k.isList then (text.toList.splitOn ',').map String.ofList else [text]

def Key.readPiece (k : Key) (piece : String) : Except ParseError k.Value :=
  match k.kind.read piece with
  | .ok v => .ok v
  | .error f => .error (.invalidValue k piece f)

/-- Takes the text given for an option. -/
def Matches.accept (m : Matches) (k : Key) (text : String) : Except ParseError Matches :=
  if m.has k ∧ ¬ k.isList then .error (.repeated k)
  else do
    let vs ← (k.pieces text).mapM k.readPiece
    return m.set k (m k ++ vs)

/-! ## Arguments -/

structure Scan where
  given : Matches := .empty
  /-- The option last taken, if its value is not read yet, and its value if that has come. -/
  pending : Option (Key × Option String) := none
  /-- Whether a lone `--` has come: no option can follow it. -/
  literal : Bool := false

namespace Scan

/-- Reads what is pending. -/
def settle (s : Scan) : Except ParseError Scan :=
  match s.pending with
  | none => .ok s
  | some (k, none) => .error (.valueMissing k)
  | some (k, some v) => do return { s with given := ← s.given.accept k v, pending := none }

/-- Takes an option with the text of its value. -/
def take (s : Scan) (k : Key) (text : String) : Except ParseError Scan := do
  let s ← s.settle
  return { s with given := ← s.given.accept k text }

/-- Takes an argument that asks for a text instead of a run. -/
def ask (s : Scan) (e : ParseError) : Except ParseError Scan := do
  let _ ← s.settle
  .error e

/-- Takes an argument of two dashes, a name and perhaps a value. -/
def long (c : Command) (s : Scan) (name : String) (value : Option String) :
    Except ParseError Scan :=
  match c.find? name, value with
  | some k, some v =>
    if k.kind = .switch then .error (.valueUnexpected k.display v) else s.take k v
  | some k, none =>
    if k.kind = .switch then s.take k "true"
    else do return { ← s.settle with pending := some (k, none) }
  | none, value =>
    if name = "help" ∨ (name = "version" ∧ c.version) then
      match value with
      | some v => .error (.valueUnexpected ("--" ++ name) v)
      | none => s.ask (if name = "help" then .help else .version)
    else .error (.unknownArgument ("--" ++ name))

/-- Takes an argument of one dash and letters, of which the first decides. -/
def short (c : Command) (s : Scan) (letter : Char) : Except ParseError Scan :=
  if letter = 'h' then s.ask .help
  else if letter = 'V' ∧ c.version then s.ask .version
  else .error (.unknownArgument (String.ofList ['-', letter]))

/-- Takes an argument that does not look like an option. -/
def plain (s : Scan) (arg : String) : Except ParseError Scan :=
  match s.pending with
  | some (k, none) => .ok { s with pending := some (k, some arg) }
  | _ => .error (.unknownArgument arg)

def step (c : Command) (s : Scan) (arg : String) : Except ParseError Scan :=
  if s.literal then .error (.unknownArgument arg)
  else
    match arg.toList with
    | ['-', '-'] => .ok { s with literal := true }
    | '-' :: '-' :: cs =>
      let name := String.ofList (cs.takeWhile (· ≠ '='))
      match cs.dropWhile (· ≠ '=') with
      | [] => s.long c name none
      | _ :: value => s.long c name (some (String.ofList value))
    | '-' :: letter :: _ => s.short c letter
    | _ => s.plain arg

end Scan

/-! ## Environment and defaults -/

/-- The value of each environment variable that is set. -/
abbrev Environment := String → Option String

/-- Reads the variable of an option that was not given. -/
def Matches.fill (env : Environment) (m : Matches) (k : Key) : Except ParseError Matches :=
  if m.has k then .ok m
  else
    match env k.envVariable with
    | some text => m.accept k text
    | none => .ok m

structure Config where
  collector : Collector
  identity : Identity
  settings : Settings
  logLevel : String
  logFormat : String

/-- The configuration that values and defaults make, unless a required value is missing. -/
def Matches.config (m : Matches) (c : Command) : Except ParseError Config :=
  let base : Settings := {}
  match (m .collectorUrl).head?, (m .applicationName).head? with
  | some url, some applicationName =>
    let collector : Collector := { url, token := (m .collectorToken).head? }
    .ok {
      collector :=
        { collector with httpTimeout := (m .httpTimeout).head?.getD collector.httpTimeout }
      identity :=
        { agentId := (m .agentId).head?
          applicationName
          address := (m .agentIp).head?
          ports := m .port
          container := (m .container).head?.getD false }
      settings :=
        { sendInterval := (m .sendInterval).head?.getD base.sendInterval
          refreshInterval := (m .refreshInterval).head?.getD base.refreshInterval
          maxTries := (m .maxTries).head?.getD base.maxTries
          responseTimeout := (m .responseTimeout).head?.getD base.responseTimeout }
      logLevel := (m .logLevel).head?.getD defaultLogLevel
      logFormat := (m .logFormat).head?.getD defaultLogFormat }
  | _, _ => .error (.requiredMissing (c.options.filter fun k => k.isRequired && !m.has k))

def Command.parse (c : Command) (args : List String) (env : Environment) :
    Except ParseError Config := do
  let s ← args.foldlM (Scan.step c) {}
  let s ← s.settle
  let m ← c.options.foldlM (Matches.fill env) s.given
  m.config c

/-! ## Messages -/

/-- A text without what a terminal would not show: controls other than line breaks and blanks, and
the sequences that a terminal takes as commands. -/
def visible : List Char → List Char :=
  go false
where
  /-- `inside` tells that a command has begun. -/
  go : Bool → List Char → List Char
    | _, [] => []
    | true, c :: cs => go (c.toNat < 0x40 || 0x7e < c.toNat) cs
    | false, '\x1b' :: '[' :: cs => go true cs
    | false, c :: cs =>
      if (c.toNat < 0x20 ∧ ¬ (c = '\t' ∨ c = '\n' ∨ c = '\x0c' ∨ c = '\r')) ∨ c = '\x7f' then
        go false cs
      else c :: go false cs

namespace ParseError

/-- What is said first of an error. -/
def summary : ParseError → String
  | unknownArgument arg => "unexpected argument '" ++ arg ++ "' found"
  | valueMissing k | invalidValue k _ .absent =>
    "a value is required for '" ++ k.display ++ "' but none was supplied"
  | valueUnexpected option value =>
    "unexpected value '" ++ value ++ "' for '" ++ option ++ "' found; no more were expected"
  | repeated k => "the argument '" ++ k.display ++ "' cannot be used multiple times"
  | invalidValue k value fault =>
    "invalid value '" ++ value ++ "' for '" ++ k.display ++ "'" ++
      (match fault.reason? with
        | some reason => ": " ++ reason
        | none => "")
  | requiredMissing _ => "the following required arguments were not provided:"
  | help => "help requested"
  | version => "version requested"

/-- The first line of what an error prints. -/
def headline (e : ParseError) : String :=
  String.ofList <| (visible ("error: " ++ e.summary).toList).takeWhile (· ≠ '\n')

end ParseError
end Heartbeat.CommandLine
