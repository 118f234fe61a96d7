import ScenarioHost.Binary.Single
import ScenarioHost.Decimal.Numeral
import ScenarioHost.Text.Blank

/-!
The command line: options with their values, and what is wrong with those that do not fit. An
option that waits for its value is settled when the next one comes, or at the end.
-/
namespace ScenarioHost.CommandLine

inductive Opt where
  | config | scripts | language | setting | ticks | delta | stubs | luarc
deriving DecidableEq

namespace Opt

def name : Opt → String
  | .config => "config"
  | .scripts => "scripts"
  | .language => "language"
  | .setting => "setting"
  | .ticks => "ticks"
  | .delta => "delta"
  | .stubs => "create-lua-stubs"
  | .luarc => "create-luarc"

def usage (o : Opt) : String :=
  "--" ++ o.name ++
    match o with
    | .config => " <PATH>"
    | .scripts => " <DIR>"
    | .language => " <CODE>"
    | .setting => " <KEY=VALUE>"
    | .ticks => " <TICKS>"
    | .delta => " <DELTA>"
    | .stubs | .luarc => " [<PATH>]"

def all : List Opt := [.config, .scripts, .language, .setting, .ticks, .delta, .stubs, .luarc]

def ofName? (name : String) : Option Opt := all.find? fun o => decide (o.name = name)

def valueOptional : Opt → Bool
  | .stubs | .luarc => true
  | _ => false

def repeatable : Opt → Bool
  | .scripts | .setting => true
  | _ => false

end Opt

inductive UsageError where
  | unexpectedArgument (text : String)
  | unexpectedValue (value option : String)
  | valueRequired (option : String)
  | repeated (option : String)
  | invalidValue (value option reason : String)
deriving DecidableEq

def UsageError.message : UsageError → String
  | .unexpectedArgument text => "unexpected argument '" ++ text ++ "' found"
  | .unexpectedValue value option =>
    "unexpected value '" ++ value ++ "' for '" ++ option ++ "' found; no more were expected"
  | .valueRequired option => "a value is required for '" ++ option ++ "' but none was supplied"
  | .repeated option => "the argument '" ++ option ++ "' cannot be used multiple times"
  | .invalidValue value option reason =>
    "invalid value '" ++ value ++ "' for '" ++ option ++ "': " ++ reason

inductive Stop where
  | help
  | version
  | error (e : UsageError)
deriving DecidableEq

structure Options where
  entry : Option String
  config : Option String
  scripts : List String
  language : Option String
  settings : List (String × String)
  ticks : Nat
  delta : Single
  report : Bool
  stubs : Option (Option String)
  luarc : Option (Option String)

/-- A sixtieth of a second. -/
def defaultDelta : Single := .ofRatio false 1 60

def Options.default : Options := ⟨none, none, [], none, [], 0, defaultDelta, false, none, none⟩

/-- Splits a setting at its first `=`; the key is trimmed and must not be blank. -/
def parseSetting (raw : String) : Except String (String × String) :=
  let cs := raw.toList
  match cs.dropWhile (· ≠ '=') with
  | [] => .error ("expected KEY=VALUE, got \x60" ++ raw ++ "\x60")
  | _ :: value =>
    let key := trimmed (String.ofList (cs.takeWhile (· ≠ '=')))
    if key.isEmpty then .error ("empty setting key in \x60" ++ raw ++ "\x60")
    else .ok (key, String.ofList value)

def parseTicks (raw : String) : Except String Nat :=
  match parseWhole (-0x8000000000000000) 0x7FFFFFFFFFFFFFFF raw with
  | .error e => .error e.message
  | .ok n =>
    if 0 ≤ n ∧ n < 0x100000000 then .ok n.toNat
    else .error (toString n ++ " is not in 0..=4294967295")

def parseDelta (raw : String) : Except String Single :=
  match Numeral.parse? raw with
  | some n => .ok n.toSingle
  | none =>
    if raw.isEmpty then .error "cannot parse float from empty string"
    else .error "invalid float literal"

structure State where
  options : Options
  given : List String
  pending : Option (Opt × List String)
  /-- Whether the option that waits may still take a value. -/
  open_ : Bool
  trailing : Bool

abbrev Step := Except Stop State

def fail {α : Type} (e : UsageError) : Except Stop α := .error (.error e)

def nonempty (o : Opt) (value : String) (set : Options) : Except Stop Options :=
  if value.isEmpty then fail (.valueRequired o.usage) else .ok set

def ofParsed {α : Type} (o : Opt) (raw : String) (x : Except String α) : Except Stop α :=
  match x with
  | .ok a => .ok a
  | .error reason => fail (.invalidValue raw o.usage reason)

def setValue (s : Options) (o : Opt) (raw : String) : Except Stop Options :=
  match o with
  | .config => nonempty o raw { s with config := some raw }
  | .scripts => nonempty o raw { s with scripts := s.scripts ++ [raw] }
  | .language => .ok { s with language := some raw }
  | .setting => do
    let setting ← ofParsed o raw (parseSetting raw)
    return { s with settings := s.settings ++ [setting] }
  | .ticks => do
    let n ← ofParsed o raw (parseTicks raw)
    return { s with ticks := n }
  | .delta => do
    let x ← ofParsed o raw (parseDelta raw)
    return { s with delta := x }
  | .stubs => nonempty o raw { s with stubs := some (some raw) }
  | .luarc => nonempty o raw { s with luarc := some (some raw) }

def setBare (s : Options) (o : Opt) : Options :=
  match o with
  | .stubs => { s with stubs := some none }
  | .luarc => { s with luarc := some none }
  | _ => s

def settle (s : State) (o : Opt) (values : List String) : Step :=
  if values.isEmpty && !o.valueOptional then fail (.valueRequired o.usage)
  else if !o.repeatable && s.given.contains o.name then fail (.repeated o.usage)
  else do
    let s := { s with given := o.name :: s.given }
    match values with
    | raw :: _ => return { s with options := ← setValue s.options o raw }
    | [] => return { s with options := setBare s.options o }

def settlePending (s : State) : Step :=
  match s.pending with
  | none => .ok s
  | some (o, values) => settle { s with pending := none, open_ := false } o values

def splitLong (cs : List Char) : String × Option String :=
  let name := String.ofList (cs.takeWhile (· ≠ '='))
  match cs.dropWhile (· ≠ '=') with
  | [] => (name, none)
  | _ :: value => (name, some (String.ofList value))

def isFlag (name : String) : Bool := ["report", "help", "version"].contains name

def setFlag (s : State) (name : String) : Step := do
  let s ← settlePending s
  if name = "help" then .error .help
  else if name = "version" then .error .version
  else if s.given.contains name then fail (.repeated ("--" ++ name))
  else return { s with given := name :: s.given, options := { s.options with report := true } }

def readLong (s : State) (cs : List Char) : Step :=
  let (name, value) := splitLong cs
  if isFlag name then
    match value with
    | some v => fail (.unexpectedValue v ("--" ++ name))
    | none => setFlag s name
  else
    match Opt.ofName? name, value with
    | none, _ => fail (.unexpectedArgument ("--" ++ name))
    | some o, some v => do settle (← settlePending s) o [v]
    | some o, none => do return { ← settlePending s with pending := some (o, []), open_ := true }

def readPositional (s : State) (text : String) : Step :=
  match s.options.entry with
  | some _ => fail (.unexpectedArgument text)
  | none => do
    let s ← settlePending s
    return { s with options := { s.options with entry := some text } }

def readPlain (s : State) (text : String) : Step :=
  match s.pending, s.open_ with
  | some (o, values), true => .ok { s with pending := some (o, values ++ [text]), open_ := false }
  | _, _ => readPositional s text

def readArgument (s : State) (text : String) : Step :=
  if s.trailing then readPositional s text
  else
    match text.toList with
    | ['-', '-'] => .ok { s with trailing := true }
    | '-' :: '-' :: rest => readLong s rest
    | '-' :: 'h' :: _ => setFlag s "help"
    | '-' :: 'V' :: _ => setFlag s "version"
    | '-' :: c :: _ => fail (.unexpectedArgument (String.ofList ['-', c]))
    | _ => readPlain s text

def parse (args : List String) : Except Stop Options := do
  let s ← args.foldlM readArgument ⟨.default, [], none, false, false⟩
  return (← settlePending s).options

end ScenarioHost.CommandLine
