import ScenarioHost.Ini
import ScenarioHost.Decimal.Layout

/-!
Settings of the script host and their file. Loading overrides field by field: a field whose key is
missing or unusable keeps its value.
-/
namespace ScenarioHost

structure Config where
  /-- Language of the translations that are loaded beside modules. -/
  language : String
  /-- Directories searched for modules, in order. -/
  scriptDirs : List String
  /-- Modules run in every new environment. -/
  bootstrap : List String
  consoleCapacity : Nat
  /-- Seconds that a global message stays when no time is given. -/
  messageTimeout : Single
deriving DecidableEq

namespace Config

def default : Config := ⟨"en", ["./scripts"], [], 200, .ofInt 5⟩

instance : Inhabited Config := ⟨default⟩

/-- The items of a list separated by commas; blank ones are skipped. -/
def splitList (value : String) : List String :=
  (((splitChars ',' value.toList).map trimChars).filter fun item => !item.isEmpty).map String.ofList

def capacity? (value : String) : Option Nat :=
  match parseWhole 0 0xFFFFFFFFFFFFFFFF value with
  | .ok n => some n.toNat
  | .error _ => none

def timeout? (value : String) : Option Single :=
  (Numeral.parse? value).map fun n => .ofDouble n.toDouble

def someItems? (value : String) : Option (List String) :=
  match splitList value with
  | [] => none
  | items => some items

def override (c : Config) (ini : Ini) : Config where
  language :=
    match (ini.get? "scripting" "language").map trimmed with
    | some language => if language.isEmpty then c.language else language
    | none => c.language
  scriptDirs := ((ini.get? "scripting" "script_dirs").bind someItems?).getD c.scriptDirs
  bootstrap := ((ini.get? "scripting" "bootstrap").map splitList).getD c.bootstrap
  consoleCapacity := ((ini.get? "console" "capacity").bind capacity?).getD c.consoleCapacity
  messageTimeout :=
    ((ini.get? "scenario" "global_message_timeout").bind timeout?).getD c.messageTimeout

def load (c : Config) (text : String) : Except IniError Config := (Ini.parse text).map c.override

def sections (c : Config) : List Ini.Section :=
  [("scripting", [("language", c.language), ("script_dirs", joined ", " c.scriptDirs),
      ("bootstrap", joined ", " c.bootstrap)]),
    ("console", [("capacity", toString c.consoleCapacity)]),
    ("scenario", [("global_message_timeout", c.messageTimeout.toPlain)])]

def save (c : Config) : String := Ini.render c.sections

end Config

end ScenarioHost
