import ScenarioHost.Text.Blank
import ScenarioHost.Decimal.Numeral

/-!
Settings files in sections. A comment starts at the first `;` or `#` of a line, the first `=` or
`:` ends a key, and names of sections and keys are put in small letters. The last value wins.
-/
namespace ScenarioHost

/-- One assignment of a file; a key without a delimiter has no value. -/
structure IniEntry where
  section_ : String
  key : String
  value : Option String
deriving DecidableEq

abbrev Ini := List IniEntry

inductive IniError where
  | openSection (line : Nat)
  | emptyKey (line : Nat)
deriving DecidableEq

def IniError.message : IniError → String
  | .openSection line =>
    "line " ++ toString line ++ ": Found opening bracket for section name but no closing bracket"
  | .emptyKey line => "line " ++ toString line ++ ":0: Key cannot be empty"

namespace Ini

inductive Line where
  | blank
  | header (name : String)
  | entry (key : String) (value : Option String)
  | openHeader
  | noKey
deriving DecidableEq

def isCommentMark (c : Char) : Bool := c = ';' || c = '#'

def isDelimiter (c : Char) : Bool := c = '=' || c = ':'

def lowered (cs : List Char) : String := String.ofList (cs.map lowerAscii)

def headerName? (afterOpen : List Char) : Option (List Char) :=
  match afterOpen.reverse.dropWhile (· ≠ ']') with
  | [] => none
  | _ :: before => some before.reverse

def readLine (raw : List Char) : Line :=
  match trimChars (raw.takeWhile fun c => !isCommentMark c) with
  | [] => .blank
  | '[' :: rest =>
    match headerName? rest with
    | some name => .header (lowered (trimChars name))
    | none => .openHeader
  | cs =>
    match cs.dropWhile fun c => !isDelimiter c with
    | [] => .entry (lowered cs) none
    | _ :: value =>
      match trimChars (cs.takeWhile fun c => !isDelimiter c) with
      | [] => .noKey
      | key => .entry (lowered key) (some (String.ofList (trimChars value)))

def readLines : (line : Nat) → (section_ : String) → List (List Char) → Except IniError Ini
  | _, _, [] => .ok []
  | line, section_, raw :: rest =>
    match readLine raw with
    | .blank => readLines (line + 1) section_ rest
    | .header name => readLines (line + 1) name rest
    | .openHeader => .error (.openSection line)
    | .noKey => .error (.emptyKey line)
    | .entry key value => (readLines (line + 1) section_ rest).map (⟨section_, key, value⟩ :: ·)

/-- Reads a file; keys before the first header belong to the section `default`. -/
def parse (text : String) : Except IniError Ini :=
  readLines 1 "default" (splitChars '\n' text.toList)

def get? (ini : Ini) (section_ key : String) : Option String :=
  (ini.findRev? fun e => decide (e.section_ = section_ ∧ e.key = key)).bind IniEntry.value

abbrev Section := String × List (String × String)

def renderSection (s : Section) : String :=
  "[" ++ s.1 ++ "]\n" ++ String.join (s.2.map fun e => e.1 ++ "=" ++ e.2 ++ "\n")

def render (sections : List Section) : String := String.join (sections.map renderSection)

end Ini

end ScenarioHost
