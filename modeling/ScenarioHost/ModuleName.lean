import ScenarioHost.Text.Blank

/-!
Names of script modules: one spelling for each, and the name of a module's translations.
-/
namespace ScenarioHost

namespace ModuleName

def dropHere : List Char → List Char
  | '.' :: '/' :: rest => dropHere rest
  | cs => cs

def normalize (name : String) : String :=
  String.ofList (dropHere ((trimChars name.toList).map fun c => if c = '\\' then '/' else c))

def stem (module : String) : String :=
  let cs := module.toList
  if ".lua".toList.isSuffixOf cs then String.ofList (cs.take (cs.length - 4)) else module

def overlay (module language : String) : String :=
  "locale/" ++ stem module ++ "." ++ language ++ ".po"

end ModuleName

end ScenarioHost
