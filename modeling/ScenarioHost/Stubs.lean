import ScenarioHost.Reference

/-!
Editor support: stubs of the documented functions, with annotations of their types.
-/
namespace ScenarioHost.Stubs

/-- The annotation of a type; an optional one may also be nil. -/
def annotation (type : String) : String :=
  match type.toList.reverse with
  | '?' :: rest => String.ofList rest.reverse ++ "|nil"
  | _ => type

def parameterLines (parameters : List (String × String)) : List String :=
  parameters.map fun p => "---@param " ++ p.1 ++ " " ++ annotation p.2

def signature (name : String) (parameters : List (String × String)) : String :=
  "function " ++ name ++ "(" ++ String.intercalate ", " (parameters.map Prod.fst) ++ ") end"

def listedTypes : List Char → List (List Char)
  | [] => [[]]
  | ',' :: ' ' :: rest => [] :: listedTypes rest
  | c :: rest =>
    match listedTypes rest with
    | first :: others => (c :: first) :: others
    | [] => [[c]]

def returnLines (returns : Option String) : List String :=
  match returns with
  | none => []
  | some types =>
    (listedTypes types.toList).map fun t => "---@return " ++ annotation (String.ofList t)

def entryLines (e : Entry) : List String :=
  ["---" ++ e.description] ++ parameterLines e.parameters ++ returnLines e.returns
    ++ [signature e.name e.parameters, ""]

def entryPointLines (e : String × List (String × String) × String) : List String :=
  ["---" ++ e.2.2] ++ parameterLines e.2.1 ++ [signature e.1 e.2.1, ""]

def heading (title : String) : String :=
  "-- ==================== " ++ title ++ " ===================="

def topicLines (t : Topic) : List String :=
  [heading t.title, ""] ++ (Reference.entries.filter (·.topic = t)).flatMap entryLines

def fileHeader : List String :=
  ["---@meta", "", "-- THIS FILE IS AUTO-GENERATED by \x60scriptbridge --create-lua-stubs\x60.",
    "-- DO NOT EDIT MANUALLY.", "", heading "Callback Signatures",
    "-- Define these in the scenario script; the host calls them.", ""]

def scriptClass : List String :=
  [heading "Script", "", "---@class Script",
    "---Handle to a separate script environment created with Script().",
    "local Script = \x7b\x7d", "",
    "---Runs a script file in the environment. Failures go to the console.",
    "---@param filename string", "---@return boolean", "function Script:run(filename) end", "",
    "---Sets a string global in the environment.",
    "---@param name string", "---@param value string",
    "function Script:setVariable(name, value) end"]

def text : String :=
  let lines := fileHeader ++ Reference.entryPoints.flatMap entryPointLines
    ++ Topic.all.flatMap topicLines ++ scriptClass
  String.join (lines.map (· ++ "\n"))

def missing (bound : List String) : List String := Reference.names.filter fun n => !bound.contains n

def generate (bound : List String) : Except String String :=
  match missing bound with
  | [] => .ok text
  | names => .error ("Documented functions are not registered: " ++ String.intercalate ", " names)

end ScenarioHost.Stubs
