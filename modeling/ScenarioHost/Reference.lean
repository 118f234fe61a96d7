/-!
The reference of the functions that scripts may call: their groups, parameters and results.
-/
namespace ScenarioHost

inductive Topic where
  | base | entity | scenario | sector | gm | comms
deriving DecidableEq

namespace Topic

def name : Topic → String
  | .base => "base"
  | .entity => "entity"
  | .scenario => "scenario"
  | .sector => "sector"
  | .gm => "gm"
  | .comms => "comms"

def title : Topic → String
  | .base => "Base Functions"
  | .entity => "Entities and Classes"
  | .scenario => "Scenario Flow"
  | .sector => "Sector Names"
  | .gm => "Game Master"
  | .comms => "Comms"

def all : List Topic := [.base, .entity, .scenario, .sector, .gm, .comms]

end Topic

/-- A documented function. Parameters are pairs of name and type; a type that ends in a question
mark is optional. -/
structure Entry where
  name : String
  topic : Topic
  parameters : List (String × String)
  returns : Option String
  description : String

namespace Reference

/-- The functions that every environment has. -/
def entries : List Entry :=
  [⟨"random", .base, [("min", "number"), ("max", "number")], some "number",
      "Returns a random float between min and max."⟩,
    ⟨"irandom", .base, [("min", "integer"), ("max", "integer")], some "integer",
      "Returns a random integer between min and max, both inclusive."⟩,
    ⟨"print", .base, [("...", "any")], none,
      "Writes the arguments to the console. Tables are shown one level deep."⟩,
    ⟨"require", .base, [("filename", "string")], some "any",
      "Runs a script file in the current environment and returns its results. Loads the"
        ++ " file's translations as well."⟩,
    ⟨"_", .base, [("text", "string"), ("text_or_nil", "string?")], some "string",
      "Translates text. With two arguments the first one is the translation context."⟩,
    ⟨"getEEVersion", .base, [], some "integer",
      "Returns the engine version as major * 10000 + minor * 100 + patch."⟩,
    ⟨"createEntity", .entity, [], some "integer",
      "Creates an empty entity and returns its id."⟩,
    ⟨"getLuaEntityFunctionTable", .entity, [], some "table",
      "Returns the table holding functions shared by all script entities."⟩,
    ⟨"createClass", .entity, [], some "table",
      "Creates a class table. Calling it creates an instance and runs __init__."⟩,
    ⟨"getScenarioSetting", .scenario, [("key", "string")], some "string",
      "Returns the value of a scenario setting, or an empty string."⟩,
    ⟨"getScenarioVariation", .scenario, [], some "string",
      "Deprecated. Returns the \x60variation\x60 setting, or \"None\"."⟩,
    ⟨"onNewPlayerShip", .scenario, [("callback", "function")], none,
      "Sets the function called with the entity id of every new player ship."⟩,
    ⟨"globalMessage", .scenario, [("text", "string"), ("timeout", "number?")], none,
      "Shows a message on all main screens for timeout seconds."⟩,
    ⟨"victory", .scenario, [("faction", "string")], none,
      "Ends the scenario with a victory for the given faction."⟩,
    ⟨"setBanner", .scenario, [("text", "string")], none,
      "Sets the scrolling banner text."⟩,
    ⟨"getScenarioTime", .scenario, [], some "number",
      "Returns the seconds the scenario has been running, pauses excluded."⟩,
    ⟨"getSectorName", .sector, [("x", "number"), ("y", "number")], some "string",
      "Returns the name of the sector containing a world position."⟩,
    ⟨"sectorToXY", .sector, [("sector", "string")], some "number, number",
      "Returns the top-left corner of a sector. Invalid names give 0, 0."⟩,
    ⟨"addGMFunction", .gm, [("label", "string"), ("callback", "function")], none,
      "Adds a button to the game master screen."⟩,
    ⟨"clearGMFunctions", .gm, [], none,
      "Removes all game master buttons."⟩,
    ⟨"Script", .gm, [], some "Script",
      "Creates a separate script environment. Use :run(filename) and :setVariable(name,"
        ++ " value) on the result."⟩,
    ⟨"setCommsMessage", .comms, [("text", "string")], none,
      "Sets the message shown on the comms screen."⟩,
    ⟨"addCommsReply", .comms, [("label", "string"), ("callback", "function")], none,
      "Adds a reply option. The callback gets the source and target entity ids."⟩,
    ⟨"commsSwitchToGM", .comms, [], none,
      "Hands the current conversation to the game master."⟩]

def names : List String := entries.map Entry.name

def entryPoints : List (String × List (String × String) × String) :=
  [("init", [], "Called once after the scenario script has been loaded."),
    ("update", [("delta", "number")],
      "Called every tick with the elapsed seconds since the previous tick.")]

end Reference

end ScenarioHost
