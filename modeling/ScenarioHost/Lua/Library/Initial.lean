import ScenarioHost.Lua.Heap

/-!
The heap that an environment begins with: the standard functions under their names, the metatables
of strings, of handles to sub-scripts and of host errors.
-/
namespace ScenarioHost.Lua.Library

def baseFunctions : List (String × BaseFunction) :=
  [("assert", .assert), ("collectgarbage", .collectgarbage), ("error", .error), ("getfenv", .getfenv),
    ("getmetatable", .getmetatable), ("ipairs", .ipairs), ("load", .load),
    ("loadstring", .loadstring), ("newproxy", .newproxy), ("next", .next), ("pairs", .pairs),
    ("pcall", .pcall), ("rawequal", .rawequal), ("rawget", .rawget), ("rawset", .rawset),
    ("select", .select), ("setfenv", .setfenv), ("setmetatable", .setmetatable),
    ("tonumber", .tonumber), ("tostring", .tostring), ("type", .type), ("unpack", .unpack),
    ("xpcall", .xpcall)]

def stringFunctions : List (String × StringFunction) :=
  [("byte", .byte), ("char", .char), ("find", .find), ("format", .format), ("gmatch", .gmatch),
    ("gsub", .gsub), ("len", .len), ("lower", .lower), ("match", .match), ("rep", .rep),
    ("reverse", .reverse), ("sub", .sub), ("upper", .upper)]

def tableFunctions : List (String × TableFunction) :=
  [("concat", .concat), ("foreach", .foreach), ("foreachi", .foreachi), ("getn", .getn),
    ("insert", .insert), ("maxn", .maxn), ("move", .move), ("remove", .remove), ("sort", .sort)]

def mathFunctions : List (String × MathFunction) :=
  [("abs", .abs), ("acos", .acos), ("asin", .asin), ("atan", .atan), ("atan2", .atan2),
    ("ceil", .ceil), ("cos", .cos), ("cosh", .cosh), ("deg", .deg), ("exp", .exp),
    ("floor", .floor), ("fmod", .fmod), ("frexp", .frexp), ("ldexp", .ldexp), ("log", .log),
    ("log10", .log10), ("max", .max), ("min", .min), ("modf", .modf), ("pow", .pow), ("rad", .rad),
    ("random", .random), ("randomseed", .randomseed), ("sin", .sin), ("sinh", .sinh),
    ("sqrt", .sqrt), ("tan", .tan), ("tanh", .tanh)]

def bitFunctions : List (String × BitFunction) :=
  [("arshift", .arshift), ("band", .band), ("bnot", .bnot), ("bor", .bor), ("bswap", .bswap),
    ("bxor", .bxor), ("lshift", .lshift), ("rol", .rol), ("ror", .ror), ("rshift", .rshift),
    ("tobit", .tobit), ("tohex", .tohex)]

def bind (h : Heap) (t : TableId) (name : String) (v : Value) : Heap := h.rawSet t (.text name) v

def bindBuiltin (t : TableId) (h : Heap) (named : String × Builtin) : Heap :=
  bind (h.addFunction (.builtin named.2)) t named.1 (.function h.nextFunction)

def bindAll (h : Heap) (t : TableId) (functions : List (String × Builtin)) : Heap :=
  functions.foldl (bindBuiltin t) h

def withTable (h : Heap) (functions : List (String × Builtin)) : Heap × TableId :=
  (bindAll (h.addTable .empty) h.nextTable functions, h.nextTable)

def bindLibrary (h : Heap) (globals : TableId) (name : String) (functions : List (String × Builtin)) :
    Heap × TableId :=
  let (h, t) := withTable h functions
  (bind h globals name (.table t), t)

def named {α : Type} (builtin : α → Builtin) (functions : List (String × α)) :
    List (String × Builtin) :=
  functions.map fun f => (f.1, builtin f.2)

def standardHeap : Heap × TableId :=
  let (h, globals) := withTable .empty (named .base baseFunctions)
  let h := bind h globals "_G" (.table globals)
  let h := bind h globals "_VERSION" (.text "Lua 5.1")
  let (h, strings) := bindLibrary h globals "string" (named .string stringFunctions)
  let (h, _) := bindLibrary h globals "table" (named .table tableFunctions)
  let (h, numbers) := bindLibrary h globals "math" (named .math mathFunctions)
  let h := bind h numbers "huge" (.number (Double.ofReading (.infinite false)))
  let h := bind h numbers "pi" (.number 3.141592653589793)
  let (h, _) := bindLibrary h globals "bit" (named .bit bitFunctions)
  let (h, stringMeta) := withTable h []
  let h := bind h stringMeta "__index" (.table strings)
  ({ h with stringMeta := some stringMeta }, globals)

def withHostMetatables (h : Heap) : Heap :=
  let (h, methods) := withTable h [("run", .handle .run), ("setVariable", .handle .setVariable)]
  let (h, scriptMeta) := withTable h [("__tostring", .handle .text)]
  let h := bind h scriptMeta "__index" (.table methods)
  let h := bind h scriptMeta "__metatable" (.boolean false)
  let (h, errorMeta) := withTable h [("__tostring", .errorText)]
  let h := bind h errorMeta "__metatable" (.boolean false)
  { h with scriptMeta := some scriptMeta, errorMeta := some errorMeta }

end ScenarioHost.Lua.Library
