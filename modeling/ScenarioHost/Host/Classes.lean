import ScenarioHost.Host.Boundary

/-!
Classes made of tables. Calling a class makes an instance that falls back to the class for fields
it does not have, and runs the class's `__init__` on it.
-/
namespace ScenarioHost.Classes

open Lua (Evaluator Site Spot Table TableId Value)

variable (run : Evaluator)

def newTable {ε : Type} (env : EnvironmentId) : Act ε TableId := do
  let t ← Act.readHeap env (·.nextTable)
  Act.updateHeap env (·.addTable .empty)
  return t

def setRaw {ε : Type} (env : EnvironmentId) (t : TableId) (key : String) (v : Value) : Act ε Unit :=
  Act.updateHeap env (·.rawSet t (.text key) v)

def create {ε : Type} (env : EnvironmentId) : Act ε TableId := do
  let cls ← newTable env
  let classMeta ← newTable env
  let instanceMeta ← newTable env
  setRaw env instanceMeta "__index" (.table cls)
  setRaw env classMeta "__instance" (.table instanceMeta)
  let f ← Act.readHeap env (·.nextFunction)
  Act.updateHeap env (·.addFunction (.builtin .construct))
  setRaw env classMeta "__call" (.function f)
  Act.updateHeap env (·.setMetatable cls (some classMeta))
  return cls

/-- Makes an instance of the class that is the first argument; the others are ignored. -/
def construct (s : Spot) (args : List Value) : Act HostError TableId := do
  let cls ← Conversion.argument Conversion.toTable s.env args 1
  match ← Act.readHeap s.env fun h => (h.table cls).metatable with
  | none => Act.raise (.runtime "createClass: class table lost its metatable")
  | some classMeta => do
    let v ← Boundary.getField run s.env (s.site none) (.table classMeta) "__instance"
    let h ← Act.readHeap s.env fun h => h
    let instanceMeta ← Act.ofExcept (Conversion.toTable h v)
    let object ← newTable s.env
    Act.updateHeap s.env (·.setMetatable object (some instanceMeta))
    match ← Boundary.getField run s.env (s.site none) (.table object) "__init__" with
    | .function f => do
      discard (Boundary.call run s.env (s.site none) (.function f) [.table object])
      return object
    | _ => return object

end ScenarioHost.Classes
