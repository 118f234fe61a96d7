import ScenarioHost.Host.Conversion
import ScenarioHost.Lua.Operation

/-!
The boundary between host and scripts. A host error enters an environment as a userdata that keeps
it; an error value that leaves one is that host error again, or else its text.
-/
namespace ScenarioHost.Boundary

open Lua (Evaluator Heap Site Spot Value)

variable (run : Evaluator)

def raiseIn {α : Type} (env : EnvironmentId) (e : HostError) : Act Value α := do
  let u ← Act.readHeap env (·.nextUserdata)
  Act.updateHeap env fun h => h.addUserdata ⟨.error (.callback e), h.errorMeta⟩
  Act.raise (.userdata u)

def inScript {α : Type} (env : EnvironmentId) (x : Act HostError α) : Act Value α := do
  match ← x.attempt with
  | .ok a => return a
  | .error e => raiseIn env e

def plainText (h : Heap) (v : Value) : ByteString :=
  match v with
  | .table _ | .function _ | .userdata _ =>
    let name : ByteString :=
      match h.handler v "__name" with
      | .string name => name
      | _ => ⟨v.typeName⟩
    name ++ ⟨": " ++ Heap.addressText v⟩
  | _ => h.plainText v

/-- The text of a value; a `__tostring` handler has to give one. -/
def textOf (s : Spot) (v : Value) : Act Value ByteString := do
  match ← Act.readHeap s.env fun h => h.handler v "__tostring" with
  | .nil => Act.readHeap s.env fun h => plainText h v
  | f =>
    match (Value.first (← Lua.callHandler run s "tostring" f [v])).toString? with
    | some text => return text
    | none => Act.raise (.text "'__tostring' must return a string")

def messageText (bytes : ByteString) : String :=
  String.ofList ((bytes.toTextLossy.toList.reverse.dropWhile (· = '\n')).reverse)

def errorOf {ε : Type} (env : EnvironmentId) (site : Site) (v : Value) : Act ε HostError := do
  match ← Act.readHeap env fun h => Conversion.hostError? h v with
  | some e => return e
  | none =>
    match ← (textOf run ⟨env, site, none⟩ v).attempt with
    | .ok text => return .runtime (messageText text)
    | .error _ => return .runtime "error in error handling"

def fromHost {α : Type} (env : EnvironmentId) (site : Site) (x : Act Value α) :
    Act HostError α := do
  match ← x.attempt with
  | .ok a => return a
  | .error v => Act.raise (← errorOf run env site v)

def call (env : EnvironmentId) (site : Site) (f : Value) (args : List Value) :
    Act HostError (List Value) :=
  fromHost run env site (run .values (.call env site f args))

/-- The value of a field; handlers take part. -/
def getField (env : EnvironmentId) (site : Site) (o : Value) (key : String) : Act HostError Value :=
  fromHost run env site (Lua.index run ⟨env, site, none⟩ Lua.chainLimit none o (Conversion.ofText key))

def globals {ε : Type} (env : EnvironmentId) : Act ε Value :=
  Act.read fun w => .table (w.environment env).globals

def getGlobal (env : EnvironmentId) (site : Site) (name : String) : Act HostError Value := do
  getField run env site (← globals env) name

def setGlobal (env : EnvironmentId) (site : Site) (name : String) (v : Value) :
    Act HostError Unit := do
  let g ← globals env
  fromHost run env site
    (Lua.setIndex run ⟨env, site, none⟩ Lua.chainLimit none g (Conversion.ofText name) v)

def hasFunction {ε : Type} (env : EnvironmentId) (site : Site) (name : String) : Act ε Bool := do
  match ← (getGlobal run env site name).attempt with
  | .ok (.function _) => return true
  | _ => return false

def callGlobal (env : EnvironmentId) (site : Site) (name : String) (args : List Value) :
    Act HostError (List Value) := do
  let v ← getGlobal run env site name
  let h ← Act.readHeap env fun h => h
  let f ← Act.ofExcept (Conversion.toFunction h v)
  call run env site (.function f) args

end ScenarioHost.Boundary
