import ScenarioHost.Failure
import ScenarioHost.Lua.Table
import ScenarioHost.Lua.Syntax
import ScenarioHost.Lua.Builtin

/-!
Heaps. A heap holds the tables, functions, userdata and shared variables of one environment.
-/
namespace ScenarioHost.Lua

abbrev Variables := List (ByteString × CellId)

structure MatchCursor where
  source : ByteString
  pattern : ByteString
  position : CellId

inductive Function where
  | closure (body : FunctionBody) (chunk : ByteString) (globals : TableId) (captured : Variables)
  | builtin (b : Builtin)
  | matches (cursor : MatchCursor)

inductive Payload where
  | blank
  | script (environment : EnvironmentId)
  | error (e : HostError)
deriving DecidableEq

structure Userdata where
  payload : Payload
  metatable : Option TableId

structure Heap where
  tables : Array Table
  functions : Array Function
  userdata : Array Userdata
  cells : Array Value
  /-- The metatables of strings, of handles to sub-scripts and of host errors. -/
  stringMeta : Option TableId
  scriptMeta : Option TableId
  errorMeta : Option TableId
deriving Inhabited

namespace Heap

def empty : Heap := ⟨#[], #[], #[], #[], none, none, none⟩

def table (h : Heap) (t : TableId) : Table := h.tables.getD t.index .empty

def function? (h : Heap) (f : FunctionId) : Option Function := h.functions[f.index]?

def userdata? (h : Heap) (u : UserdataId) : Option Userdata := h.userdata[u.index]?

def cell (h : Heap) (c : CellId) : Value := h.cells.getD c.index .nil

def rawGet (h : Heap) (t : TableId) (key : Value) : Value := (h.table t).get key

def rawSet (h : Heap) (t : TableId) (key value : Value) : Heap :=
  { h with tables := h.tables.modify t.index fun table => table.set key value }

def setCell (h : Heap) (c : CellId) (value : Value) : Heap :=
  { h with cells := h.cells.setIfInBounds c.index value }

def setMetatable (h : Heap) (t : TableId) (metatable : Option TableId) : Heap :=
  { h with tables := h.tables.modify t.index fun table => { table with metatable := metatable } }

def nextTable (h : Heap) : TableId := ⟨h.tables.size⟩

def nextFunction (h : Heap) : FunctionId := ⟨h.functions.size⟩

def nextUserdata (h : Heap) : UserdataId := ⟨h.userdata.size⟩

def nextCell (h : Heap) : CellId := ⟨h.cells.size⟩

def addTable (h : Heap) (t : Table) : Heap := { h with tables := h.tables.push t }

def addFunction (h : Heap) (f : Function) : Heap := { h with functions := h.functions.push f }

def addUserdata (h : Heap) (u : Userdata) : Heap := { h with userdata := h.userdata.push u }

def addCell (h : Heap) (v : Value) : Heap := { h with cells := h.cells.push v }

def metatable? (h : Heap) : Value → Option TableId
  | .table t => (h.table t).metatable
  | .string _ => h.stringMeta
  | .userdata u => (h.userdata? u).bind Userdata.metatable
  | _ => none

/-- The handler of an event in the metatable of a value; nil when there is none. -/
def handler (h : Heap) (v : Value) (event : String) : Value :=
  match h.metatable? v with
  | some m => h.rawGet m (.text event)
  | none => .nil

def isCallable (h : Heap) (v : Value) : Bool :=
  match v with
  | .function _ => true
  | _ =>
    match h.handler v "__call" with
    | .function _ => true
    | _ => false

def hexText (n : Nat) : String := String.ofList (Nat.toDigits 16 n)

def addressText : Value → String
  | .table t => "0x" ++ hexText (0x40000000 + 64 * t.index)
  | .function f => "0x" ++ hexText (0x50000000 + 64 * f.index)
  | .userdata u => "0x" ++ hexText (0x60000000 + 64 * u.index)
  | _ => "0x" ++ hexText 0x70000000

def referenceText (v : Value) : ByteString := ⟨v.typeName ++ ": " ++ addressText v⟩

def plainText (h : Heap) (v : Value) : ByteString :=
  match v with
  | .nil => ⟨"nil"⟩
  | .boolean b => ⟨toString b⟩
  | .number x => stringOfNumber x
  | .string s => s
  | .function f =>
    match h.function? f with
    | some (.builtin (.base b)) => ⟨"function: builtin#" ++ toString b.number⟩
    | _ => referenceText v
  | _ => referenceText v

end Heap

end ScenarioHost.Lua
