import ScenarioHost.Text.Utf8
import ScenarioHost.Lua.Numeral

/-!
Values of the script language. Tables, functions and userdata are references into the heap of the
environment they belong to.
-/
namespace ScenarioHost

/-- An environment: an interpreter with its own globals. -/
structure EnvironmentId where
  index : Nat
deriving DecidableEq, Inhabited

namespace Lua

structure TableId where
  index : Nat
deriving DecidableEq, Inhabited

structure FunctionId where
  index : Nat
deriving DecidableEq, Inhabited

structure UserdataId where
  index : Nat
deriving DecidableEq, Inhabited

structure CellId where
  index : Nat
deriving DecidableEq, Inhabited

inductive Value where
  | nil
  | boolean (b : Bool)
  | number (x : Float)
  | string (s : ByteString)
  | table (t : TableId)
  | function (f : FunctionId)
  | userdata (u : UserdataId)
deriving Inhabited

namespace Value

def text (s : String) : Value := .string ⟨s⟩

def ofNat (n : Nat) : Value := .number (Double.ofNat n)

/-- Equality without metamethods; a NaN differs from itself. -/
def same : Value → Value → Bool
  | .nil, .nil => true
  | .boolean a, .boolean b => a == b
  | .number x, .number y => x == y
  | .string s, .string t => decide (s = t)
  | .table a, .table b => decide (a = b)
  | .function a, .function b => decide (a = b)
  | .userdata a, .userdata b => decide (a = b)
  | _, _ => false

def isNil : Value → Bool
  | .nil => true
  | _ => false

def truthy : Value → Bool
  | .nil => false
  | .boolean b => b
  | _ => true

def typeName : Value → String
  | .nil => "nil"
  | .boolean _ => "boolean"
  | .number _ => "number"
  | .string _ => "string"
  | .table _ => "table"
  | .function _ => "function"
  | .userdata _ => "userdata"

def toNumber? : Value → Option Float
  | .number x => some x
  | .string s => numberOfString? s
  | _ => none

def toString? : Value → Option ByteString
  | .string s => some s
  | .number x => some (stringOfNumber x)
  | _ => none

def first : List Value → Value
  | [] => .nil
  | v :: _ => v

/-- An argument by its place, counted from zero; missing ones are nil. -/
def arg (args : List Value) (n : Nat) : Value := args.getD n .nil

end Value

end Lua

end ScenarioHost
