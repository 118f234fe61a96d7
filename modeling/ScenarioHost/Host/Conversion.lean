import ScenarioHost.Lua.Task

/-!
Values of scripts as arguments of host functions: what they count as, and the errors about those
that do not fit.
-/
namespace ScenarioHost.Conversion

open Lua (Value Heap FunctionId TableId UserdataId)

def payload? (h : Heap) : Value → Option Lua.Payload
  | .userdata u => (h.userdata? u).map (·.payload)
  | _ => none

def hostError? (h : Heap) (v : Value) : Option HostError :=
  match payload? h v with
  | some (.error e) => some e
  | _ => none

/-- The kind of a value in messages; whole numbers of 64 bits are a kind of their own. -/
def kindName (h : Heap) (v : Value) : String :=
  match v with
  | .number x => if (Double.toInt64? x).isSome then "integer" else "number"
  | .userdata _ => if (hostError? h v).isSome then "error" else "userdata"
  | _ => v.typeName

def mismatch {α : Type} (h : Heap) (v : Value) (target : String) (reason : Option String) :
    Except HostError α :=
  .error (.conversion (kindName h v) target reason)

/-- A text; numbers count as the text they are written as. -/
def toText (h : Heap) (v : Value) : Except HostError String :=
  match v.toString? with
  | none => mismatch h v "String" (some "expected string or number")
  | some bytes =>
    match bytes.toText? with
    | .ok text => .ok text
    | .error e => mismatch h v "String" (some e.message)

def toOptional {α : Type} (convert : Value → Except HostError α) (v : Value) :
    Except HostError (Option α) :=
  if v.isNil then .ok none else (convert v).map some

def notNumber : String := "expected number or string coercible to number"

def toDouble (h : Heap) (v : Value) : Except HostError Float :=
  match v.toNumber? with
  | some x => .ok x
  | none => mismatch h v "f64" (some notNumber)

def toSingle (h : Heap) (v : Value) : Except HostError Single :=
  match v.toNumber? with
  | some x => .ok (.ofDouble x)
  | none => mismatch h v "f32" (some notNumber)

/-- A natural number of 64 bits; fractions are cut off. -/
def toNatural (h : Heap) (target : String) (v : Value) : Except HostError Nat :=
  match v.toNumber? with
  | none => mismatch h v target (some notNumber)
  | some x =>
    match Double.toNatBelow? 0x10000000000000000 x with
    | some n => .ok n
    | none => mismatch h v target (some "out of range")

def toIndex (h : Heap) : Value → Except HostError Nat := toNatural h "usize"

def toEntity (h : Heap) : Value → Except HostError Nat := toNatural h "u64"

def toFunction (h : Heap) (v : Value) : Except HostError FunctionId :=
  match v with
  | .function f => .ok f
  | _ => mismatch h v "function" none

def toTable (h : Heap) (v : Value) : Except HostError TableId :=
  match v with
  | .table t => .ok t
  | _ => mismatch h v "table" none

def toCallback (env : EnvironmentId) (h : Heap) (v : Value) : Except HostError Callback :=
  (toFunction h v).map fun f => ⟨env, f⟩

/-- Converts an argument, counted from one; missing ones are nil. -/
def argument {α : Type} (convert : Heap → Value → Except HostError α) (env : EnvironmentId)
    (args : List Value) (n : Nat) : Act HostError α := do
  let h ← Act.readHeap env fun h => h
  Act.ofExcept ((convert h (Value.arg args (n - 1))).mapError (.badArgument none (.position n)))

def optional {α : Type} (convert : Heap → Value → Except HostError α) (env : EnvironmentId)
    (args : List Value) (n : Nat) : Act HostError (Option α) :=
  argument (fun h => toOptional (convert h)) env args n

def ofText (s : String) : Value := .string (.ofText s)

def ofSingle (x : Single) : Value := .number x.toDouble

def ofEntity (id : Nat) : Value := .ofNat id

end ScenarioHost.Conversion
