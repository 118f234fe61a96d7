import ScenarioHost.Lua.Value

/-!
Tables. The values of the keys 1, 2, … stand in a row; all other keys are listed in the order in
which they first came. A removed key keeps its place, so that a traversal may clear fields.
-/
namespace ScenarioHost.Lua

structure Table where
  items : Array Value
  entries : Array (Value × Value)
  metatable : Option TableId
deriving Inhabited

namespace Table

def empty : Table := ⟨#[], #[], none⟩

def place? (x : Float) : Option Nat :=
  let n := x.toUInt64
  if n ≠ 0 && n.toFloat == x then some (n.toNat - 1) else none

def entryIndex? (t : Table) (key : Value) : Option Nat :=
  t.entries.findIdx? fun e => e.1.same key

def entry (t : Table) (key : Value) : Value :=
  match t.entries.find? fun e => e.1.same key with
  | some e => e.2
  | none => .nil

def get (t : Table) (key : Value) : Value :=
  match key with
  | .number x =>
    match place? x with
    | some n => if h : n < t.items.size then t.items[n] else t.entry key
    | none => t.entry key
  | _ => t.entry key

def getItem (t : Table) (n : Nat) : Value := t.get (.ofNat n)

def setEntry (t : Table) (key value : Value) : Table :=
  match t.entryIndex? key with
  | some i => { t with entries := t.entries.modify i fun e => (e.1, value) }
  | none => if value.isNil then t else { t with entries := t.entries.push (key, value) }

/-- Moves the values of the keys right after the items, as far as there are any. A row that is
longer than numbers can tell places apart takes no more. -/
def absorb : Nat → Table → Table
  | 0, t => t
  | fuel + 1, t =>
    let x := Double.ofNat (t.items.size + 1)
    if place? x = some t.items.size then
      match t.entry (.number x) with
      | .nil => t
      | value => absorb fuel { t.setEntry (.number x) .nil with items := t.items.push value }
    else t

def set (t : Table) (key value : Value) : Table :=
  match key with
  | .number x =>
    match place? x with
    | some n =>
      if n < t.items.size then { t with items := t.items.setIfInBounds n value }
      else if n = t.items.size ∧ !value.isNil then
        let t := if t.entries.isEmpty then t else t.setEntry key .nil
        absorb t.entries.size { t with items := t.items.push value }
      else t.setEntry key value
    | none => t.setEntry key value
  | _ => t.setEntry key value

def boundary (t : Table) : (fuel low high : Nat) → Nat
  | 0, low, _ => low
  | fuel + 1, low, high =>
    if high - low ≤ 1 then low
    else
      let middle := (low + high) / 2
      if (t.items.getD (middle - 1) .nil).isNil then boundary t fuel low middle
      else boundary t fuel middle high

/-- A key `n` with a value such that `n + 1` has none. -/
def length (t : Table) : Nat :=
  let size := t.items.size
  if size ≠ 0 && (t.items.getD (size - 1) .nil).isNil then t.boundary size 0 size else size

def fieldFrom (t : Table) : (fuel place : Nat) → Option (Value × Value)
  | 0, _ => none
  | fuel + 1, place =>
    if place < t.items.size then
      match t.items.getD place .nil with
      | .nil => fieldFrom t fuel (place + 1)
      | value => some (.ofNat (place + 1), value)
    else
      match t.entries[place - t.items.size]? with
      | none => none
      | some (_, .nil) => fieldFrom t fuel (place + 1)
      | some e => some e

def fieldCount (t : Table) : Nat := t.items.size + t.entries.size

/-- The place right after a key; nil is before all fields. -/
def placeAfter? (t : Table) (key : Value) : Option Nat :=
  let entry := (t.entryIndex? key).map fun i => t.items.size + i + 1
  match key with
  | .nil => some 0
  | .number x =>
    match place? x with
    | some n => if n < t.items.size then some (n + 1) else entry
    | none => entry
  | _ => entry

/-- The field after a key; the outer `none` means that there is no such key. -/
def next? (t : Table) (key : Value) : Option (Option (Value × Value)) :=
  (t.placeAfter? key).map fun place => t.fieldFrom (t.fieldCount + 1) place

def fields (t : Table) : List (Value × Value) :=
  let items := (List.range t.items.size).map fun n => (Value.ofNat (n + 1), t.items.getD n .nil)
  (items ++ t.entries.toList).filter fun e => !e.2.isNil

end Table

end ScenarioHost.Lua
