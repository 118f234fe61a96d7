/-!
Entities. An entity is a row of a table and the generation of that row; the row of an entity that
is gone is given out again with the next generation. An id packs both into 64 bits.
-/
namespace ScenarioHost

structure EntityRow where
  generation : Nat
  live : Bool
deriving DecidableEq

structure Entities where
  rows : Array EntityRow
  /-- Rows to give out again, the one freed last first. -/
  free : List Nat

namespace Entities

def empty : Entities := ⟨#[], []⟩

instance : Inhabited Entities := ⟨empty⟩

def pack (row generation : Nat) : Nat := generation * 0x100000000 + (0xFFFFFFFF - row)

def rowOf (id : Nat) : Nat := 0xFFFFFFFF - id % 0x100000000

def generationOf (id : Nat) : Nat := id / 0x100000000

def create (e : Entities) : Nat × Entities :=
  match e.free with
  | row :: free =>
    let generation := ((e.rows[row]?).map EntityRow.generation).getD 0
    (pack row generation, ⟨e.rows.setIfInBounds row ⟨generation, true⟩, free⟩)
  | [] => (pack e.rows.size 0, ⟨e.rows.push ⟨0, true⟩, []⟩)

def contains (e : Entities) (id : Nat) : Bool :=
  id % 0x100000000 != 0 &&
    match e.rows[rowOf id]? with
    | some r => r.live && r.generation == generationOf id
    | none => false

def despawn (e : Entities) (id : Nat) : Bool × Entities :=
  if e.contains id then
    let row := rowOf id
    (true, ⟨e.rows.setIfInBounds row ⟨(generationOf id + 1) % 0x100000000, false⟩, row :: e.free⟩)
  else (false, e)

def size (e : Entities) : Nat := (e.rows.toList.filter EntityRow.live).length

end Entities

end ScenarioHost
