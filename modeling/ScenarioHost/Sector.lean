import ScenarioHost.Binary.Single
import ScenarioHost.Decimal.Numeral

/-!
Sector names. The map is a grid of squares of 20000 units; a name is a row part and a column
number, and `F5` is the sector whose top left corner is the origin.
-/
namespace ScenarioHost

/-- A square of the grid; `F5` is row 5, column 5. -/
structure Sector where
  row : Int
  column : Int
deriving DecidableEq

namespace Sector

/-- Edge length of a sector in world units. -/
def edge : Int := 20000

/-- The highest row above `A` that two letters spell. -/
def minRow : Int := -676

/-- The lowest row below `Z` that two letters spell. -/
def maxRow : Int := 701

def letter (base : Char) (offset : Int) : Char := Char.ofNat (base.toNat + offset).toNat

def rowName (row : Int) : List Char :=
  if row < 0 then [letter 'z' (-((-row - 1) / 26)), letter 'z' (-((-row - 1) % 26))]
  else if row < 26 then [letter 'A' row]
  else [letter 'A' ((row - 26) / 26), letter 'A' ((row - 26) % 26)]

def name (s : Sector) : String := String.ofList (rowName s.row) ++ toString s.column

def corner (s : Sector) : Single × Single :=
  (Single.ofInt ((s.column - 5) * edge), Single.ofInt ((s.row - 5) * edge))

def index (v : Single) : Int := clamp64 ((v / Single.ofInt edge).floorInt64 + 5)

/-- The sector that contains a position; rows end at the outermost one that has a name. -/
def containing (x y : Single) : Sector := ⟨max minRow (min maxRow (index y)), index x⟩

def isLetter (c : Char) : Bool := ('a' ≤ c && c ≤ 'z') || ('A' ≤ c && c ≤ 'Z')

def isBlankAscii (c : Char) : Bool := c = ' ' || (9 ≤ c.toNat && c.toNat ≤ 13)

def accumulate : Int → List Char → Option Int
  | value, [] => some value
  | value, c :: rest =>
    let next := value * 10 + (c.toNat - 48 : Nat)
    if 0x80000000 < next then none else accumulate next rest

def leadingNumber? (text : List Char) : Option Int :=
  let (negative, rest) := splitSign (text.dropWhile isBlankAscii)
  let digits := rest.takeWhile isDigit
  if digits.isEmpty then none
  else
    match accumulate 0 digits with
    | none => none
    | some n =>
      let value := if negative then -n else n
      if value < 0x80000000 then some value else none

/-- The row that the beginning of a label spells and the text after it. Two letters count as a
row of two letters whose kind the first one decides. -/
def splitRow : List Char → Option (Int × List Char)
  | [] => none
  | [_] => none
  | a :: b :: rest =>
    if isLetter a && isLetter b then
      if 'a' ≤ a then
        some (-(((122 - a.toNat : Int) * 26) + (122 - (lowerAscii b).toNat : Int)) - 1, rest)
      else some (((a.toNat - 65 : Int) * 26) + ((upperAscii b).toNat - 65 : Int) + 26, rest)
    else some (((upperAscii a).toNat : Int) - 65, b :: rest)

def parse? (label : String) : Option Sector :=
  match splitRow label.toList with
  | none => none
  | some (row, rest) => (leadingNumber? rest).map fun column => ⟨row, column⟩

/-- The corner of the sector that a label names; the origin when it names none. -/
def position (label : String) : Single × Single :=
  match parse? label with
  | some s => s.corner
  | none => (.zero, .zero)

end Sector

end ScenarioHost
