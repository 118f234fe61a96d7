import ScenarioHost.Binary.Format

/-!
Single precision numbers. Each operation is the exact result rounded once, ties to even.
-/
namespace ScenarioHost

/-- A number of single precision, kept as its bit pattern. -/
structure Single where
  bits : UInt32
deriving DecidableEq

namespace Single

def reading (x : Single) : Reading := Format.single.read x.bits.toNat

def ofReading (r : Reading) : Single := ⟨UInt32.ofNat (Format.single.write r)⟩

def ofRatio (negative : Bool) (num den : Nat) : Single :=
  ⟨UInt32.ofNat (Format.single.signed negative (Format.single.roundRatio num den))⟩

def ofInt (i : Int) : Single := ofRatio (decide (i < 0)) i.natAbs 1

def zero : Single := ⟨0⟩

def nan : Single := ofReading .nan

instance : Inhabited Single := ⟨zero⟩

def isNan (x : Single) : Bool := x.reading.isNan

/-- Sum of two finite values; an exact zero is negative only if both terms are. -/
def addFinite (a : Bool) (m : Nat) (p : Int) (b : Bool) (n : Nat) (q : Int) : Single :=
  let r := min p q
  let sum :=
    Reading.scaled a m * Nat.pow 2 (p - r).toNat + Reading.scaled b n * Nat.pow 2 (q - r).toNat
  if sum = 0 then ofRatio (a && b) 0 1
  else ofReading (.finite (decide (sum < 0)) sum.natAbs r)

def add (x y : Single) : Single :=
  match x.reading, y.reading with
  | .nan, _ | _, .nan => nan
  | .infinite a, .infinite b => if a == b then ofReading (.infinite a) else nan
  | .infinite a, .finite .. => ofReading (.infinite a)
  | .finite .., .infinite b => ofReading (.infinite b)
  | .finite a m p, .finite b n q => addFinite a m p b n q

def neg (x : Single) : Single :=
  match x.reading with
  | .nan => nan
  | .infinite a => ofReading (.infinite !a)
  | .finite a m q => ofReading (.finite (!a) m q)

def sub (x y : Single) : Single := x.add y.neg

def mul (x y : Single) : Single :=
  match x.reading, y.reading with
  | .nan, _ | _, .nan => nan
  | .infinite a, .infinite b => ofReading (.infinite (a != b))
  | .infinite a, .finite b n _ => if n = 0 then nan else ofReading (.infinite (a != b))
  | .finite a m _, .infinite b => if m = 0 then nan else ofReading (.infinite (a != b))
  | .finite a m p, .finite b n q => ofReading (.finite (a != b) (m * n) (p + q))

def div (x y : Single) : Single :=
  match x.reading, y.reading with
  | .nan, _ | _, .nan => nan
  | .infinite _, .infinite _ => nan
  | .infinite a, .finite b _ _ => ofReading (.infinite (a != b))
  | .finite a _ _, .infinite b => ofRatio (a != b) 0 1
  | .finite a m p, .finite b n q =>
    if n = 0 then (if m = 0 then nan else ofReading (.infinite (a != b)))
    else ofRatio (a != b) (m * Nat.pow 2 (p - q).toNat) (n * Nat.pow 2 (q - p).toNat)

instance : Add Single := ⟨add⟩
instance : Sub Single := ⟨sub⟩
instance : Mul Single := ⟨mul⟩
instance : Div Single := ⟨div⟩
instance : Neg Single := ⟨neg⟩

def less (x y : Single) : Bool := x.reading.less y.reading

/-- `x ≤ 0` as numbers; a NaN is not. -/
def nonpositive (x : Single) : Bool := !x.isNan && !zero.less x

def floorInt64 (x : Single) : Int :=
  match x.reading with
  | .nan => 0
  | .infinite negative => if negative then -0x8000000000000000 else 0x7FFFFFFFFFFFFFFF
  | r => clamp64 (r.floor?.getD 0)

end Single

end ScenarioHost
