import ScenarioHost.Binary.Single

/-!
Double precision numbers seen through their bit patterns, and their conversions.
-/
namespace ScenarioHost

namespace Double

def reading (x : Float) : Reading := Format.double.read x.toBits.toNat

def ofReading (r : Reading) : Float := Float.ofBits (UInt64.ofNat (Format.double.write r))

def ofRatio (negative : Bool) (num den : Nat) : Float :=
  Float.ofBits (UInt64.ofNat (Format.double.signed negative (Format.double.roundRatio num den)))

def ofInt (i : Int) : Float := ofRatio (decide (i < 0)) i.natAbs 1

def ofNat (n : Nat) : Float := ofRatio false n 1

def toInt? (x : Float) : Option Int :=
  match reading x with
  | .finite negative m q =>
    if m = 0 then (if negative then none else some 0)
    else
      let (num, den) := Reading.ratio m q
      if num % den = 0 then some (Reading.scaled negative (num / den)) else none
  | _ => none

def toInt64? (x : Float) : Option Int :=
  (toInt? x).filter fun i => decide (-0x8000000000000000 ≤ i) && decide (i < 0x8000000000000000)

def truncateInt64 (x : Float) : Int :=
  match reading x with
  | .nan => 0
  | .infinite negative => if negative then -0x8000000000000000 else 0x7FFFFFFFFFFFFFFF
  | r => clamp64 (r.truncate?.getD 0)

def toNatBelow? (bound : Nat) (x : Float) : Option Nat :=
  match (reading x).truncate? with
  | some i => if 0 ≤ i ∧ i < bound then some i.toNat else none
  | none => none

end Double

namespace Single

def toDouble (x : Single) : Float := Double.ofReading x.reading

def ofDouble (x : Float) : Single := ofReading (Double.reading x)

end Single

end ScenarioHost
