/-!
Binary interchange formats. A code is the bit pattern of a magnitude read as a number; codes grow
with the magnitudes they stand for, so rounding an exact ratio is one division and one sum.
-/
namespace ScenarioHost

structure Format where
  significandBits : Nat
  exponentBits : Nat
deriving DecidableEq

/-- What a bit pattern stands for; a finite value is `m * 2 ^ q`. -/
inductive Reading where
  | nan
  | infinite (negative : Bool)
  | finite (negative : Bool) (m : Nat) (q : Int)
deriving DecidableEq

def nearestEven (num den : Nat) : Nat :=
  let quotient := num / den
  let twice := 2 * (num % den)
  if twice < den then quotient
  else if den < twice then quotient + 1
  else quotient + quotient % 2

def nearestUp (num den : Nat) : Nat := (2 * num + den) / (2 * den)

/-- The largest `e` with `2 ^ e ≤ num / den`, for positive arguments. -/
def floorLog2 (num den : Nat) : Int :=
  let e : Int := (num.log2 : Int) - (den.log2 : Int)
  if den * Nat.pow 2 e.toNat ≤ num * Nat.pow 2 (-e).toNat then e else e - 1

def clamp64 (n : Int) : Int := max (-0x8000000000000000) (min 0x7FFFFFFFFFFFFFFF n)

namespace Format

def single : Format := ⟨23, 8⟩

def double : Format := ⟨52, 11⟩

def least (f : Format) : Int :=
  2 - (Nat.pow 2 (f.exponentBits - 1) : Nat) - (f.significandBits : Int)

def infinity (f : Format) : Nat := (Nat.pow 2 f.exponentBits - 1) * Nat.pow 2 f.significandBits

def signBit (f : Format) : Nat := Nat.pow 2 (f.exponentBits + f.significandBits)

/-- Exponent of the last significand bit kept for a magnitude of binary order `e`. -/
def lastBit (f : Format) (e : Int) : Int := max (e - f.significandBits) f.least

def roundRatio (f : Format) (num den : Nat) : Nat :=
  if num = 0 then 0
  else
    let q := f.lastBit (floorLog2 num den)
    let m := nearestEven (num * Nat.pow 2 (-q).toNat) (den * Nat.pow 2 q.toNat)
    min f.infinity ((q - f.least).toNat * Nat.pow 2 f.significandBits + m)

def signed (f : Format) (negative : Bool) (code : Nat) : Nat :=
  if negative then f.signBit + code else code

def read (f : Format) (pattern : Nat) : Reading :=
  let negative := pattern / f.signBit % 2 == 1
  let exponent := pattern / Nat.pow 2 f.significandBits % Nat.pow 2 f.exponentBits
  let fraction := pattern % Nat.pow 2 f.significandBits
  if exponent = Nat.pow 2 f.exponentBits - 1 then
    if fraction = 0 then .infinite negative else .nan
  else if exponent = 0 then .finite negative fraction f.least
  else .finite negative (Nat.pow 2 f.significandBits + fraction) (f.least + (exponent - 1 : Nat))

def write (f : Format) : Reading → Nat
  | .nan => f.infinity + Nat.pow 2 (f.significandBits - 1)
  | .infinite negative => f.signed negative f.infinity
  | .finite negative m q =>
    f.signed negative (f.roundRatio (m * Nat.pow 2 q.toNat) (Nat.pow 2 (-q).toNat))

end Format

namespace Reading

def scaled (negative : Bool) (m : Nat) : Int := if negative then -(m : Int) else m

def isNan : Reading → Bool
  | .nan => true
  | _ => false

/-- Order of the values; no NaN compares with anything. -/
def less : Reading → Reading → Bool
  | .nan, _ => false
  | _, .nan => false
  | .infinite a, .infinite b => a && !b
  | .infinite a, .finite .. => a
  | .finite .., .infinite b => !b
  | .finite a m p, .finite b n q =>
    let r := min p q
    decide (scaled a m * Nat.pow 2 (p - r).toNat < scaled b n * Nat.pow 2 (q - r).toNat)

/-- The greatest integer not above the value; `none` for NaN and the infinities. -/
def floor? : Reading → Option Int
  | .finite negative m q =>
    some ((scaled negative m * Nat.pow 2 q.toNat).fdiv (Nat.pow 2 (-q).toNat : Nat))
  | _ => none

/-- The integer part of the value; `none` for NaN and the infinities. -/
def truncate? : Reading → Option Int
  | .finite negative m q => some (scaled negative (m * Nat.pow 2 q.toNat / Nat.pow 2 (-q).toNat))
  | _ => none

def ratio (m : Nat) (q : Int) : Nat × Nat := (m * Nat.pow 2 q.toNat, Nat.pow 2 (-q).toNat)

end Reading

end ScenarioHost
