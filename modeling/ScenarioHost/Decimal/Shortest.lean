import ScenarioHost.Binary.Format

/-!
Decimal digits of exact ratios: the fewest that identify a binary number, a fixed number of
significant ones, and a fixed number of places. All choices are made in exact arithmetic.
-/
namespace ScenarioHost

structure Decimal where
  digits : Nat
  exponent : Int
deriving DecidableEq

inductive Tie where
  | up
  | even
deriving DecidableEq

def decimalWidth (n : Nat) : Nat := (Nat.toDigits 10 n).length

/-- The largest `e` with `10 ^ e ≤ num / den`, for positive arguments. -/
def floorLog10 (num den : Nat) : Int :=
  let e : Int := (decimalWidth num : Int) - (decimalWidth den : Int)
  if den * Nat.pow 10 e.toNat ≤ num * Nat.pow 10 (-e).toNat then e else e - 1

def nearest (tie : Tie) (num den : Nat) : Nat :=
  match tie with
  | .up => nearestUp num den
  | .even => nearestEven num den

namespace Decimal

def zero : Decimal := ⟨0, 0⟩

def stripZeros : Nat → Decimal → Decimal
  | 0, d => d
  | fuel + 1, d =>
    if d.digits ≠ 0 ∧ d.digits % 10 = 0 then stripZeros fuel ⟨d.digits / 10, d.exponent + 1⟩ else d

def normalized (d : Decimal) : Decimal :=
  if d.digits = 0 then zero else stripZeros (decimalWidth d.digits) d

def onGrid (tie : Tie) (num den : Nat) (e : Int) : Decimal :=
  ⟨nearest tie (num * Nat.pow 10 (-e).toNat) (den * Nat.pow 10 e.toNat), e⟩

def significant (tie : Tie) (count num den : Nat) : Decimal :=
  let d := onGrid tie num den (floorLog10 num den - (count - 1 : Nat))
  if d.digits = Nat.pow 10 count then ⟨d.digits / 10, d.exponent + 1⟩ else d

end Decimal

/-- The reals that round to one binary number, over a common denominator; `closed` tells whether
the ends belong to them. -/
structure Interval where
  low : Nat
  value : Nat
  high : Nat
  den : Nat
  closed : Bool

namespace Interval

def ofFinite (f : Format) (m : Nat) (q : Int) : Interval :=
  let scale := Nat.pow 2 q.toNat
  let below := if m = Nat.pow 2 f.significandBits ∧ f.least < q then 1 else 2
  ⟨(4 * m - below) * scale, 4 * m * scale, (4 * m + 2) * scale, 4 * Nat.pow 2 (-q).toNat, m % 2 = 0⟩

def holds (i : Interval) (d : Decimal) : Bool :=
  let num := d.digits * Nat.pow 10 d.exponent.toNat * i.den
  let scale := Nat.pow 10 (-d.exponent).toNat
  if i.closed then i.low * scale ≤ num && num ≤ i.high * scale
  else i.low * scale < num && num < i.high * scale

/-- The decimal on the grid of multiples of `10 ^ e` that lies in the interval nearest to the
value, if one of the value's two neighbours does. -/
def hit? (i : Interval) (tie : Tie) (e : Int) : Option Decimal :=
  let best := Decimal.onGrid tie i.value i.den e
  let floor : Decimal := ⟨i.value * Nat.pow 10 (-e).toNat / (i.den * Nat.pow 10 e.toNat), e⟩
  [best, floor, ⟨floor.digits + 1, e⟩].find? i.holds

def firstHit (i : Interval) (tie : Tie) : Nat → Int → Option Decimal
  | 0, _ => none
  | fuel + 1, e =>
    match i.hit? tie e with
    | some d => some d
    | none => i.firstHit tie fuel (e - 1)

end Interval

/-- The decimal with the fewest digits that rounds to `m * 2 ^ q`, and of those the nearest. -/
def shortestDecimal (f : Format) (tie : Tie) (m : Nat) (q : Int) : Decimal :=
  if m = 0 then .zero
  else
    let i := Interval.ofFinite f m q
    match i.firstHit tie 20 (floorLog10 i.value i.den + 1) with
    | some d => d.normalized
    | none => .zero

end ScenarioHost
