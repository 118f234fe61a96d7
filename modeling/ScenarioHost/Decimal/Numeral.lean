import ScenarioHost.Decimal.Shortest
import ScenarioHost.Binary.Double

/-!
Written numbers: whole numbers with a sign, and decimals with point and exponent. A decimal is
rounded once, to the format it is read into.
-/
namespace ScenarioHost

def digitValue? (base : Nat) (c : Char) : Option Nat :=
  let v :=
    if '0' ≤ c ∧ c ≤ '9' then c.toNat - 48
    else if 'a' ≤ c ∧ c ≤ 'f' then c.toNat - 87
    else if 'A' ≤ c ∧ c ≤ 'F' then c.toNat - 55
    else base
  if v < base then some v else none

def isDigit (c : Char) : Bool := '0' ≤ c && c ≤ '9'

def digitsValue (base : Nat) (cs : List Char) : Nat :=
  cs.foldl (fun n c => n * base + (digitValue? base c).getD 0) 0

/-- Splits an optional sign off; true for a minus. -/
def splitSign : List Char → Bool × List Char
  | '-' :: rest => (true, rest)
  | '+' :: rest => (false, rest)
  | cs => (false, cs)

def lowerAscii (c : Char) : Char := if 'A' ≤ c ∧ c ≤ 'Z' then Char.ofNat (c.toNat + 32) else c

def upperAscii (c : Char) : Char := if 'a' ≤ c ∧ c ≤ 'z' then Char.ofNat (c.toNat - 32) else c

inductive Numeral where
  | nan
  | infinite (negative : Bool)
  | decimal (negative : Bool) (value : Decimal)
deriving DecidableEq

namespace Decimal

/-- A decimal as a ratio; magnitudes no format can tell from infinity or zero are cut. -/
def ratio (d : Decimal) : Nat × Nat :=
  let order := (decimalWidth d.digits : Int) + d.exponent
  if d.digits = 0 then (0, 1)
  else if 400 < order then (Nat.pow 10 400, 1)
  else if order < -400 then (1, Nat.pow 10 400)
  else (d.digits * Nat.pow 10 d.exponent.toNat, Nat.pow 10 (-d.exponent).toNat)

end Decimal

namespace Numeral

def toDouble : Numeral → Float
  | .nan => Double.ofReading .nan
  | .infinite negative => Double.ofReading (.infinite negative)
  | .decimal negative d => Double.ofRatio negative d.ratio.1 d.ratio.2

def toSingle : Numeral → Single
  | .nan => .nan
  | .infinite negative => .ofReading (.infinite negative)
  | .decimal negative d => .ofRatio negative d.ratio.1 d.ratio.2

/-- The exponent after the mark `e`; absent means zero. -/
def exponent? : List Char → Option Int
  | [] => some 0
  | c :: rest =>
    if c = 'e' ∨ c = 'E' then
      let (negative, digits) := splitSign rest
      if digits.isEmpty ∨ !digits.all isDigit then none
      else
        let n : Int := digitsValue 10 digits
        some (if negative then -n else n)
    else none

def magnitude? (cs : List Char) : Option Decimal :=
  let whole := cs.takeWhile isDigit
  let rest := cs.dropWhile isDigit
  let (fraction, rest) :=
    match rest with
    | '.' :: after => (after.takeWhile isDigit, after.dropWhile isDigit)
    | _ => ([], rest)
  if whole.isEmpty && fraction.isEmpty then none
  else (exponent? rest).map fun e => ⟨digitsValue 10 (whole ++ fraction), e - fraction.length⟩

def parse? (text : String) : Option Numeral :=
  let (negative, cs) := splitSign text.toList
  let word := String.ofList (cs.map lowerAscii)
  if word = "nan" then some .nan
  else if word = "inf" ∨ word = "infinity" then some (.infinite negative)
  else (magnitude? cs).map (.decimal negative)

end Numeral

inductive WholeError where
  | empty
  | invalid
  | tooLarge
  | tooSmall
deriving DecidableEq

def WholeError.message : WholeError → String
  | .empty => "cannot parse integer from empty string"
  | .invalid => "invalid digit found in string"
  | .tooLarge => "number too large to fit in target type"
  | .tooSmall => "number too small to fit in target type"

/-- Reads a whole number between bounds; a minus is a digit error where no negative is allowed. -/
def parseWhole (low high : Int) (text : String) : Except WholeError Int :=
  let (negative, digits) :=
    match text.toList with
    | '+' :: c :: rest => (false, c :: rest)
    | '-' :: c :: rest => if low < 0 then (true, c :: rest) else (false, '-' :: c :: rest)
    | cs => (false, cs)
  if digits.isEmpty then .error .empty
  else if !digits.all isDigit then .error .invalid
  else
    let n : Int := digitsValue 10 digits
    let v := if negative then -n else n
    if high < v then .error .tooLarge
    else if v < low then .error .tooSmall
    else .ok v

end ScenarioHost
