import ScenarioHost.Text.Utf8
import ScenarioHost.Decimal.Numeral
import ScenarioHost.Decimal.Layout

/-!
Numbers of the script language as text. A numeral is decimal, hexadecimal or binary; strings that
are numerals count as numbers in arithmetic.
-/
namespace ScenarioHost.Lua

def isSpace (c : Char) : Bool := c = ' ' || (9 ≤ c.toNat && c.toNat ≤ 13)

namespace Numeral

def dropWord? (word : String) (cs : List Char) : Option (List Char) :=
  let w := word.toList
  if (cs.take w.length).map lowerAscii = w then some (cs.drop w.length) else none

def special? (negative : Bool) (cs : List Char) : Option Float :=
  let ended (x : Float) (rest : List Char) := if rest.all isSpace then some x else none
  match dropWord? "infinity" cs with
  | some rest => ended (Double.ofReading (.infinite negative)) rest
  | none =>
    match dropWord? "inf" cs with
    | some rest => ended (Double.ofReading (.infinite negative)) rest
    | none => (dropWord? "nan" cs).bind (ended (Double.ofReading .nan))

def splitDigits (base : Nat) (cs : List Char) : List Char × List Char × Bool × List Char :=
  let digit (c : Char) := (digitValue? base c).isSome
  let whole := cs.takeWhile digit
  match cs.dropWhile digit with
  | '.' :: rest => (whole, rest.takeWhile digit, true, rest.dropWhile digit)
  | rest => (whole, [], false, rest)

/-- An exponent with its mark, if there is one; exponents of a million or so are refused. -/
def splitExponent? (mark : Char) (cs : List Char) : Option (Int × List Char) :=
  match cs with
  | c :: rest =>
    if lowerAscii c = mark then
      let (negative, rest) := splitSign rest
      let digits := rest.takeWhile isDigit
      let n := digitsValue 10 digits
      if digits.isEmpty ∨ 0x100000 ≤ n then none
      else some (if negative then -(n : Int) else n, rest.dropWhile isDigit)
    else some (0, cs)
  | [] => some (0, [])

def decimal? (negative : Bool) (cs : List Char) : Option Float :=
  let (whole, fraction, _, rest) := splitDigits 10 cs
  if whole.isEmpty && fraction.isEmpty then none
  else
    match splitExponent? 'e' rest with
    | some (e, rest) =>
      if rest.all isSpace then
        some (ScenarioHost.Numeral.decimal negative
          ⟨digitsValue 10 (whole ++ fraction), e - fraction.length⟩).toDouble
      else none
    | none => none

def hexadecimal? (negative : Bool) (cs : List Char) : Option Float :=
  let (whole, fraction, _, rest) := splitDigits 16 cs
  if whole.isEmpty && fraction.isEmpty then none
  else
    match splitExponent? 'p' rest with
    | some (e, rest) =>
      if rest.all isSpace then
        let e := max (-4000) (min 4000 (e - 4 * fraction.length))
        let n := digitsValue 16 (whole ++ fraction)
        some (Double.ofRatio negative (n * Nat.pow 2 e.toNat) (Nat.pow 2 (-e).toNat))
      else none
    | none => none

def binary? (negative : Bool) (cs : List Char) : Option Float :=
  let digits := cs.takeWhile isDigit
  if digits.isEmpty || !digits.all (fun c => c = '0' || c = '1') then none
  else if (cs.dropWhile isDigit).all isSpace then
    some (Double.ofRatio negative (digitsValue 2 digits) 1)
  else none

def scan? (text : List Char) : Option Float :=
  let (negative, cs) :=
    match text with
    | c :: _ => if isDigit c then (false, text) else splitSign (text.dropWhile isSpace)
    | [] => (false, [])
  match cs with
  | '0' :: 'x' :: rest | '0' :: 'X' :: rest => hexadecimal? negative rest
  | '0' :: 'b' :: rest | '0' :: 'B' :: rest => binary? negative rest
  | c :: _ => if 'A' ≤ c then special? negative cs else decimal? negative cs
  | [] => none

end Numeral

def numberOfString? (s : ByteString) : Option Float := Numeral.scan? s.toList

def stringOfNumber (x : Float) : ByteString := ⟨generalText x⟩

end ScenarioHost.Lua
