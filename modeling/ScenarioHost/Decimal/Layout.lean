import ScenarioHost.Decimal.Shortest
import ScenarioHost.Binary.Double

/-!
Layouts of decimal numbers: positional without limit, positional up to a width with an exponent
beyond it, and the conversions `e`, `f` and `g` with a given precision.
-/
namespace ScenarioHost

namespace Layout

def zeros (n : Nat) : String := String.ofList (List.replicate n '0')

def minus (negative : Bool) : String := if negative then "-" else ""

def positional (d : Decimal) : String :=
  let text := toString d.digits
  if d.exponent ≥ 0 then text ++ (if d.digits = 0 then "" else zeros d.exponent.toNat)
  else
    let places := (-d.exponent).toNat
    if text.length ≤ places then "0." ++ zeros (places - text.length) ++ text
    else
      let cs := text.toList
      let whole := cs.length - places
      String.ofList (cs.take whole) ++ "." ++ String.ofList (cs.drop whole)

def pointed (digits : List Char) : String :=
  match digits with
  | [] => "0"
  | [c] => String.ofList [c]
  | c :: rest => String.ofList (c :: '.' :: rest)

end Layout

structure PlainText where
  nan : String
  infinity : String
  tie : Tie

def PlainText.render (p : PlainText) (f : Format) : Reading → String
  | .nan => p.nan
  | .infinite negative => Layout.minus negative ++ p.infinity
  | .finite negative m q => Layout.minus negative ++ Layout.positional (shortestDecimal f p.tie m q)

def plainText : PlainText := ⟨"NaN", "inf", .up⟩

def Single.toPlain (x : Single) : String := plainText.render .single x.reading

def plainDouble (x : Float) : String := plainText.render .double (Double.reading x)

/-- Bounds between which a report writes a number positionally: the decimal point stands at most
`right` places after the first digit and more than `left` places before it. -/
structure ReportText where
  left : Int
  right : Int

/-- A number in a report: always with a point or an exponent; `none` when it is not finite. -/
def ReportText.render (p : ReportText) (f : Format) : Reading → Option String
  | .finite negative m q =>
    let d := shortestDecimal f .even m q
    let digits := (toString d.digits).toList
    let point : Int := digits.length + d.exponent
    let body :=
      if d.digits = 0 then "0.0"
      else if 0 ≤ d.exponent ∧ point ≤ p.right then Layout.positional d ++ ".0"
      else if p.left < point ∧ point ≤ p.right then Layout.positional d
      else Layout.pointed digits ++ "e" ++ toString (point - 1)
    some (Layout.minus negative ++ body)
  | _ => none

def reportText : ReportText := ⟨-6, 13⟩

def Single.toReport? (x : Single) : Option String := reportText.render .single x.reading

structure NumberStyle where
  precision : Nat := 6
  alternate : Bool := false
deriving Inhabited

namespace NumberStyle

def exponentText (e : Int) : String :=
  let digits := toString e.natAbs
  "e" ++ (if e < 0 then "-" else "+") ++ (if digits.length < 2 then "0" else "") ++ digits

def padded (width n : Nat) : String :=
  let digits := toString n
  Layout.zeros (width - digits.length) ++ digits

def fixedBody (s : NumberStyle) (num den : Nat) : String :=
  let n := nearestUp (num * Nat.pow 10 s.precision) den
  let cs := (padded (s.precision + 1) n).toList
  let whole := String.ofList (cs.take (cs.length - s.precision))
  if s.precision = 0 then whole ++ (if s.alternate then "." else "")
  else whole ++ "." ++ String.ofList (cs.drop (cs.length - s.precision))

def scaled (count num den : Nat) : List Char × Int :=
  if num = 0 then (List.replicate count '0', 0)
  else
    let d := Decimal.significant .up count num den
    let digits := (toString d.digits).toList
    (digits, d.exponent + (digits.length - 1 : Nat))

def exponentBody (s : NumberStyle) (num den : Nat) : String :=
  let (digits, e) := scaled (s.precision + 1) num den
  Layout.pointed digits ++ (if s.alternate && s.precision == 0 then "." else "") ++ exponentText e

def dropZeros (digits : List Char) : List Char :=
  (digits.reverse.dropWhile (· == '0')).reverse

def generalBody (s : NumberStyle) (num den : Nat) : String :=
  let count := max s.precision 1
  let (digits, e) := scaled count num den
  let kept := if s.alternate then digits else dropZeros digits
  if e < -4 ∨ (count : Int) ≤ e then
    Layout.pointed (if kept.isEmpty then ['0'] else kept) ++ exponentText e
  else if e < 0 then "0." ++ Layout.zeros (-e - 1).toNat ++ String.ofList kept
  else
    let whole := digits.take (e.toNat + 1)
    let fraction := kept.drop (e.toNat + 1)
    String.ofList whole ++ (if fraction.isEmpty then "" else "." ++ String.ofList fraction)

def body (s : NumberStyle) (conversion : Char) : Reading → String
  | .nan => "nan"
  | .infinite _ => "inf"
  | .finite _ m q =>
    let (num, den) := Reading.ratio m q
    match conversion with
    | 'e' => s.exponentBody num den
    | 'f' => s.fixedBody num den
    | _ => s.generalBody num den

end NumberStyle

/-- Whether a number is written with a minus sign; a NaN never is. -/
def Reading.isNegative : Reading → Bool
  | .nan => false
  | .infinite negative => negative
  | .finite negative _ _ => negative

def generalText (x : Float) : String :=
  let r := Double.reading x
  Layout.minus r.isNegative ++ NumberStyle.body ⟨14, false⟩ 'g' r

end ScenarioHost
