import ScenarioHost.Text.Utf8
import ScenarioHost.Decimal.Numeral
import ScenarioHost.Decimal.Layout

/-!
Templates of formatted text: literal pieces and conversions with flags, width and precision, and
the text that a conversion makes of a number or a string.
-/
namespace ScenarioHost.Lua.Template

structure Options where
  left : Bool
  plus : Bool
  zero : Bool
  space : Bool
  alternate : Bool
  upper : Bool
  width : Nat
  precision : Option Nat
deriving Inhabited

inductive Piece where
  | literal (text : List Char)
  | conversion (letter : Char) (options : Options)
  | malformed (text : List Char)

def readFlags (o : Options) : List Char → Options × List Char
  | '-' :: rest => readFlags { o with left := true } rest
  | '+' :: rest => readFlags { o with plus := true } rest
  | '0' :: rest => readFlags { o with zero := true } rest
  | ' ' :: rest => readFlags { o with space := true } rest
  | '#' :: rest => readFlags { o with alternate := true } rest
  | rest => (o, rest)

/-- Reads a number of two digits at most; zero when there is none. -/
def readShort : List Char → Nat × List Char
  | c :: d :: rest =>
    if isDigit c && isDigit d then (digitsValue 10 [c, d], rest)
    else if isDigit c then (digitsValue 10 [c], d :: rest)
    else (0, c :: d :: rest)
  | [c] => if isDigit c then (digitsValue 10 [c], []) else (0, [c])
  | [] => (0, [])

def letters : List Char := "AEFGXacdefgiopqsux".toList

/-- Reads a conversion; `cs` follows its percent sign. -/
def readConversion (cs : List Char) : Piece × List Char :=
  let (o, rest) := readFlags default cs
  let (width, rest) := readShort rest
  let (precision, rest) :=
    match rest with
    | '.' :: after => let (n, after) := readShort after; (some n, after)
    | _ => (none, rest)
  match rest with
  | c :: after =>
    if letters.contains c then
      (.conversion (lowerAscii c)
        { o with upper := c ≠ lowerAscii c, width := width, precision := precision }, after)
    else
      let shown := cs.length - (if c.toNat < 32 then rest else after).length
      (.malformed ('%' :: cs.take shown), [])
  | [] => (.malformed ('%' :: cs), [])

/-- The pieces of a template; a malformed one is the last. -/
def pieces : (fuel : Nat) → List Char → List Piece
  | 0, _ => []
  | _ + 1, [] => []
  | fuel + 1, '%' :: '%' :: rest => .literal ['%'] :: pieces fuel rest
  | fuel + 1, '%' :: rest =>
    let (piece, rest) := readConversion rest
    piece :: pieces fuel rest
  | fuel + 1, cs => .literal (cs.takeWhile (· ≠ '%')) :: pieces fuel (cs.dropWhile (· ≠ '%'))

def ofText (cs : List Char) : List Piece := pieces (cs.length + 1) cs

namespace Options

def pad (o : Options) (text : List Char) : List Char :=
  let fill := List.replicate (o.width - text.length) ' '
  if o.left then text ++ fill else fill ++ text

def padNumber (o : Options) (zeros : Bool) (mark digits : List Char) : List Char :=
  if zeros && !o.left then
    mark ++ List.replicate (o.width - (mark.length + digits.length)) '0' ++ digits
  else o.pad (mark ++ digits)

def sign (o : Options) (negative : Bool) : List Char :=
  if negative then ['-'] else if o.plus then ['+'] else if o.space then [' '] else []

def cased (o : Options) (text : List Char) : List Char :=
  if o.upper then text.map upperAscii else text

def string (o : Options) (text : List Char) : List Char :=
  o.pad (match o.precision with | some n => text.take n | none => text)

def wholeDigits (o : Options) (letter : Char) (n : Nat) : List Char :=
  let base := if letter = 'x' then 16 else if letter = 'o' then 8 else 10
  let octal := letter = 'o' && o.alternate
  let digits :=
    if n = 0 then (if o.precision = some 0 && !octal then [] else ['0'])
    else (if octal then ['0'] else []) ++ Nat.toDigits base n
  List.replicate (o.precision.getD 0 - digits.length) '0' ++ digits

def whole (o : Options) (letter : Char) (negative : Bool) (n : Nat) : List Char :=
  let mark :=
    if letter = 'd' || letter = 'i' then o.sign negative
    else if letter = 'x' && o.alternate && n != 0 then ['0', 'x']
    else []
  o.padNumber (o.zero && o.precision.isNone) (o.cased mark) (o.cased (o.wholeDigits letter n))

def hexadecimal (o : Options) (m : Nat) (q : Int) : List Char :=
  let shift := 52 - m.log2
  let mantissa := if m = 0 then 0 else m * Nat.pow 2 shift
  let e : Int := if m = 0 then 0 else q + 52 - shift
  let hex (width n : Nat) : List Char :=
    let digits := Nat.toDigits 16 n
    List.replicate (width - digits.length) '0' ++ digits
  let fraction := hex 13 (mantissa % 0x10000000000000)
  let places := o.precision.getD ((fraction.reverse.dropWhile (· == '0')).length)
  let mantissa :=
    if o.precision.isSome && places < 13 then mantissa + Nat.pow 2 (51 - 4 * places) else mantissa
  let fraction :=
    ((hex 13 (mantissa % 0x10000000000000)) ++ List.replicate (places - 13) '0').take places
  (toString (mantissa / 0x10000000000000)).toList
    ++ (if places != 0 || o.alternate then '.' :: fraction else [])
    ++ ['p', if e < 0 then '-' else '+'] ++ (toString e.natAbs).toList

def real (o : Options) (letter : Char) (x : Float) : List Char :=
  match Double.reading x with
  | .nan => o.pad ((if o.space then [' '] else []) ++ o.cased "nan".toList)
  | .infinite negative => o.pad (o.sign negative ++ o.cased "inf".toList)
  | .finite negative m q =>
    if letter = 'a' then
      o.padNumber o.zero (o.sign negative ++ o.cased ['0', 'x']) (o.cased (o.hexadecimal m q))
    else
      let body := NumberStyle.body ⟨o.precision.getD 6, o.alternate⟩ letter (.finite false m q)
      o.padNumber o.zero (o.sign negative) (o.cased body.toList)

end Options

def quotedChar (c : Char) (next : Option Char) : List Char :=
  if c = '"' ∨ c = '\\' ∨ c = '\n' then ['\\', c]
  else if c.toNat < 32 ∨ c.toNat = 127 then
    let digits := (toString c.toNat).toList
    let wide := (next.map isDigit).getD false
    '\\' :: (if wide then List.replicate (3 - digits.length) '0' else []) ++ digits
  else [c]

def quotedTail : List Char → List Char
  | [] => ['"']
  | c :: rest => quotedChar c rest.head? ++ quotedTail rest

def quoted (cs : List Char) : List Char := '"' :: quotedTail cs

end ScenarioHost.Lua.Template
