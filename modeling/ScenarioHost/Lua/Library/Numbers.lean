import ScenarioHost.Lua.Library.Argument

/-!
The mathematical functions, and operations on the bits of integers.
-/
namespace ScenarioHost.Lua.Library

/-- The remainder of a division cut toward zero; it has the sign of the dividend. -/
def truncatedRemainder (x y : Float) : Float :=
  match Double.reading x, Double.reading y with
  | .nan, _ | _, .nan | .infinite _, _ => Double.ofReading .nan
  | .finite .., .infinite _ => x
  | .finite a m p, .finite _ n q =>
    if n = 0 then Double.ofReading .nan
    else
      let r := min p q
      Double.ofReading (.finite a (m * Nat.pow 2 (p - r).toNat % (n * Nat.pow 2 (q - r).toNat)) r)

def wholePart (x : Float) : Float := if x < 0 then x.ceil else x.floor

def unary (f : Float → Float) (s : Spot) (args : List Value) : Act Value (List Value) := do
  return [.number (f (← numberArg s args 1))]

def binary (f : Float → Float → Float) (s : Spot) (args : List Value) : Act Value (List Value) := do
  let x ← numberArg s args 1
  let y ← numberArg s args 2
  return [.number (f x y)]

def best (better : Float → Float → Bool) (s : Spot) (args : List Value) :
    Act Value (List Value) := do
  let first ← numberArg s args 1
  let others ← (List.range (args.length - 1)).mapM fun n => numberArg s args (n + 2)
  return [.number (others.foldl (fun a b => if better a b then a else b) first)]

def logarithm (s : Spot) (args : List Value) : Act Value (List Value) := do
  let x ← numberArg s args 1
  if args.length < 2 then return [.number x.log]
  else return [.number (x.log2 * (1 / (← numberArg s args 2).log2))]

def fractionAndExponent (s : Spot) (args : List Value) : Act Value (List Value) := do
  let (m, e) := (← numberArg s args 1).frExp
  return [.number m, .number (Double.ofInt e)]

def scaledByPower (s : Spot) (args : List Value) : Act Value (List Value) := do
  let x ← numberArg s args 1
  return [.number (x.scaleB (← intArg s args 2))]

def wholeAndFraction (s : Spot) (args : List Value) : Act Value (List Value) := do
  let x ← numberArg s args 1
  match Double.reading x with
  | .infinite negative => return [.number x, .number (Double.ofRatio negative 0 1)]
  | r => return [.number (wholePart x),
      .number (if r.isNegative && x == wholePart x then Double.ofRatio true 0 1 else x - wholePart x)]

def randomNumber (s : Spot) (args : List Value) : Act Value (List Value) := do
  let fraction := Double.ofRatio false (← Act.draw) 0x20000000000000
  match args.length with
  | 0 => return [.number fraction]
  | 1 => return [.number ((fraction * (← numberArg s args 1)).floor + 1)]
  | _ => do
    let low ← numberArg s args 1
    let high ← numberArg s args 2
    return [.number ((fraction * (high - low + 1)).floor + low)]

def callMath (s : Spot) (f : MathFunction) (args : List Value) : Act Value (List Value) :=
  match f with
  | .abs => unary Float.abs s args
  | .acos => unary Float.acos s args
  | .asin => unary Float.asin s args
  | .atan => unary Float.atan s args
  | .atan2 => binary Float.atan2 s args
  | .ceil => unary Float.ceil s args
  | .cos => unary Float.cos s args
  | .cosh => unary Float.cosh s args
  | .deg => unary (· * 57.29577951308232) s args
  | .exp => unary Float.exp s args
  | .floor => unary Float.floor s args
  | .fmod => binary truncatedRemainder s args
  | .frexp => fractionAndExponent s args
  | .ldexp => scaledByPower s args
  | .log => logarithm s args
  | .log10 => unary Float.log10 s args
  | .max => best (fun a b => decide (b < a)) s args
  | .min => best (fun a b => decide (a < b)) s args
  | .modf => wholeAndFraction s args
  | .pow => binary Float.pow s args
  | .rad => unary (· * 0.017453292519943295) s args
  | .random => randomNumber s args
  | .randomseed => return []
  | .sin => unary Float.sin s args
  | .sinh => unary Float.sinh s args
  | .sqrt => unary Float.sqrt s args
  | .tan => unary Float.tan s args
  | .tanh => unary Float.tanh s args

def toBits (x : Float) : UInt32 := (x + 6755399441055744).toBits.toUInt32

def bitsArg (s : Spot) (args : List Value) (n : Nat) : Act Value UInt32 := do
  return toBits (← numberArg s args n)

def ofBits (b : UInt32) : Value := .number (Double.ofInt b.toInt32.toInt)

def rotateLeft (b n : UInt32) : UInt32 :=
  if n % 32 = 0 then b else (b <<< n) ||| (b >>> (32 - n % 32))

def swapBytes (b : UInt32) : UInt32 :=
  (b <<< 24) ||| ((b &&& (0xFF00 : UInt32)) <<< 8) ||| ((b >>> 8) &&& (0xFF00 : UInt32)) ||| (b >>> 24)

/-- Hexadecimal digits; a negative count asks for capital letters. -/
def hexDigits (s : Spot) (args : List Value) : Act Value (List Value) := do
  let b ← bitsArg s args 1
  let count ← optIntArg s args 2 8
  let digits := Nat.toDigits 16 b.toNat
  let digits := List.replicate (8 - digits.length) '0' ++ digits
  let shown := digits.drop (8 - min 8 count.natAbs)
  return [.string (.ofList (if count < 0 then shown.map upperAscii else shown))]

def combine (f : UInt32 → UInt32 → UInt32) (s : Spot) (args : List Value) :
    Act Value (List Value) := do
  let first ← bitsArg s args 1
  let others ← (List.range (args.length - 1)).mapM fun n => bitsArg s args (n + 2)
  return [ofBits (others.foldl f first)]

def shift (f : UInt32 → UInt32 → UInt32) (s : Spot) (args : List Value) :
    Act Value (List Value) := do
  let b ← bitsArg s args 1
  let n ← bitsArg s args 2
  return [ofBits (f b (n % 32))]

def callBit (s : Spot) (f : BitFunction) (args : List Value) : Act Value (List Value) :=
  match f with
  | .arshift => shift (fun b n => (b.toInt32 >>> n.toInt32).toUInt32) s args
  | .band => combine (· &&& ·) s args
  | .bnot => do return [ofBits (~~~(← bitsArg s args 1))]
  | .bor => combine (· ||| ·) s args
  | .bswap => do return [ofBits (swapBytes (← bitsArg s args 1))]
  | .bxor => combine (· ^^^ ·) s args
  | .lshift => shift (· <<< ·) s args
  | .rol => shift rotateLeft s args
  | .ror => shift (fun b n => rotateLeft b (32 - n)) s args
  | .rshift => shift (· >>> ·) s args
  | .tobit => do return [ofBits (← bitsArg s args 1)]
  | .tohex => hexDigits s args

end ScenarioHost.Lua.Library
