import ScenarioHost.Lua.Library.Base
import ScenarioHost.Lua.Pattern
import ScenarioHost.Lua.Template

/-!
The string functions: parts of strings, searching and replacing, and formatted text.
-/
namespace ScenarioHost.Lua.Library

variable (run : Evaluator)

def stringValue (cs : List Char) : Value := .string (.ofList cs)

/-- A place in a string; negative ones count from its end. -/
def fromEnd (size : Nat) (n : Int) : Int := if n < 0 then n + size + 1 else n

def slice (text : List Char) (first last : Int) : List Char :=
  let first := max 1 (fromEnd text.length first)
  let last := fromEnd text.length last
  (text.drop (first - 1).toNat).take (last - first + 1).toNat

def stringByte (s : Spot) (args : List Value) : Act Value (List Value) := do
  let text := (← stringArg s args 1).toList
  let first ← optIntArg s args 2 1
  let last ← optIntArg s args 3 first
  let part := slice text first last
  if 8000 < part.length then failure s "string slice too long"
  else return part.map fun c => .ofNat c.toNat

def stringChar (s : Spot) (args : List Value) : Act Value (List Value) := do
  let codes ← (List.range args.length).mapM fun n => do
    let code ← intArg s args (n + 1)
    if 0 ≤ code ∧ code ≤ 255 then return Char.ofNat code.toNat
    else argFailure s (n + 1) "invalid value"
  return [stringValue codes]

def sizeLimit : Nat := 0x7FFFFF00

def stringRep (s : Spot) (args : List Value) : Act Value (List Value) := do
  let text ← stringArg s args 1
  let count := (← intArg s args 2).toNat
  let separator ← optStringArg s args 3 .empty
  if sizeLimit ≤ (text.size + separator.size) * count then Act.raise (.text "not enough memory")
  else return [.string ⟨String.intercalate separator.chars (List.replicate count text.chars)⟩]

def stringSub (s : Spot) (args : List Value) : Act Value (List Value) := do
  let text := (← stringArg s args 1).toList
  let first ← intArg s args 2
  let last ← optIntArg s args 3 (-1)
  return [stringValue (slice text first last)]

def mapped (s : Spot) (args : List Value) (f : List Char → List Char) : Act Value (List Value) := do
  return [stringValue (f (← stringArg s args 1).toList)]

def ofPattern {α : Type} (s : Spot) : Except Pattern.PatternError α → Act Value α
  | .ok a => return a
  | .error e => failure s e.message

def part (source : Array Char) (first stop : Nat) : Value :=
  stringValue (source.extract first stop).toList

/-- What a capture of a match holds; the first one stands for the whole match if there are none. -/
def captured (s : Spot) (source : Array Char) (m : Pattern.Match) (n : Nat) : Act Value Value :=
  match m.captures[n]? with
  | none => if n = 0 then return part source m.start m.stop else failure s "invalid capture index"
  | some ⟨start, .closed length⟩ => return part source start (start + length)
  | some ⟨start, .position⟩ => return .ofNat (start + 1)
  | some ⟨_, .unfinished⟩ => failure s "unfinished capture"

def allCaptured (s : Spot) (source : Array Char) (m : Pattern.Match) : Act Value (List Value) :=
  (List.range m.captures.length).mapM fun n => captured s source m n

def matchValues (s : Spot) (source : Array Char) (m : Pattern.Match) : Act Value (List Value) :=
  if m.captures.isEmpty then return [part source m.start m.stop] else allCaptured s source m

def searchArgs (s : Spot) (args : List Value) : Act Value (List Char × List Char × Nat) := do
  let text := (← stringArg s args 1).toList
  let pattern := (← stringArg s args 2).toList
  let start ← optIntArg s args 3 1
  let start := if start < 0 then start + text.length else start - 1
  return (text, pattern, min start.toNat text.length)

def stringFind (s : Spot) (args : List Value) : Act Value (List Value) := do
  let (text, pattern, place) ← searchArgs s args
  if (Value.arg args 3).truthy || !pattern.any Pattern.isSpecial then
    match Pattern.findPlain pattern place (text.drop place) with
    | some n => return [.ofNat (n + 1), .ofNat (n + pattern.length)]
    | none => return [.nil]
  else
    let source := text.toArray
    match ← ofPattern s (Pattern.find source pattern place) with
    | some m => return .ofNat (m.start + 1) :: .ofNat m.stop :: (← allCaptured s source m)
    | none => return [.nil]

def stringMatch (s : Spot) (args : List Value) : Act Value (List Value) := do
  let (text, pattern, place) ← searchArgs s args
  let source := text.toArray
  match ← ofPattern s (Pattern.find source pattern place) with
  | some m => matchValues s source m
  | none => return [.nil]

def stringGmatch (s : Spot) (args : List Value) : Act Value (List Value) := do
  let source ← stringArg s args 1
  let pattern ← stringArg s args 2
  let position ← Act.readHeap s.env (·.nextCell)
  Act.updateHeap s.env (·.addCell (.ofNat 0))
  let f ← Act.readHeap s.env (·.nextFunction)
  Act.updateHeap s.env (·.addFunction (.matches ⟨source, pattern, position⟩))
  return [.function f]

def nextMatch (s : Spot) (cursor : MatchCursor) : Act Value (List Value) := do
  let source := cursor.source.toList.toArray
  let place :=
    match ← Act.readHeap s.env (·.cell cursor.position) with
    | .number x => x.toUInt64.toNat
    | _ => 0
  if source.size < place then return []
  else
    match ← ofPattern s (Pattern.search source cursor.pattern.toList false (source.size + 2) place) with
    | none => return []
    | some m => do
      let after := if m.stop = m.start then m.stop + 1 else m.stop
      Act.updateHeap s.env (·.setCell cursor.position (.ofNat after))
      matchValues s source m

def expanded (s : Spot) (source : Array Char) (m : Pattern.Match) : List Char → Act Value String
  | [] => return ""
  | ['%'] => return "\x00"
  | '%' :: c :: rest => do
    let text ←
      if !isDigit c then pure (String.ofList [c])
      else if c = '0' then pure (String.ofList (source.extract m.start m.stop).toList)
      else do
        let v ← captured s source m (c.toNat - 49)
        pure ((v.toString?.getD .empty).chars)
    return text ++ (← expanded s source m rest)
  | c :: rest => do
    let text ← expanded s source m rest
    return String.ofList [c] ++ text

def replacementText (s : Spot) (source : Array Char) (m : Pattern.Match) (replacement : Value) :
    Act Value String := do
  let given (v : Value) : Act Value String :=
    match v.truthy, v.toString? with
    | false, _ => return String.ofList (source.extract m.start m.stop).toList
    | true, some text => return text.chars
    | true, none => failure s ("invalid replacement value (a " ++ v.typeName ++ ")")
  match replacement with
  | .function f => do
    let vs ← matchValues s source m
    given (Value.first (← run .values (.call s.env (s.site none) (.function f) vs)))
  | .table t => do
    let key ← captured s source m 0
    given (← index run s chainLimit none (.table t) key)
  | v => expanded s source m (v.toString?.getD .empty).toList

/-- Replaces matches from a place on, `left` of them at most; counts them in `count`. -/
def replaceFrom (s : Spot) (source : Array Char) (pattern : List Char) (anchored : Bool)
    (replacement : Value) : (fuel left place count : Nat) → (done : String) → Act Value (String × Nat)
  | 0, _, _, count, done => return (done, count)
  | fuel + 1, left, place, count, done => do
    let rest (n : Nat) := String.ofList (source.extract n source.size).toList
    if left = 0 then return (done ++ rest place, count)
    else
      match ← ofPattern s (Pattern.matchAt source (Pattern.fuelFor source pattern) place pattern []) with
      | some (stop, captures) => do
        let text ← replacementText run s source ⟨place, stop, captures.reverse⟩ replacement
        let done := done ++ text
        if place < stop then
          if anchored then return (done ++ rest stop, count + 1)
          else replaceFrom s source pattern anchored replacement fuel (left - 1) stop (count + 1) done
        else
          match source[place]? with
          | none => return (done, count + 1)
          | some c =>
            let done := done.push c
            if anchored then return (done ++ rest (place + 1), count + 1)
            else
              replaceFrom s source pattern anchored replacement fuel (left - 1) (place + 1) (count + 1) done
      | none =>
        match source[place]? with
        | none => return (done, count)
        | some c =>
          if anchored then return (done ++ rest place, count)
          else replaceFrom s source pattern anchored replacement fuel left (place + 1) count (done.push c)

def stringGsub (s : Spot) (args : List Value) : Act Value (List Value) := do
  let source := (← stringArg s args 1).toList.toArray
  let pattern := (← stringArg s args 2).toList
  let limit ← optIntArg s args 4 (source.size + 1)
  match Value.arg args 2 with
  | .number _ | .string _ | .function _ | .table _ => do
    let (anchored, pattern) := Pattern.splitAnchor pattern
    let (text, count) ← replaceFrom run s source pattern anchored (Value.arg args 2)
      (source.size + 2) limit.toNat 0 0 ""
    return [.string ⟨text⟩, .ofNat count]
  | _ => argFailure s 3 "string/function/table expected"

/-- The integer part of a number as 64 bits with a sign; the least one if it does not fit. -/
def toSigned (x : Float) : Int :=
  match (Double.reading x).truncate? with
  | some i => if -0x8000000000000000 ≤ i ∧ i < 0x8000000000000000 then i else -0x8000000000000000
  | none => -0x8000000000000000

def toUnsigned (x : Float) : Nat :=
  match (Double.reading x).truncate? with
  | some i =>
    if -0x8000000000000000 ≤ i ∧ i < 0x10000000000000000 then (i % 0x10000000000000000).toNat
    else 0x8000000000000000
  | none => 0x8000000000000000

def shownText (s : Spot) (v : Value) : Act Value ByteString :=
  match v with
  | .string text => return text
  | _ => do
    let shown := Value.first (← textOf run s v)
    Act.readHeap s.env fun h => h.plainText shown

def converted (s : Spot) (args : List Value) (n : Nat) (letter : Char) (o : Template.Options) :
    Act Value (List Char) := do
  if args.length < n then argFailure s n "value expected"
  else
    match letter with
    | 's' => return o.string (← shownText run s (Value.arg args (n - 1))).toList
    | 'q' => return Template.quoted (← shownText run s (Value.arg args (n - 1))).toList
    | 'c' => return o.pad [Char.ofNat ((← intArg s args n) % 256).toNat]
    | 'p' => return o.string (Heap.addressText (Value.arg args (n - 1))).toList
    | 'd' | 'i' =>
      let k := toSigned (← numberArg s args n)
      return o.whole letter (decide (k < 0)) k.natAbs
    | 'o' | 'u' | 'x' => return o.whole letter false (toUnsigned (← numberArg s args n))
    | _ => return o.real letter (← numberArg s args n)

/-- Formats pieces; `n` is the number of arguments used up. -/
def formatPieces (s : Spot) (args : List Value) : (n : Nat) → List Template.Piece → Act Value String
  | _, [] => return ""
  | n, .literal text :: rest => do
    let after ← formatPieces s args n rest
    return String.ofList text ++ after
  | n, .conversion letter o :: rest => do
    let text ← converted run s args (n + 1) letter o
    let after ← formatPieces s args (n + 1) rest
    return String.ofList text ++ after
  | _, .malformed text :: _ =>
    failure s ("invalid option '" ++ String.ofList (text.takeWhile (· ≠ '\x00')) ++ "' to 'format'")

def stringFormat (s : Spot) (args : List Value) : Act Value (List Value) := do
  let template := (← stringArg s args 1).toList
  return [.string ⟨← formatPieces run s args 1 (Template.ofText template)⟩]

def callString (s : Spot) (f : StringFunction) (args : List Value) : Act Value (List Value) :=
  match f with
  | .byte => stringByte s args
  | .char => stringChar s args
  | .find => stringFind s args
  | .format => stringFormat run s args
  | .gmatch => stringGmatch s args
  | .gsub => stringGsub run s args
  | .len => do return [.ofNat (← stringArg s args 1).size]
  | .lower => mapped s args fun cs => cs.map lowerAscii
  | .match => stringMatch s args
  | .rep => stringRep s args
  | .reverse => mapped s args List.reverse
  | .sub => stringSub s args
  | .upper => mapped s args fun cs => cs.map upperAscii

end ScenarioHost.Lua.Library
