import ScenarioHost.Lua.Numeral

/-!
Patterns for searching strings: classes of characters, repetitions, captures, balanced pairs and
frontiers. A match is found by backtracking from left to right.
-/
namespace ScenarioHost.Lua.Pattern

/-- The extent of a capture; a position capture has none, an open one has not ended. -/
inductive Extent where
  | closed (length : Nat)
  | position
  | unfinished

structure Capture where
  start : Nat
  extent : Extent

abbrev Captures := List Capture

inductive PatternError where
  | endsWithEscape
  | missingBracket
  | unbalanced
  | captureIndex
  | unfinishedCapture
  | tooComplex

def PatternError.message : PatternError → String
  | .endsWithEscape => "malformed pattern (ends with '%')"
  | .missingBracket => "malformed pattern (missing ']')"
  | .unbalanced => "unbalanced pattern"
  | .captureIndex => "invalid capture index"
  | .unfinishedCapture => "unfinished capture"
  | .tooComplex => "pattern too complex"

def isLower (c : Char) : Bool := 'a' ≤ c && c ≤ 'z'
def isUpper (c : Char) : Bool := 'A' ≤ c && c ≤ 'Z'
def isAlpha (c : Char) : Bool := isLower c || isUpper c
def isControl (c : Char) : Bool := c.toNat < 32 || c.toNat == 127
def isPunct (c : Char) : Bool := 33 ≤ c.toNat && c.toNat ≤ 126 && !isAlpha c && !isDigit c

/-- Whether a character belongs to the class that a letter names; a capital letter negates. -/
def inClass (c letter : Char) : Bool :=
  let negate := isUpper letter
  match lowerAscii letter with
  | 'a' => isAlpha c != negate
  | 'd' => isDigit c != negate
  | 'l' => isLower c != negate
  | 's' => isSpace c != negate
  | 'u' => isUpper c != negate
  | 'w' => (isAlpha c || isDigit c) != negate
  | 'x' => (digitValue? 16 c).isSome != negate
  | 'p' => isPunct c != negate
  | 'c' => isControl c != negate
  | 'g' => (33 ≤ c.toNat && c.toNat ≤ 126) != negate
  | 'z' => (c == '\x00') != negate
  | _ => letter == c

def afterSet? : List Char → Option (List Char)
  | [] => none
  | ['%'] => none
  | '%' :: _ :: rest => afterSet? rest
  | ']' :: rest => some rest
  | _ :: rest => afterSet? rest

def afterItem : List Char → Except PatternError (List Char)
  | [] => .ok []
  | '%' :: rest =>
    match rest with
    | [] => .error .endsWithEscape
    | _ :: rest => .ok rest
  | '[' :: rest =>
    let body := match rest with | '^' :: r => r | r => r
    let found :=
      match body with
      | ']' :: r => afterSet? r
      | r => afterSet? r
    match found with
    | some r => .ok r
    | none => .error .missingBracket
  | _ :: rest => .ok rest

def setHolds (c : Char) : List Char → Bool
  | '%' :: k :: rest => inClass c k || setHolds c rest
  | a :: '-' :: b :: rest => (a ≤ c && c ≤ b) || setHolds c rest
  | a :: rest => a == c || setHolds c rest
  | [] => false

/-- Whether the first item of a pattern matches a character; `rest` is the pattern after the item. -/
def itemMatches (c : Char) (pattern rest : List Char) : Bool :=
  match pattern with
  | '.' :: _ => true
  | '%' :: k :: _ => inClass c k
  | '[' :: '^' :: body => !setHolds c (body.take (body.length - rest.length - 1))
  | '[' :: body => setHolds c (body.take (body.length - rest.length - 1))
  | k :: _ => k == c
  | [] => false

def balanced (source : Array Char) (opener closer : Char) : (fuel place depth : Nat) → Option Nat
  | 0, _, _ => none
  | fuel + 1, place, depth =>
    match source[place]? with
    | none => none
    | some c =>
      if c = closer then
        if depth = 1 then some (place + 1)
        else balanced source opener closer fuel (place + 1) (depth - 1)
      else if c = opener then balanced source opener closer fuel (place + 1) (depth + 1)
      else balanced source opener closer fuel (place + 1) depth

def closeCapture (place : Nat) : Captures → Option Captures
  | [] => none
  | ⟨start, .unfinished⟩ :: rest => some (⟨start, .closed (place - start)⟩ :: rest)
  | c :: rest => (closeCapture place rest).map (c :: ·)

def countMatches (source : Array Char) (pattern rest : List Char) : (fuel place : Nat) → Nat
  | 0, _ => 0
  | fuel + 1, place =>
    match source[place]? with
    | some c =>
      if itemMatches c pattern rest then countMatches source pattern rest fuel (place + 1) + 1
      else 0
    | none => 0

abbrev Found := Except PatternError (Option (Nat × Captures))

mutual

def matchAt (source : Array Char) : Nat → (place : Nat) → (pattern : List Char) → Captures → Found
  | 0, _, _, _ => .error .tooComplex
  | fuel + 1, place, pattern, captures =>
    match pattern with
    | [] => .ok (some (place, captures))
    | '(' :: ')' :: rest => matchAt source fuel place rest (⟨place, .position⟩ :: captures)
    | '(' :: rest => matchAt source fuel place rest (⟨place, .unfinished⟩ :: captures)
    | ')' :: rest =>
      match closeCapture place captures with
      | some captures => matchAt source fuel place rest captures
      | none => .error .captureIndex
    | ['$'] => .ok (if place = source.size then some (place, captures) else none)
    | '%' :: 'b' :: rest =>
      match rest with
      | opener :: closer :: rest =>
        if source[place]? = some opener then
          match balanced source opener closer (source.size + 1) (place + 1) 1 with
          | some after => matchAt source fuel after rest captures
          | none => .ok none
        else .ok none
      | _ => .error .unbalanced
    | '%' :: 'f' :: rest =>
      match rest with
      | '[' :: _ =>
        match afterItem rest with
        | .error e => .error e
        | .ok after =>
          let previous := if place = 0 then '\x00' else source.getD (place - 1) '\x00'
          let next := source.getD place '\x00'
          if !itemMatches previous rest after && itemMatches next rest after then
            matchAt source fuel place after captures
          else .ok none
      | _ => .error .missingBracket
    | '%' :: d :: rest =>
      if isDigit d then
        match captures.reverse[d.toNat - 49]?, d with
        | some ⟨start, .closed length⟩, _ =>
          if source.extract start (start + length) = source.extract place (place + length) then
            matchAt source fuel (place + length) rest captures
          else .ok none
        | _, _ => .error .captureIndex
      else matchItem source fuel place pattern captures
    | _ => matchItem source fuel place pattern captures

def matchItem (source : Array Char) : Nat → (place : Nat) → (pattern : List Char) → Captures → Found
  | 0, _, _, _ => .error .tooComplex
  | fuel + 1, place, pattern, captures =>
    match afterItem pattern with
    | .error e => .error e
    | .ok rest =>
      let here :=
        match source[place]? with
        | some c => itemMatches c pattern rest
        | none => false
      match rest with
      | '?' :: after =>
        if here then
          match matchAt source fuel (place + 1) after captures with
          | .ok none => matchAt source fuel place after captures
          | found => found
        else matchAt source fuel place after captures
      | '*' :: after =>
        let count := countMatches source pattern rest (source.size + 1) place
        longest source fuel place count after captures
      | '+' :: after =>
        if here then
          longest source fuel (place + 1)
            (countMatches source pattern rest (source.size + 1) (place + 1)) after captures
        else .ok none
      | '-' :: after =>
        let count := countMatches source pattern rest (source.size + 1) place
        shortest source fuel place count after captures
      | _ => if here then matchAt source fuel (place + 1) rest captures else .ok none

def longest (source : Array Char) : Nat → (place count : Nat) → List Char → Captures → Found
  | 0, _, _, _, _ => .error .tooComplex
  | fuel + 1, place, count, after, captures =>
    match matchAt source fuel (place + count) after captures with
    | .ok none =>
      if count = 0 then .ok none else longest source fuel place (count - 1) after captures
    | found => found

def shortest (source : Array Char) : Nat → (place count : Nat) → List Char → Captures → Found
  | 0, _, _, _, _ => .error .tooComplex
  | fuel + 1, place, count, after, captures =>
    match matchAt source fuel place after captures with
    | .ok none =>
      if count = 0 then .ok none
      else shortest source fuel (place + 1) (count - 1) after captures
    | found => found

end

structure Match where
  start : Nat
  stop : Nat
  captures : Captures

def fuelFor (source : Array Char) (pattern : List Char) : Nat :=
  8 * (source.size + pattern.length) + 100

def search (source : Array Char) (pattern : List Char) (anchored : Bool) :
    (fuel place : Nat) → Except PatternError (Option Match)
  | 0, _ => .ok none
  | fuel + 1, place =>
    match matchAt source (fuelFor source pattern) place pattern [] with
    | .error e => .error e
    | .ok (some (stop, captures)) => .ok (some ⟨place, stop, captures.reverse⟩)
    | .ok none =>
      if anchored ∨ source.size ≤ place then .ok none
      else search source pattern anchored fuel (place + 1)

def splitAnchor (pattern : List Char) : Bool × List Char :=
  match pattern with
  | '^' :: rest => (true, rest)
  | _ => (false, pattern)

def find (source : Array Char) (pattern : List Char) (place : Nat) :
    Except PatternError (Option Match) :=
  let (anchored, pattern) := splitAnchor pattern
  search source pattern anchored (source.size + 2) place

def findPlain (wanted : List Char) : (place : Nat) → List Char → Option Nat
  | place, [] => if wanted.isEmpty then some place else none
  | place, c :: rest =>
    if wanted.isPrefixOf (c :: rest) then some place else findPlain wanted (place + 1) rest

def isSpecial (c : Char) : Bool := "^$*+?.([%-".toList.contains c

end ScenarioHost.Lua.Pattern
