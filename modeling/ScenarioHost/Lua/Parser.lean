import ScenarioHost.Lua.Token
import ScenarioHost.Lua.Syntax
import ScenarioHost.Lua.Scope

/-!
From tokens to syntax trees. The first error ends the reading; its message names the chunk, the
line and the token at which it was noticed.
-/
namespace ScenarioHost.Lua

structure SyntaxError where
  message : ByteString

namespace Parser

structure State where
  chunk : ByteString
  current : Lexeme
  rest : List Lexeme
  /-- Line of the token read last. -/
  lastLine : Nat
  level : Nat
  scope : Scope

abbrev Parse (α : Type) := StateT State (Except SyntaxError) α

def failAt {α : Type} (line : Nat) (message : String) (near : Option ByteString) : Parse α := do
  let s ← get
  let place := s.chunk ++ ⟨":" ++ toString line ++ ": " ++ message⟩
  let shown (n : ByteString) : ByteString :=
    ⟨" near '"⟩ ++ .ofList (n.toList.takeWhile (· ≠ '\x00')) ++ ⟨"'"⟩
  throw ⟨place ++ ((near.map shown).getD .empty)⟩

def shownToken (l : Lexeme) : ByteString :=
  match l.token with
  | .fixed text =>
    match text.toList with
    | [c] => if c.toNat < 32 ∨ c.toNat = 127 then ⟨"char(" ++ toString c.toNat ++ ")"⟩ else ⟨text⟩
    | _ => ⟨text⟩
  | .done => ⟨"<eof>"⟩
  | _ => l.written

def fail {α : Type} (message : String) : Parse α := do
  let s ← get
  failAt s.current.line message (some (shownToken s.current))

def expected {α : Type} (what : String) : Parse α := fail ("'" ++ what ++ "' expected")

/-- Moves on to the next token; a lexical error counts here. -/
def advance : Parse Unit := do
  let s ← get
  let next := s.rest.head?.getD ⟨.done, .empty, s.current.line⟩
  match next.token with
  | .bad message near => failAt next.line message near
  | _ => set { s with current := next, rest := s.rest.tail, lastLine := s.current.line }

def isFixed (text : String) : Parse Bool := do
  match (← get).current.token with
  | .fixed t => return t == text
  | _ => return false

def accept (text : String) : Parse Bool := do
  if ← isFixed text then
    advance
    return true
  else return false

def expect (text : String) : Parse Unit := do
  unless ← accept text do expected text

def close (text opener : String) (line : Nat) : Parse Unit := do
  unless ← accept text do
    let s ← get
    if line = s.current.line then expected text
    else
      fail ("'" ++ text ++ "' expected (to close '" ++ opener ++ "' at line " ++ toString line
        ++ ")")

def name : Parse ByteString := do
  match (← get).current.token with
  | .name text =>
    advance
    return text
  | .fixed "goto" =>
    advance
    return ⟨"goto"⟩
  | _ => expected "<name>"

def deeper {α : Type} (p : Parse α) : Parse α := do
  let s ← get
  if 199 ≤ s.level then failAt s.current.line "chunk has too many syntax levels" none
  else
    set { s with level := s.level + 1 }
    let a ← p
    modify fun t => { t with level := s.level }
    return a

def binaryPower? (text : String) : Option (Nat × Nat) :=
  match text with
  | "+" | "-" => some (6, 6)
  | "*" | "/" | "%" => some (7, 7)
  | "^" => some (10, 9)
  | ".." => some (5, 4)
  | "==" | "~=" | "<" | "<=" | ">" | ">=" => some (3, 3)
  | "and" => some (2, 2)
  | "or" => some (1, 1)
  | _ => none

def binaryExpr (text : String) (left right : Expr) (line : Nat) : Expr :=
  match text with
  | "and" => .and left right
  | "or" => .or left right
  | "+" => .binary .add left right line
  | "-" => .binary .sub left right line
  | "*" => .binary .mul left right line
  | "/" => .binary .div left right line
  | "%" => .binary .mod left right line
  | "^" => .binary .pow left right line
  | ".." => .binary .concat left right line
  | "==" => .binary .eq left right line
  | "~=" => .binary .ne left right line
  | "<" => .binary .lt left right line
  | "<=" => .binary .le left right line
  | ">" => .binary .gt left right line
  | _ => .binary .ge left right line

def currentOperator? : Parse (Option (String × Nat × Nat)) := do
  match (← get).current.token with
  | .fixed text => return (binaryPower? text).map fun p => (text, p)
  | _ => return none

def unaryPower : Nat := 8

def endsBlock : Token → Bool
  | .done => true
  | .fixed text => ["else", "elseif", "end", "until"].contains text
  | _ => false

def atBlockEnd : Parse Bool := do return endsBlock (← get).current.token

def onlyLabels : List Lexeme → Bool
  | ⟨.fixed "::", _, _⟩ :: _ :: _ :: rest => onlyLabels rest
  | ⟨.fixed "until", _, _⟩ :: _ => false
  | l :: _ => endsBlock l.token
  | [] => true

def updateScope (f : Scope → Scope) : Parse Unit := modify fun s => { s with scope := f s.scope }

/-- Reads a function's text in a scope of its own; jumps must not lead out of it. -/
def inFunction {α : Type} (scope : Scope) (p : Parse α) : Parse α := do
  let outer := (← get).scope
  updateScope fun _ => scope
  let a ← p
  match (← get).scope.leaving false with
  | ⟨some x, line, _⟩ :: _ => failAt line ("undefined label '" ++ x.chars ++ "'") none
  | ⟨none, line, _⟩ :: _ => failAt line "no loop to break" none
  | [] =>
    updateScope fun _ => outer
    return a

/-- Reads a block in a scope of its own; jumps that lead out of it wait in the outer one. -/
def inBlock {α : Type} (isLoop : Bool) (p : Parse α) : Parse α := do
  let outer := (← get).scope
  updateScope Scope.enterBlock
  let a ← p
  updateScope fun inner => outer.leaveBlock inner isLoop
  return a

def placeLabel (x : ByteString) (depth : Nat) : Parse Unit := do
  match (← get).scope.badJump? x depth with
  | some (j, skipped) =>
    failAt j.line
      ("<goto " ++ x.chars ++ "> jumps into the scope of local '" ++ skipped.chars ++ "'") none
  | none => updateScope (·.addLabel x)

/-- A function has two hundred variables at most; `waiting` ones are not in sight yet. -/
def checkRoom (waiting : Nat) : Parse Unit := do
  let s ← get
  if 200 ≤ s.scope.depth + waiting then
    failAt s.current.line (s.scope.owner ++ " has more than 200 local variables") none

def outOfFuel {α : Type} : Parse α := fail "function or expression too complex"

/-- The names after the first of a list of variables; some `hidden` ones come before them. -/
def moreNames : Nat → (hidden : Nat) → List ByteString → Parse (List ByteString)
  | 0, _, _ => outOfFuel
  | fuel + 1, hidden, acc => do
    if ← accept "," then
      let x ← name
      checkRoom (hidden + acc.length)
      moreNames fuel hidden (x :: acc)
    else return acc.reverse

def params : Nat → List ByteString → Parse (List ByteString × Bool)
  | 0, _ => outOfFuel
  | fuel + 1, acc => do
    if ← accept "..." then return (acc.reverse, true)
    else
      match (← get).current.token with
      | .name text =>
        advance
        checkRoom acc.length
        if ← accept "," then params fuel (text :: acc)
        else return ((text :: acc).reverse, false)
      | _ => fail "<name> or '...' expected"

def functionPath : Nat → Expr → Parse (Expr × Bool)
  | 0, _ => outOfFuel
  | fuel + 1, e => do
    if ← accept "." then
      let key ← name
      functionPath fuel (.index e (.string key) (← get).lastLine)
    else if ← accept ":" then
      let key ← name
      return (.index e (.string key) (← get).lastLine, true)
    else return (e, false)

def isTarget : Expr → Bool
  | .name _ => true
  | .index .. => true
  | _ => false

def isCall : Expr → Bool
  | .call .. => true
  | .method .. => true
  | _ => false

mutual

def expr : Nat → (limit : Nat) → Parse Expr
  | 0, _ => outOfFuel
  | fuel + 1, limit => deeper do
    let line := (← get).current.line
    let operand ←
      if ← accept "not" then
        let e ← expr fuel unaryPower
        pure (Expr.unary .not e line)
      else if ← accept "-" then
        match ← expr fuel unaryPower with
        | .number x => pure (Expr.number (-x))
        | e => pure (Expr.unary .minus e (← get).lastLine)
      else if ← accept "#" then
        let e ← expr fuel unaryPower
        pure (Expr.unary .length e (← get).lastLine)
      else simple fuel
    operators fuel limit operand

def operators : Nat → (limit : Nat) → Expr → Parse Expr
  | 0, _, _ => outOfFuel
  | fuel + 1, limit, left => do
    match ← currentOperator? with
    | some (op, leftPower, rightPower) =>
      if limit < leftPower then
        advance
        let right ← expr fuel rightPower
        let e := binaryExpr op left right (← get).lastLine
        operators fuel limit e
      else return left
    | none => return left

def simple : Nat → Parse Expr
  | 0 => outOfFuel
  | fuel + 1 => do
    match (← get).current.token with
    | .number x => do
      advance
      return .number x
    | .string s => do
      advance
      return .string s
    | .fixed "nil" => do
      advance
      return .nil
    | .fixed "true" => do
      advance
      return .boolean true
    | .fixed "false" => do
      advance
      return .boolean false
    | .fixed "..." => do
      if (← get).scope.vararg then
        advance
        return .vararg
      else fail "cannot use '...' outside a vararg function"
    | .fixed "\x7b" => constructor_ fuel
    | .fixed "function" => do
      let line := (← get).current.line
      advance
      return .function (← functionBody fuel false line)
    | _ => suffixed fuel

def suffixed : Nat → Parse Expr
  | 0 => outOfFuel
  | fuel + 1 => do
    match (← get).current.token with
    | .fixed "(" => do
      let line := (← get).current.line
      advance
      let e ← expr fuel 0
      close ")" "(" line
      suffixes fuel (.paren e)
    | .name x => do
      advance
      suffixes fuel (.name x)
    | .fixed "goto" => do
      advance
      suffixes fuel (.name ⟨"goto"⟩)
    | _ => fail "unexpected symbol"

def suffixes : Nat → Expr → Parse Expr
  | 0, _ => outOfFuel
  | fuel + 1, e => do
    match (← get).current.token with
    | .fixed "." => do
      advance
      let key ← name
      suffixes fuel (.index e (.string key) (← get).lastLine)
    | .fixed "[" => do
      advance
      let key ← expr fuel 0
      expect "]"
      suffixes fuel (.index e key (← get).lastLine)
    | .fixed ":" => do
      advance
      let key ← name
      let line := (← get).current.line
      let args ← arguments fuel
      suffixes fuel (.method e key args line)
    | .fixed "(" | .fixed "\x7b" | .string _ => do
      let line := (← get).current.line
      let args ← arguments fuel
      suffixes fuel (.call e args line)
    | _ => return e

def arguments : Nat → Parse (List Expr)
  | 0 => outOfFuel
  | fuel + 1 => do
    let s ← get
    match s.current.token with
    | .string text => do
      advance
      return [.string text]
    | .fixed "\x7b" => return [← constructor_ fuel]
    | .fixed "(" => do
      if s.current.line ≠ s.lastLine then
        fail "ambiguous syntax (function call x new statement)"
      else
        advance
        if ← accept ")" then return []
        else
          let args ← exprs fuel []
          close ")" "(" s.current.line
          return args
    | _ => fail "function arguments expected"

def exprs : Nat → List Expr → Parse (List Expr)
  | 0, _ => outOfFuel
  | fuel + 1, acc => do
    let e ← expr fuel 0
    if ← accept "," then exprs fuel (e :: acc)
    else return (e :: acc).reverse

def constructor_ : Nat → Parse Expr
  | 0 => outOfFuel
  | fuel + 1 => do
    let line := (← get).current.line
    expect "\x7b"
    let fields ← fieldList fuel line []
    return .table fields line

def fieldList : Nat → Nat → List Field → Parse (List Field)
  | 0, _, _ => outOfFuel
  | fuel + 1, line, acc => do
    if ← accept "\x7d" then return acc.reverse
    else
      let s ← get
      let assigned :=
        match s.rest with
        | ⟨.fixed "=", _, _⟩ :: _ => true
        | _ => false
      let field ←
        match s.current.token, assigned with
        | .fixed "[", _ => do
          advance
          let key ← expr fuel 0
          expect "]"
          expect "="
          let value ← expr fuel 0
          pure (Field.keyed key value)
        | .name x, true => do
          advance
          expect "="
          let value ← expr fuel 0
          pure (Field.keyed (.string x) value)
        | _, _ => do
          let value ← expr fuel 0
          pure (Field.positional value)
      let more ← do
        if ← accept "," then pure true else accept ";"
      if more then fieldList fuel line (field :: acc)
      else
        close "\x7d" "\x7b" line
        return (field :: acc).reverse

def functionBody : Nat → (isMethod : Bool) → (line : Nat) → Parse FunctionBody
  | 0, _, _ => outOfFuel
  | fuel + 1, isMethod, line => do
    let body ← inFunction (.start false (some line)) do
      expect "("
      let known := if isMethod then [⟨"self"⟩] else []
      let (names, vararg) ←
        if ← isFixed ")" then pure (known, false) else params fuel known
      expect ")"
      updateScope fun s => { s.declare names with vararg := vararg }
      let body ← deeper (statements fuel [])
      unless ← isFixed "end" do close "end" "function" line
      return FunctionBody.mk names vararg body line
    advance
    return body

def block : Nat → (isLoop : Bool) → Parse (List Stat)
  | 0, _ => outOfFuel
  | fuel + 1, isLoop => inBlock isLoop (deeper (statements fuel []))

def statements : Nat → List Stat → Parse (List Stat)
  | 0, _ => outOfFuel
  | fuel + 1, acc => do
    if ← atBlockEnd then return acc.reverse
    else
      let (s, last) ← statement fuel
      discard (accept ";")
      if last then return (s :: acc).reverse
      else statements fuel (s :: acc)

def statement : Nat → Parse (Stat × Bool)
  | 0 => outOfFuel
  | fuel + 1 => do
    let s ← get
    let line := s.current.line
    match s.current.token with
    | .fixed "if" => do
      advance
      let st ← branches fuel line
      return (st, false)
    | .fixed "while" => do
      advance
      let condition ← expr fuel 0
      expect "do"
      let body ← block fuel true
      close "end" "while" line
      return (.whileLoop condition body, false)
    | .fixed "do" => do
      advance
      let body ← block fuel false
      close "end" "do" line
      return (.block body, false)
    | .fixed "for" => do
      advance
      let st ← inBlock true (forLoop fuel line)
      close "end" "for" line
      return (st, false)
    | .fixed "repeat" => do
      advance
      inBlock true do
        let body ← deeper (statements fuel [])
        close "until" "repeat" line
        let condition ← expr fuel 0
        return (.repeatLoop body condition, false)
    | .fixed "function" => do
      advance
      let x ← name
      let (target, isMethod) ← functionPath fuel (.name x)
      let body ← functionBody fuel isMethod line
      return (.assign [target] [.function body] line, false)
    | .fixed "local" => do
      advance
      if ← accept "function" then
        let x ← name
        checkRoom 0
        updateScope (·.declare [x])
        let body ← functionBody fuel false line
        return (.localFunction x body, false)
      else
        let x ← name
        checkRoom 0
        let names ← moreNames fuel 0 [x]
        let values ← if ← accept "=" then exprs fuel [] else pure []
        updateScope (·.declare names)
        return (.localDecl names values, false)
    | .fixed "return" => do
      advance
      let values ←
        if ← atBlockEnd then pure []
        else if ← isFixed ";" then pure []
        else exprs fuel []
      return (.ret values, true)
    | .fixed "break" => do
      advance
      updateScope (·.addJump none line)
      return (.breakOut, true)
    | .fixed "::" => do
      advance
      let x ← name
      let s ← get
      if s.scope.labels.contains x then
        failAt s.current.line ("duplicate label '" ++ x.chars ++ "'") none
      else
        expect "::"
        let s ← get
        placeLabel x (if onlyLabels (s.current :: s.rest) then s.scope.base else s.scope.depth)
        return (.label x, false)
    | .fixed "goto" =>
      match s.rest with
      | ⟨.name x, _, _⟩ :: _ => do
        advance
        advance
        let target := (← get).lastLine
        updateScope (·.addJump (some x) target)
        return (.jump x, false)
      | _ => do
        let st ← callOrAssign fuel
        return (st, false)
    | _ => do
      let st ← callOrAssign fuel
      return (st, false)

def branches : Nat → Nat → Parse Stat
  | 0, _ => outOfFuel
  | fuel + 1, line => do
    let condition ← expr fuel 0
    expect "then"
    let body ← block fuel false
    if ← accept "elseif" then
      let otherwise ← branches fuel line
      return .branch condition body [otherwise]
    else if ← accept "else" then
      let otherwise ← block fuel false
      close "end" "if" line
      return .branch condition body otherwise
    else
      close "end" "if" line
      return .branch condition body []

def forLoop : Nat → Nat → Parse Stat
  | 0, _ => outOfFuel
  | fuel + 1, line => do
    let x ← name
    let hidden := List.replicate 3 ByteString.empty
    if ← isFixed "=" then
      checkRoom 3
      advance
      let start ← expr fuel 0
      expect ","
      let limit ← expr fuel 0
      let step ← if ← accept "," then pure (some (← expr fuel 0)) else pure none
      expect "do"
      updateScope (·.declare (hidden ++ [x]))
      let body ← block fuel false
      return .count x start limit step body line
    else if (← isFixed ",") || (← isFixed "in") then
      checkRoom 3
      let names ← moreNames fuel 3 [x]
      expect "in"
      let callLine := (← get).current.line
      let values ← exprs fuel []
      expect "do"
      updateScope (·.declare (hidden ++ names))
      let body ← block fuel false
      return .each names values body callLine
    else fail "'=' or 'in' expected"

def callOrAssign : Nat → Parse Stat
  | 0 => outOfFuel
  | fuel + 1 => do
    let e ← suffixed fuel
    if isCall e then return .call e
    else assignment fuel [e]

def assignment : Nat → List Expr → Parse Stat
  | 0, _ => outOfFuel
  | fuel + 1, targets => do
    if !(targets.head?.map isTarget).getD false then fail "syntax error"
    else if ← accept "," then
      let e ← suffixed fuel
      let s ← get
      if 200 ≤ s.level + targets.length then
        failAt s.current.line (s.scope.owner ++ " has more than 200 variable names") none
      else assignment fuel (e :: targets)
    else
      expect "="
      let values ← exprs fuel []
      return .assign targets.reverse values (← get).lastLine

end

def fuelFor (tokens : List Lexeme) : Nat := 16 * tokens.length + 64

def program (fuel : Nat) : Parse (List Stat) := do
  advance
  inFunction (.start true none) do
    let body ← deeper (statements fuel [])
    match (← get).current.token with
    | .done => return body
    | _ => expected "<eof>"

end Parser

/-- How messages show the name of a source. Names of files follow an `@` and lose their beginning
when they are long, other given names follow a `=`, and all else is quoted source text. -/
def shownName (name : ByteString) : ByteString :=
  match name.toList with
  | '=' :: rest => .ofList (rest.take 59)
  | '@' :: rest =>
    if 59 < rest.length then ⟨"..."⟩ ++ .ofList (rest.drop (rest.length - 56)) else .ofList rest
  | cs =>
    let line := (cs.takeWhile fun c => ' ' ≤ c).take 48
    let shown := if line.length < cs.length then line.take 45 ++ "...".toList else line
    ⟨"[string \""⟩ ++ .ofList shown ++ ⟨"\"]"⟩

def plainName (name : ByteString) : ByteString :=
  match name.toList with
  | '=' :: rest | '@' :: rest => .ofList rest
  | _ => name

def compile (name source : ByteString) : Except SyntaxError Chunk :=
  let shown := shownName name
  if source.toList.head? = some '\x1b' then
    .error ⟨plainName name ++ ⟨": cannot load incompatible bytecode"⟩⟩
  else
    let tokens := Lexer.tokens source
    let start : Parser.State :=
      ⟨shown, ⟨.done, .empty, 1⟩, tokens, 1, 0, .start true none⟩
    match (Parser.program (Parser.fuelFor tokens)).run start with
    | .ok (body, _) => .ok ⟨shown, body⟩
    | .error e => .error e

end ScenarioHost.Lua
