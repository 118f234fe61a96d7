import ScenarioHost.Lua.Numeral

/-!
Tokens of the script language. Source text is read byte by byte; a lexical error is a token of its
own, so that it counts only when the parser gets there.
-/
namespace ScenarioHost.Lua

inductive Token where
  | name (text : ByteString)
  | string (value : ByteString)
  | number (value : Float)
  /-- A reserved word, an operator or a single character. -/
  | fixed (text : String)
  | done
  /-- What is no token: the message, and the text it is reported near. -/
  | bad (message : String) (near : Option ByteString)

structure Lexeme where
  token : Token
  written : ByteString
  line : Nat

namespace Lexer

def reserved : List String :=
  ["and", "break", "do", "else", "elseif", "end", "false", "for", "function", "goto", "if", "in",
    "local", "nil", "not", "or", "repeat", "return", "then", "true", "until", "while"]

def operators3 : List String := ["..."]

def operators2 : List String := ["..", "==", "<=", ">=", "~=", "::"]

/-- Letters, digits, `_` and all bytes from 128 on. -/
def isNameChar (c : Char) : Bool :=
  isDigit c || ('a' ≤ c && c ≤ 'z') || ('A' ≤ c && c ≤ 'Z') || c = '_' || 128 ≤ c.toNat

def isLineEnd (c : Char) : Bool := c = '\n' || c = '\r'

/-- The rest after a line end; two different line end characters in a row are one. -/
def afterLineEnd : List Char → List Char
  | '\r' :: '\n' :: rest => rest
  | '\n' :: '\r' :: rest => rest
  | _ :: rest => rest
  | [] => []

def longLevel? (cs : List Char) : Option (Nat × List Char) :=
  match cs.dropWhile (· = '=') with
  | '[' :: rest => some ((cs.takeWhile (· = '=')).length, rest)
  | _ => none

def closes? (level : Nat) (cs : List Char) : Option (List Char) :=
  match cs.drop level with
  | ']' :: rest => if cs.take level = List.replicate level '=' then some rest else none
  | _ => none

/-- Text up to the closing bracket, the line reached, and the rest; none when it never comes. -/
def longBody (level : Nat) : (fuel line : Nat) → (acc : List Char) → List Char →
    Option (List Char) × Nat × List Char
  | 0, line, _, cs => (none, line, cs)
  | _ + 1, line, _, [] => (none, line, [])
  | fuel + 1, line, acc, c :: rest =>
    if c = ']' then
      match closes? level rest with
      | some after => (some acc.reverse, line, after)
      | none => longBody level fuel line (c :: acc) rest
    else if isLineEnd c then longBody level fuel (line + 1) ('\n' :: acc) (afterLineEnd (c :: rest))
    else longBody level fuel line (c :: acc) rest

/-- A long string after its opening bracket; a line end right there is dropped. -/
def longString (level line : Nat) (cs : List Char) : Option (List Char) × Nat × List Char :=
  match cs with
  | c :: _ =>
    if isLineEnd c then longBody level (cs.length + 1) (line + 1) [] (afterLineEnd cs)
    else longBody level (cs.length + 1) line [] cs
  | [] => (none, line, [])

inductive Escape where
  | bytes (cs rest : List Char)
  | lineEnd (rest : List Char)
  | skip (rest : List Char)
  | invalid

def hexEscape (cs : List Char) : Escape :=
  match cs with
  | a :: b :: rest =>
    match digitValue? 16 a, digitValue? 16 b with
    | some x, some y => .bytes [Char.ofNat (16 * x + y)] rest
    | _, _ => .invalid
  | _ => .invalid

def codePointEscape (cs : List Char) : Escape :=
  match cs with
  | '\x7b' :: rest =>
    let digits := rest.takeWhile fun c => (digitValue? 16 c).isSome
    match rest.dropWhile fun c => (digitValue? 16 c).isSome with
    | '\x7d' :: after =>
      let n := digitsValue 16 digits
      if digits.isEmpty ∨ 0x110000 ≤ n then .invalid
      else if 0xD800 ≤ n ∧ n < 0xE000 then
        .bytes [Char.ofNat (0xE0 + n / 4096), Char.ofNat (0x80 + n / 64 % 64),
          Char.ofNat (0x80 + n % 64)] after
      else .bytes (Utf8.encodeChar (Char.ofNat n)) after
    | _ => .invalid
  | _ => .invalid

def decimalEscape (cs : List Char) : Escape :=
  let digits := (cs.take 3).takeWhile isDigit
  let n := digitsValue 10 digits
  if digits.isEmpty ∨ 255 < n then .invalid
  else .bytes [Char.ofNat n] (cs.drop digits.length)

def escape : List Char → Escape
  | [] => .skip []
  | c :: rest =>
    match c with
    | 'a' => .bytes ['\x07'] rest
    | 'b' => .bytes ['\x08'] rest
    | 'f' => .bytes ['\x0c'] rest
    | 'n' => .bytes ['\n'] rest
    | 'r' => .bytes ['\r'] rest
    | 't' => .bytes ['\t'] rest
    | 'v' => .bytes ['\x0b'] rest
    | 'x' => hexEscape rest
    | 'u' => codePointEscape rest
    | 'z' => .skip rest
    | _ =>
      if isLineEnd c then .lineEnd (afterLineEnd (c :: rest))
      else if c = '\\' ∨ c = '\x22' ∨ c = '\x27' then .bytes [c] rest
      else decimalEscape (c :: rest)

def skipBlanks : (fuel line : Nat) → List Char → Nat × List Char
  | 0, line, cs => (line, cs)
  | _ + 1, line, [] => (line, [])
  | fuel + 1, line, c :: rest =>
    if isLineEnd c then skipBlanks fuel (line + 1) (afterLineEnd (c :: rest))
    else if isSpace c then skipBlanks fuel line rest
    else (line, c :: rest)

def quoted (quote : Char) : (fuel line : Nat) → (acc : List Char) → List Char →
    Token × ByteString × Nat × List Char
  | 0, line, _, cs => (.bad "unfinished string" none, .empty, line, cs)
  | fuel + 1, line, acc, cs =>
    let read : ByteString := .ofList (quote :: acc.reverse)
    match cs with
    | [] => (.bad "unfinished string" (some ⟨"<eof>"⟩), .empty, line, [])
    | c :: rest =>
      if c = quote then
        (.string (.ofList acc.reverse), .ofList (quote :: acc.reverse ++ [quote]), line, rest)
      else if isLineEnd c then (.bad "unfinished string" (some read), read, line, cs)
      else if c = '\\' then
        match escape rest with
        | .bytes bytes after => quoted quote fuel line (bytes.reverse ++ acc) after
        | .lineEnd after => quoted quote fuel (line + 1) ('\n' :: acc) after
        | .skip after =>
          let (line, after) := skipBlanks (after.length + 1) line after
          quoted quote fuel line acc after
        | .invalid => (.bad "invalid escape sequence" (some read), read, line, cs)
      else quoted quote fuel line (c :: acc) rest

def numeralChars (mark : Char) : (last : Char) → List Char → List Char
  | _, [] => []
  | last, c :: rest =>
    if isNameChar c || c = '.' || ((c = '-' || c = '+') && lowerAscii last = mark) then
      c :: numeralChars mark c rest
    else []

def number (line : Nat) (cs : List Char) : Lexeme × Nat × List Char :=
  let mark :=
    match cs with
    | '0' :: 'x' :: _ | '0' :: 'X' :: _ => 'p'
    | _ => 'e'
  let written := numeralChars mark '0' cs
  let text : ByteString := .ofList written
  let token :=
    match numberOfString? text with
    | some x => Token.number x
    | none => Token.bad "malformed number" (some text)
  (⟨token, text, line⟩, line, cs.drop written.length)

def fixedToken (line : Nat) (cs : List Char) : Lexeme × Nat × List Char :=
  let pick (n : Nat) (table : List String) : Option String :=
    table.find? fun op => op.toList = cs.take n
  let text :=
    match pick 3 operators3 with
    | some op => op
    | none =>
      match pick 2 operators2 with
      | some op => op
      | none => String.ofList (cs.take 1)
  (⟨.fixed text, ⟨text⟩, line⟩, line, cs.drop text.length)

def next : (fuel line : Nat) → List Char → Lexeme × Nat × List Char
  | 0, line, cs => (⟨.done, .empty, line⟩, line, cs)
  | _ + 1, line, [] => (⟨.done, .empty, line⟩, line, [])
  | fuel + 1, line, c :: rest =>
    if isLineEnd c then next fuel (line + 1) (afterLineEnd (c :: rest))
    else if isSpace c then next fuel line rest
    else if isDigit c then number line (c :: rest)
    else if isNameChar c then
      let word := (c :: rest).takeWhile isNameChar
      let after := (c :: rest).dropWhile isNameChar
      let text := String.ofList word
      let token := if reserved.contains text then Token.fixed text else .name ⟨text⟩
      (⟨token, ⟨text⟩, line⟩, line, after)
    else
      match c, rest with
      | '-', '-' :: more =>
        let comment := fun (_ : Unit) => next fuel line (more.dropWhile fun c => !isLineEnd c)
        match more with
        | '[' :: after =>
          match longLevel? after with
          | some (level, body) =>
            match longString level line body with
            | (some _, line, after) => next fuel line after
            | (none, line, after) =>
              (⟨.bad "unfinished long comment" (some ⟨"<eof>"⟩), .empty, line⟩, line, after)
          | none => comment ()
        | _ => comment ()
      | '[', more =>
        match longLevel? more with
        | some (level, body) =>
          match longString level line body with
          | (some text, line, after) =>
            let marks := List.replicate level '='
            let written := '[' :: marks ++ '[' :: text ++ ']' :: marks ++ [']']
            (⟨.string (.ofList text), .ofList written, line⟩, line, after)
          | (none, line, after) =>
            (⟨.bad "unfinished long string" (some ⟨"<eof>"⟩), .empty, line⟩, line, after)
        | none =>
          if more.head? = some '=' then
            let read := ByteString.ofList ('[' :: more.takeWhile (· = '='))
            (⟨.bad "invalid long string delimiter" (some read), read, line⟩, line, more)
          else fixedToken line (c :: rest)
      | '.', d :: _ => if isDigit d then number line (c :: rest) else fixedToken line (c :: rest)
      | '\x22', _ | '\x27', _ =>
        let (token, written, line, after) := quoted c (rest.length + 1) line [] rest
        (⟨token, written, line⟩, line, after)
      | _, _ => fixedToken line (c :: rest)

def all : (fuel line : Nat) → List Char → List Lexeme
  | 0, line, _ => [⟨.done, .empty, line⟩]
  | fuel + 1, line, cs =>
    let (lexeme, line, rest) := next (cs.length + 1) line cs
    match lexeme.token with
    | .done | .bad .. => [lexeme]
    | _ => lexeme :: all fuel line rest

def dropHeading (cs : List Char) : List Char :=
  let cs :=
    match cs with
    | '\xef' :: '\xbb' :: '\xbf' :: rest => rest
    | _ => cs
  match cs with
  | '#' :: _ => cs.dropWhile fun c => !isLineEnd c
  | _ => cs

def tokens (source : ByteString) : List Lexeme :=
  let cs := dropHeading source.toList
  all (cs.length + 1) 1 cs

end Lexer

end ScenarioHost.Lua
