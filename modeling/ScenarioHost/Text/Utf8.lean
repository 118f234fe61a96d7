/-!
Byte strings and their reading as UTF-8. A byte string is kept as text whose characters all lie
below 256, one character per byte, so that ASCII text is its own byte string.
-/
namespace ScenarioHost

/-- A sequence of bytes, one character below 256 for each. -/
structure ByteString where
  chars : String
deriving DecidableEq, Inhabited, Hashable

/-- Where a byte string stops being UTF-8: after `validUpTo` bytes there comes an invalid
sequence of `length` bytes, or the string ends inside a character when there is no length. -/
structure Utf8Error where
  validUpTo : Nat
  length : Option Nat
deriving DecidableEq

namespace Utf8Error

def message (e : Utf8Error) : String :=
  match e.length with
  | some n =>
    "invalid utf-8 sequence of " ++ toString n ++ " bytes from index " ++ toString e.validUpTo
  | none => "incomplete utf-8 byte sequence from index " ++ toString e.validUpTo

end Utf8Error

namespace Utf8

def tail? (first : Nat) : Option (Nat × Nat × Nat) :=
  if first < 0x80 then some (0, 0x80, 0xBF)
  else if first < 0xC2 then none
  else if first < 0xE0 then some (1, 0x80, 0xBF)
  else if first = 0xE0 then some (2, 0xA0, 0xBF)
  else if first = 0xED then some (2, 0x80, 0x9F)
  else if first < 0xF0 then some (2, 0x80, 0xBF)
  else if first = 0xF0 then some (3, 0x90, 0xBF)
  else if first < 0xF4 then some (3, 0x80, 0xBF)
  else if first = 0xF4 then some (3, 0x80, 0x8F)
  else none

inductive Lead where
  | char (c : Char) (length : Nat)
  | invalid (length : Nat)
  | incomplete (length : Nat)

/-- Reads `count` more bytes of a character whose leading bits are `code`; the next byte has the
bounds `low` and `high`, later ones those of any tail byte. -/
def continued (code read low high : Nat) : Nat → List Char → Lead
  | 0, _ => .char (Char.ofNat code) read
  | _ + 1, [] => .incomplete read
  | count + 1, b :: rest =>
    if low ≤ b.toNat ∧ b.toNat ≤ high then
      continued (code * 64 + b.toNat % 64) (read + 1) 0x80 0xBF count rest
    else .invalid read

def lead (b : Char) (rest : List Char) : Lead :=
  match tail? b.toNat with
  | none => .invalid 1
  | some (0, _, _) => .char b 1
  | some (count, low, high) => continued (b.toNat % Nat.pow 2 (6 - count)) 1 low high count rest

/-- Decodes bytes; `skip` of them belong to a character that has been read. -/
def decodeFrom : (index skip : Nat) → List Char → List Char → Except Utf8Error (List Char)
  | _, _, acc, [] => .ok acc.reverse
  | index, skip + 1, acc, _ :: rest => decodeFrom (index + 1) skip acc rest
  | index, 0, acc, b :: rest =>
    match lead b rest with
    | .char c length => decodeFrom (index + 1) (length - 1) (c :: acc) rest
    | .invalid length => .error ⟨index, some length⟩
    | .incomplete _ => .error ⟨index, none⟩

def decodeLossyFrom : (skip : Nat) → List Char → List Char → List Char
  | _, acc, [] => acc.reverse
  | skip + 1, acc, _ :: rest => decodeLossyFrom skip acc rest
  | 0, acc, b :: rest =>
    match lead b rest with
    | .char c length => decodeLossyFrom (length - 1) (c :: acc) rest
    | .invalid length | .incomplete length =>
      decodeLossyFrom (length - 1) (Char.ofNat 0xFFFD :: acc) rest

def encodeChar (c : Char) : List Char :=
  let n := c.toNat
  if n < 0x80 then [c]
  else if n < 0x800 then [Char.ofNat (0xC0 + n / 64), Char.ofNat (0x80 + n % 64)]
  else if n < 0x10000 then
    [Char.ofNat (0xE0 + n / 4096), Char.ofNat (0x80 + n / 64 % 64), Char.ofNat (0x80 + n % 64)]
  else
    [Char.ofNat (0xF0 + n / 262144), Char.ofNat (0x80 + n / 4096 % 64),
      Char.ofNat (0x80 + n / 64 % 64), Char.ofNat (0x80 + n % 64)]

end Utf8

namespace ByteString

def empty : ByteString := ⟨""⟩

def toList (s : ByteString) : List Char := s.chars.toList

def ofList (cs : List Char) : ByteString := ⟨String.ofList cs⟩

def size (s : ByteString) : Nat := s.chars.length

def append (s t : ByteString) : ByteString := ⟨s.chars ++ t.chars⟩

instance : Append ByteString := ⟨append⟩

def ofText (s : String) : ByteString :=
  if s.toList.all (fun c => c.toNat < 0x80) then ⟨s⟩
  else ofList (s.toList.flatMap Utf8.encodeChar)

def toText? (s : ByteString) : Except Utf8Error String :=
  (Utf8.decodeFrom 0 0 [] s.toList).map String.ofList

def toTextLossy (s : ByteString) : String := String.ofList (Utf8.decodeLossyFrom 0 [] s.toList)

def less (s t : ByteString) : Bool := decide (s.chars < t.chars)

end ByteString

end ScenarioHost
