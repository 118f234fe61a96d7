import ScenarioHost.World
import ScenarioHost.Lua.Parser

/-!
What an interpreter is asked to do. Running a script is described by one non-recursive step that
hands every smaller task to an evaluator it is given.
-/
namespace ScenarioHost.Lua

/-- How a script spells the thing that an operation went wrong on. -/
structure Naming where
  kind : String
  name : ByteString

inductive Place where
  | host
  | script (chunk : ByteString) (line : Nat) (callee : Option Naming)

/-- The functions that called the current one, the nearest first. -/
structure Site where
  depth : Nat
  places : List Place

namespace Site

def outside : Site := ⟨0, []⟩

def push (s : Site) (p : Place) : Site := ⟨s.depth + 1, p :: s.places⟩

end Site

structure Frame where
  env : EnvironmentId
  chunk : ByteString
  globals : TableId
  locals : Variables
  upvalues : Variables
  varargs : List Value
  site : Site

/-- How a statement ends: the next one runs in a frame that may have more variables, and a jump
leaves from the frame it was met in. -/
inductive Flow where
  | next (frame : Frame)
  | broke
  | returned (values : List Value)
  | jumped (label : ByteString) (frame : Frame)

inductive Kind where
  | values
  | flow
  | loaded

abbrev Kind.Result : Kind → Type
  | .values => List Value
  | .flow => Flow
  | .loaded => Except SyntaxError FunctionId

inductive Task : Kind → Type where
  /-- Calls a value. -/
  | call (env : EnvironmentId) (site : Site) (f : Value) (args : List Value) : Task .values
  | expr (frame : Frame) (e : Expr) : Task .values
  | stat (frame : Frame) (s : Stat) : Task .flow
  | block (frame : Frame) (body : List Stat) : Task .flow
  /-- Compiles a source text to a function without calling it. -/
  | load (env : EnvironmentId) (name source : ByteString) : Task .loaded

/-- Carries out tasks. The error raised is a value of the script. -/
abbrev Evaluator := (k : Kind) → Task k → Act Value k.Result

/-- Where an operation takes place; a place in a script is shown in messages. -/
structure Spot where
  env : EnvironmentId
  callers : Site
  place : Option (ByteString × Nat)

namespace Spot

def site (s : Spot) (callee : Option Naming) : Site :=
  match s.place with
  | some (chunk, line) => s.callers.push (.script chunk line callee)
  | none => s.callers.push .host

def placeText (chunk : ByteString) (line : Nat) : ByteString :=
  chunk ++ ⟨":" ++ toString line ++ ": "⟩

def raise {α : Type} (s : Spot) (message : ByteString) : Act Value α :=
  match s.place with
  | some (chunk, line) => Act.raise (.string (placeText chunk line ++ message))
  | none => Act.raise (.string message)

end Spot

namespace Frame

def spot (fr : Frame) (line : Nat) : Spot := ⟨fr.env, fr.site, some (fr.chunk, line)⟩

def find (x : ByteString) : Variables → Option CellId
  | [] => none
  | (y, c) :: rest => if x = y then some c else find x rest

def restrict (fr : Frame) (n : Nat) : Frame :=
  { fr with locals := fr.locals.drop (fr.locals.length - n) }

def naming? (fr : Frame) : Expr → Option Naming
  | .name x =>
    if (find x fr.locals).isSome then some ⟨"local", x⟩
    else if (find x fr.upvalues).isSome then some ⟨"upvalue", x⟩
    else some ⟨"global", x⟩
  | .index _ (.string key) _ => some ⟨"field", key⟩
  | .method _ name _ _ => some ⟨"method", name⟩
  | .paren e => naming? fr e
  | _ => none

end Frame

def described (naming : Option Naming) (v : Value) : ByteString :=
  match naming with
  | some n => ⟨n.kind ++ " '"⟩ ++ n.name ++ ⟨"' (a " ++ v.typeName ++ " value)"⟩
  | none => ⟨"a " ++ v.typeName ++ " value"⟩

end ScenarioHost.Lua
