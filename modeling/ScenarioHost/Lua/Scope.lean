import ScenarioHost.Text.Utf8

/-!
What is known about the function and the block around a place of a program: the variables in
sight, the labels, and the jumps that have not found their label.
-/
namespace ScenarioHost.Lua

/-- A jump that has not found its label; a `break` has none. -/
structure PendingJump where
  label : Option ByteString
  line : Nat
  /-- Number of variables in sight. -/
  depth : Nat

structure Scope where
  vararg : Bool
  /-- Line of the function's beginning; the main program has none. -/
  line : Option Nat
  /-- Variables of the function in sight, the newest first. -/
  inSight : List ByteString
  /-- Number of variables in sight at the beginning of the block. -/
  base : Nat
  /-- The labels of the block. -/
  labels : List ByteString
  /-- In the order of the text. -/
  jumps : List PendingJump

namespace Scope

def start (vararg : Bool) (line : Option Nat) : Scope := ⟨vararg, line, [], 0, [], []⟩

def depth (s : Scope) : Nat := s.inSight.length

def declare (s : Scope) (xs : List ByteString) : Scope :=
  { s with inSight := xs.reverse ++ s.inSight }

def addJump (s : Scope) (label : Option ByteString) (line : Nat) : Scope :=
  { s with jumps := s.jumps ++ [⟨label, line, s.depth⟩] }

def enterBlock (s : Scope) : Scope := { s with base := s.depth, labels := [], jumps := [] }

def leaving (s : Scope) (isLoop : Bool) : List PendingJump :=
  s.jumps.filter fun j =>
    match j.label with
    | some x => !s.labels.contains x
    | none => !isLoop

/-- The scope after a block; jumps out of it stand where the block stands. -/
def leaveBlock (outer inner : Scope) (isLoop : Bool) : Scope :=
  { outer with
    jumps := outer.jumps ++ (inner.leaving isLoop).map fun j => { j with depth := outer.depth } }

def owner (s : Scope) : String :=
  match s.line with
  | some line => "function at line " ++ toString line
  | none => "main function"

def badJump? (s : Scope) (label : ByteString) (depth : Nat) : Option (PendingJump × ByteString) :=
  match s.jumps.find? fun j => j.label == some label && decide (j.depth < depth) with
  | some j => some (j, (s.inSight.reverse[j.depth]?).getD .empty)
  | none => none

def addLabel (s : Scope) (label : ByteString) : Scope :=
  { s with
    labels := label :: s.labels
    jumps := s.jumps.filter fun j => j.label != some label }

end Scope

end ScenarioHost.Lua
