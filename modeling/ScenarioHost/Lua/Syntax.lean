import ScenarioHost.Text.Utf8

/-!
Syntax trees of the script language. Expressions that can fail carry the line to blame.
-/
namespace ScenarioHost.Lua

inductive BinaryOp where
  | add | sub | mul | div | mod | pow | concat | eq | ne | lt | le | gt | ge
deriving DecidableEq

inductive UnaryOp where
  | minus | not | length
deriving DecidableEq

mutual

inductive Expr where
  | nil
  | boolean (b : Bool)
  | number (x : Float)
  | string (s : ByteString)
  | vararg
  | function (body : FunctionBody)
  | name (x : ByteString)
  | index (object key : Expr) (line : Nat)
  | call (callee : Expr) (args : List Expr) (line : Nat)
  | method (object : Expr) (name : ByteString) (args : List Expr) (line : Nat)
  | binary (op : BinaryOp) (left right : Expr) (line : Nat)
  | unary (op : UnaryOp) (operand : Expr) (line : Nat)
  | and (left right : Expr)
  | or (left right : Expr)
  | table (fields : List Field) (line : Nat)
  /-- An expression in parentheses: one value. -/
  | paren (e : Expr)

inductive Field where
  | positional (value : Expr)
  | keyed (key value : Expr)

inductive Stat where
  | localDecl (names : List ByteString) (values : List Expr)
  | assign (targets values : List Expr) (line : Nat)
  | call (e : Expr)
  | block (body : List Stat)
  | whileLoop (condition : Expr) (body : List Stat)
  | repeatLoop (body : List Stat) (condition : Expr)
  | branch (condition : Expr) (body otherwise : List Stat)
  | count (counter : ByteString) (start limit : Expr) (step : Option Expr) (body : List Stat)
      (line : Nat)
  | each (names : List ByteString) (values : List Expr) (body : List Stat) (line : Nat)
  | localFunction (name : ByteString) (body : FunctionBody)
  | ret (values : List Expr)
  | breakOut
  | jump (label : ByteString)
  | label (name : ByteString)

inductive FunctionBody where
  | mk (params : List ByteString) (vararg : Bool) (body : List Stat) (line : Nat)

end

instance : Inhabited Expr := ⟨.nil⟩
instance : Inhabited Stat := ⟨.breakOut⟩

namespace FunctionBody

def params : FunctionBody → List ByteString
  | mk params _ _ _ => params

def vararg : FunctionBody → Bool
  | mk _ vararg _ _ => vararg

def body : FunctionBody → List Stat
  | mk _ _ body _ => body

end FunctionBody

structure Chunk where
  name : ByteString
  body : List Stat

end ScenarioHost.Lua
