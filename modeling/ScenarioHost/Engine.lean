import ScenarioHost.Host.Interface
import ScenarioHost.Lua.Eval
import ScenarioHost.Lua.Library.Numbers
import ScenarioHost.Lua.Library.Strings
import ScenarioHost.Lua.Library.Tables

/-!
The engine that carries out tasks: each is one step that hands its parts to the engine with less
fuel. Fuel bounds how deep tasks nest, and a limit how often a loop goes round.
-/
namespace ScenarioHost.Engine

open Lua

/-- Calls of functions that may nest before the stack counts as full. -/
def depthLimit : Nat := 16000

variable (limit : Nat) (run : Evaluator)

def callBuiltin (s : Spot) (b : Builtin) (args : List Value) : Act Value (List Value) :=
  match b with
  | .base f => Library.callBase run limit s f args
  | .string f => Library.callString run s f args
  | .table f => Library.callTable run s f args
  | .math f => Library.callMath s f args
  | .bit f => Library.callBit s f args
  | .host f => Boundary.inScript s.env (Interface.callHost run s f args)
  | .control f => Boundary.inScript s.env (Interface.callControl run s f args)
  | .handle f => Boundary.inScript s.env (Interface.callHandle run s f args)
  | .construct => Boundary.inScript s.env do return [.table (← Classes.construct run s args)]
  | .errorText => Boundary.inScript s.env (Interface.errorText s.env args)

def callFunction (s : Spot) (f : Function) (args : List Value) : Act Value (List Value) :=
  match f with
  | .closure body chunk globals captured =>
    callClosure run s.env s.callers body chunk globals captured args
  | .builtin b => callBuiltin limit run s b args
  | .matches cursor => Library.nextMatch s cursor

def callValue (env : EnvironmentId) (site : Site) (f : Value) (args : List Value) :
    Act Value (List Value) :=
  let s : Spot := ⟨env, site, none⟩
  if depthLimit < site.depth then
    Act.raise (.string (Library.positionText site 1 ++ ⟨"stack overflow"⟩))
  else
    match f with
    | .function id => do
      match ← Act.readHeap env (·.function? id) with
      | some f => callFunction limit run s f args
      | none => s.raise (⟨"attempt to call "⟩ ++ described none f)
    | _ => do
      match ← Act.readHeap env fun h => h.handler f "__call" with
      | .function id => run .values (.call env site (.function id) (f :: args))
      | _ => s.raise (⟨"attempt to call "⟩ ++ described none f)

def step (k : Kind) (t : Task k) : Act Value k.Result :=
  match t with
  | .call env site f args => callValue limit run env site f args
  | .expr frame e => evalExpr run frame e
  | .stat frame s => evalStat run limit frame s
  | .block frame body => runBlock run limit frame body
  | .load env name source => loadChunk env name source

def engine (limit : Nat) : (fuel : Nat) → Evaluator
  | 0 => fun _ _ => Act.starve
  | fuel + 1 => fun k t => step limit (engine limit fuel) k t

def ample : Evaluator := engine 0x1000000000000000 0x1000000000000000

end ScenarioHost.Engine
