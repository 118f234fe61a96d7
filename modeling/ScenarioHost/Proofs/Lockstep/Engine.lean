import ScenarioHost.Engine
import ScenarioHost.Proofs.Lockstep.Library

/-!
Watched engines. Such an engine stops where it is about to carry out a certain call, so that it
tells whether a task comes to that call, and in which world. It can be told from one that runs out of
fuel, since it may leave any other world there. Functions that handle errors of what they call are
carried out unwatched. For all else, an error of the call is an error of the task.
-/
namespace ScenarioHost

def Lua.Heap.builtin? (h : Lua.Heap) : Lua.Value → Option Builtin
  | .function f =>
    match h.function? f with
    | some (.builtin b) => some b
    | _ => none
  | _ => none

def Builtin.screens : Builtin → Bool
  | .base f => Lua.Library.handling f
  | .host _ | .control _ | .handle _ | .construct => true
  | _ => false

namespace Engine

open Lua
open Lua.Library

/-- A call that an engine with some fuel is asked to carry out. -/
structure Call where
  fuel : Nat
  env : EnvironmentId
  site : Site
  f : Value
  args : List Value

namespace Call

def task (c : Call) : Task .values := .call c.env c.site c.f c.args

def run (limit : Nat) (c : Call) : Act Value (List Value) := engine limit c.fuel .values c.task

end Call

structure Watch where
  call : Call
  sees : Call → World → Bool
  only (c : Call) (w : World) : sees c w = true → c = call

def watched (screen : Builtin → Bool) (watch : Watch) (limit : Nat) (stop : World → World) :
    (fuel : Nat) → Evaluator
  | 0 => fun _ _ => Act.starve
  | fuel + 1 => fun k t w =>
    match k, t with
    | _, .call env site f args =>
      if watch.sees ⟨fuel + 1, env, site, f, args⟩ w then @Outcome.starved _ _ (stop w)
      else if ((w.heap env).builtin? f).any screen then
        engine limit (fuel + 1) .values (.call env site f args) w
      else step limit (watched screen watch limit stop fuel) .values (.call env site f args) w
    | k, t => step limit (watched screen watch limit stop fuel) k t w

section Calls

variable (limit : Nat) (run : Evaluator) (env : EnvironmentId) {site : Site}
  (hdepth : ¬ depthLimit < site.depth)

include hdepth

theorem call_value (f : Value) (args : List Value) :
    callValue limit run env site f args =
      (match f with
      | .function id => do
        match ← Act.readHeap env (·.function? id) with
        | some f => callFunction limit run ⟨env, site, none⟩ f args
        | none => Spot.raise ⟨env, site, none⟩ (⟨"attempt to call "⟩ ++ described none f)
      | _ => do
        match ← Act.readHeap env fun h => h.handler f "__call" with
        | .function id => run .values (.call env site (.function id) (f :: args))
        | _ => Spot.raise ⟨env, site, none⟩ (⟨"attempt to call "⟩ ++ described none f)) :=
  if_neg hdepth

theorem call_function {id : FunctionId} (args : List Value) {w : World} {f : Function}
    (hf : (w.heap env).function? id = some f) :
    callValue limit run env site (.function id) args w =
      callFunction limit run ⟨env, site, none⟩ f args w := by
  rw [call_value limit run env hdepth]
  simp only [Act.bind_apply, Act.readHeap, Act.read, hf]

end Calls

section Steps

variable {γ : Type} {r : World → Outcome Value γ} {run : (World → World) → Evaluator}
  {run' : Evaluator} (h : Evaluator.Cuts r run run') (limit : Nat)

include h

theorem cut_callBuiltin (s : Spot) (b : Builtin) (args : List Value) (hb : b.screens = false) :
    Act.Cut r (fun stop => callBuiltin limit (run stop) s b args)
      (callBuiltin limit run' s b args) := by
  cases b with
  | base f => exact cut_callBase h limit s f args hb
  | string f => exact cut_callString h s f args
  | table f => exact cut_callTable h s f args
  | host f | control f | handle f | construct => exact Bool.noConfusion hb
  | _ => exact .same _

theorem cut_callFunction (s : Spot) (f : Function) (args : List Value)
    (hf : ∀ b, f = .builtin b → b.screens = false) :
    Act.Cut r (fun stop => callFunction limit (run stop) s f args)
      (callFunction limit run' s f args) := by
  cases f with
  | closure body chunk globals captured => exact cut_callClosure h ..
  | builtin b => exact cut_callBuiltin h limit s b args (hf b rfl)
  | «matches» cursor => exact .same _

/-- Whether a function is a screen is known from the world in which it is looked up. -/
theorem cut_callValue (env : EnvironmentId) (site : Site) (f : Value) (args : List Value)
    {w : World} (hf : ((w.heap env).builtin? f).any Builtin.screens = false) :
    Outcome.Cut r (fun stop => callValue limit (run stop) env site f args w)
      (callValue limit run' env site f args w) := by
  by_cases hdepth : depthLimit < site.depth
  · unfold callValue
    simp only [if_pos hdepth]
    exact .same _
  · simp only [call_value limit _ env hdepth]
    cases f with
    | function id =>
      simp only [Act.bind_apply, Act.readHeap, Act.read]
      cases hfun : (w.heap env).function? id with
      | some f =>
        refine (cut_callFunction h limit _ f args fun b hb => ?_).cut w
        subst hb
        simpa only [Heap.builtin?, hfun, Option.any_some] using hf
      | none => exact .same _
    | _ =>
      refine (Act.Cut.same_then fun handler => ?_).cut w
      cases handler with
      | function id => exact h ..
      | _ => exact .same _

end Steps

/-- A watched engine is the engine, cut short at the call that it looks out for. -/
theorem watched_cuts (watch : Watch) (limit fuel : Nat) :
    Evaluator.Cuts (watch.call.run limit)
      (fun stop => watched Builtin.screens watch limit stop fuel) (engine limit fuel) := by
  induction fuel with
  | zero => exact fun k t => .same _
  | succ fuel ih =>
    intro k t
    constructor
    intro w
    cases t with
    | call env site f args =>
      simp only [watched]
      split
      · rename_i hsees
        -- here the watched engine stops; the engine goes on with the very call
        have hcall := watch.only _ w hsees
        refine .short w _ fun e w' h => ?_
        rwa [← hcall] at h
      · split
        · exact .same _ -- behind a screen both are the engine
        · rename_i hscreen
          exact cut_callValue ih limit env site f args (Bool.not_eq_true _ ▸ hscreen)
    | expr fr e => exact (cut_evalExpr ih fr e).cut w
    | stat fr s => exact (cut_evalStat ih limit fr s).cut w
    | block fr body => exact (cut_runBlock ih limit fr body).cut w
    | load env name source => exact .same _

end Engine

end ScenarioHost
