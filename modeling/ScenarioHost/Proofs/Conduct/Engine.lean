import ScenarioHost.Engine
import ScenarioHost.Proofs.Conduct.Interface

/-!
The engine is lawful beside an engine that is stopped at some task, as long as that one is stopped
at tasks of environments that are not free, at variables of them that scripts would set, and at
calls of functions whose affairs are not permitted.
-/
namespace ScenarioHost.Engine

open Lua
open Lua.Library

/-- The engine, stopped at the first task that `stop` picks in the world in which it begins. -/
def stopped (stop : (k : Kind) → Task k → World → Bool) (limit : Nat) : (fuel : Nat) → Evaluator
  | 0 => fun _ _ => Act.starve
  | fuel + 1 => fun k t w =>
    if stop k t w then @Outcome.starved _ _ w else step limit (stopped stop limit fuel) k t w

def Assigns (w : World) (script : EnvironmentId) : {k : Kind} → Task k → Prop
  | _, .call env _ (.function f) args =>
    (w.heap env).function? f = some (.builtin (.handle .setVariable)) ∧
      Scripts.receiver (w.heap env) args = .ok script
  | _, _ => False

def Calls (w : World) (b : Builtin) : {k : Kind} → Task k → Prop
  | _, .call env _ (.function f) _ => (w.heap env).function? f = some (.builtin b)
  | _, _ => False

variable {R : Regime} {run run' : Evaluator} (h : R.Lawful run run') (limit : Nat)

include h

/-- That functions which drive the session are there, or one that sets variables, is known from the
world in which it was looked up. -/
theorem bound_callFunction (s : Spot) (id : FunctionId) (f : Function) (args : List Value)
    {w : World} (hf : (w.heap s.env).function? id = some f)
    (hfree : ∀ script, Assigns w script (.call s.env s.callers (.function id) args) →
      R.Free (.code script))
    (hpermits : ∀ b affair, Calls w b (.call s.env s.callers (.function id) args) →
      b ∈ affair.functions → R.Permits affair) :
    (R.bound (.code s.env)).Holds w (fun _ => True) (callFunction limit run s f args)
      (callFunction limit run' s f args) := by
  cases f with
  | closure body chunk globals captured => exact (within_callClosure h s.env ..).holds w
  | builtin b =>
    cases b with
    | base f => exact (within_callBase h limit s f args).holds w
    | string f => exact (within_callString h s f args).holds w
    | table f => exact (within_callTable h s f args).holds w
    | math f => exact (within_callMath f).holds w
    | bit f => exact (within_callBit f).holds w
    | host f =>
      have hf (affair : Affair) : .host f ∈ affair.functions → R.Permits affair :=
        hpermits (.host f) affair hf
      exact (Boundary.within_inScript (Interface.within_callHost h s f args hf)).holds w
    | control f =>
      have hdrives : w.Drives s.env := ⟨id, f, hf⟩
      exact Boundary.bound_inScript (Interface.bound_callControl h s f args hdrives
        fun affair => hpermits (.control f) affair hf)
    | handle f =>
      refine Boundary.bound_inScript (Interface.bound_callHandle h s f args
        (fun affair => hpermits (.handle f) affair hf) ?_)
      rintro rfl script hreceiver
      exact hfree script ⟨hf, hreceiver⟩
    | construct =>
      refine (Boundary.within_inScript ?_).holds w
      exact .bind (Classes.within_construct s args h) fun t _ => .pure trivial
    | errorText => exact (Boundary.within_inScript (Interface.within_errorText args)).holds w
  | «matches» cursor => exact (within_nextMatch s cursor).holds w

theorem bound_callValue (e : EnvironmentId) (site : Site) (f : Value) (args : List Value)
    {w : World} (hfree : ∀ script, Assigns w script (.call e site f args) → R.Free (.code script))
    (hpermits : ∀ b affair, Calls w b (.call e site f args) → b ∈ affair.functions →
      R.Permits affair) :
    (R.bound (.code e)).Holds w (fun _ => True) (callValue limit run e site f args)
      (callValue limit run' e site f args) := by
  unfold callValue
  dsimp only
  split
  · exact (R.bound _).raise _
  · split
    · rename_i id
      refine Regime.look_heap ?_
      cases hf : (w.heap e).function? id with
      | none => exact (within_raise ⟨e, site, none⟩ _).holds w
      | some f => exact bound_callFunction h limit ⟨e, site, none⟩ id f args hf hfree hpermits
    · refine Regime.look_heap ?_
      split
      · exact (h.call ..).holds w
      · exact (within_raise ⟨e, site, none⟩ _).holds w

/-- One step of the engine is lawful as long as the engine for smaller tasks is. -/
theorem bound_step (k : Kind) (t : Task k) {w : World}
    (hfree : ∀ script, Assigns w script t → R.Free (.code script))
    (hpermits : ∀ b affair, Calls w b t → b ∈ affair.functions → R.Permits affair) :
    (R.bound (.code t.env)).Holds w (k.Stays t.env) (step limit run k t) (step limit run' k t) := by
  cases t with
  | call e site f args => exact bound_callValue h limit e site f args hfree hpermits
  | expr fr e => exact (within_evalExpr h fr e).holds w
  | stat fr s => exact (by_evalStat h limit fr s).holds w
  | block fr body => exact (by_runBlock h limit fr body).holds w
  | load e name source => exact (within_loadChunk e name source).holds w

omit h

theorem engine_eq_stopped (limit fuel : Nat) :
    engine limit fuel = stopped (fun _ _ _ => false) limit fuel := by
  induction fuel with
  | zero => rfl
  | succ fuel ih =>
    funext k t w
    unfold engine stopped
    rw [ih]
    rfl

structure Spares (R : Regime) (stop : (k : Kind) → Task k → World → Bool) : Prop where
  carries (limit fuel : Nat) : R.Carries (stopped stop limit fuel)
  tasks (k : Kind) (t : Task k) (w : World) : ¬ R.Free (.code t.env) → stop k t w = true
  assigned (k : Kind) (t : Task k) (w : World) (script : EnvironmentId) :
    Assigns w script t → ¬ R.Free (.code script) → stop k t w = true
  permitted (k : Kind) (t : Task k) (w : World) (b : Builtin) (affair : Affair) :
    Calls w b t → b ∈ affair.functions → ¬ R.Permits affair → stop k t w = true

variable {stop : (k : Kind) → Task k → World → Bool}

/-- By induction on the fuel: what the engine asks of itself has less of it. -/
theorem stopped_lawful_engine (hstop : Spares R stop) (limit fuel : Nat) :
    R.Lawful (stopped stop limit fuel) (engine limit fuel) := by
  induction fuel with
  | zero => exact ⟨hstop.carries limit 0, fun k t => .starve _, fun k t _ => rfl⟩
  | succ fuel ih =>
    refine ⟨hstop.carries limit (fuel + 1), fun k t => ⟨fun w => ?_⟩, fun k t ht => ?_⟩
    · cases hpicked : stop k t w with
      | true =>
        have hhalted :
            stopped stop limit (fuel + 1) k t w = (Act.starve : Act Value k.Result) w := by
          simp only [stopped, hpicked, if_true, Act.starve]
        exact (R.bound _).same hhalted ((R.bound _).starve _)
      | false =>
        have hstep : stopped stop limit (fuel + 1) k t w =
            step limit (stopped stop limit fuel) k t w := by
          simp only [stopped, hpicked, Bool.false_eq_true, if_false]
        refine (R.bound _).same hstep (bound_step ih limit k t ?_ ?_)
        -- a task that must not be carried out would have been picked
        · intro script hassigns
          by_contra hfree
          rw [hstop.assigned k t w script hassigns hfree] at hpicked
          cases hpicked
        · intro b affair hcalls hdoes
          by_contra hpermits
          rw [hstop.permitted k t w b affair hcalls hdoes hpermits] at hpicked
          cases hpicked
    · funext w
      simp only [stopped, hstop.tasks k t w ht, if_true, Act.starve]

end ScenarioHost.Engine
