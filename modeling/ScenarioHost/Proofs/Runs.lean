import ScenarioHost.Headless
import ScenarioHost.Proofs.Conduct.Reaching

/-!
Runs. A host takes one step after the other: it makes environments and holds them, asks them for
things, invokes callbacks and changes what is its own. `run` carries a list of steps out; under an
engine that is stopped at some task it ends in the world of that moment.
-/
namespace ScenarioHost.Host

open Lua (Evaluator Heap Table TableId Value)
open Lua (within_attempt within_update_heap)

inductive Request where
  | runFile (path : String)
  | runLocalized (path : String)
  | requireModule (name : String)
  | hasFunction (name : String)
  | callGlobal (name : String) (args : List Value)
  | getGlobal (name : String)
  | setGlobal (name : String) (v : Value)
  | evaluate (name : String) (source : ByteString)
  | addTable (t : Table)
  | runScenario (entry : String) (ticks : Nat) (delta : Single)
  | boundNames (names : List String)

structure Belongings where
  library : Library
  catalog : Catalog
  entities : Entities
  console : Console
  journal : List JournalLine

inductive HostStep where
  /-- Makes an environment and holds it. -/
  | create
  | ask (e : EnvironmentId) (r : Request)
  /-- Lets a held environment go. -/
  | drop (e : EnvironmentId)
  /-- Adds functions of the host's own to a held environment. -/
  | define (e : EnvironmentId) (functions : List (String × ControlFunction))
  /-- Leaves a held environment to those functions, one of which lets it go. -/
  | lend (e : EnvironmentId)
  /-- Gives a held environment to the session. -/
  | give (e : EnvironmentId)
  | invoke (c : Callback) (args : List Value)
  | runButton (i : Nat)
  | firePlayerShip (ship : Nat)
  | selectReply (i source target : Nat)
  | session (op : SessionOp)
  | victory (faction : String)
  | clearScripts
  | endSession
  | equip (b : Belongings)

def settled {ε α : Type} (x : Act ε α) : Act Empty Unit := do
  let _ ← x.attempt
  return ()

def equipped (w : World) (b : Belongings) : World :=
  { w with
    library := b.library, catalog := b.catalog, entities := b.entities, console := b.console
    journal := b.journal }

def driving (functions : List (String × ControlFunction)) (x : Environment) : Environment :=
  { x with
    heap := Lua.Library.bindAll x.heap x.globals (Lua.Library.named .control functions) }

def controlled (w : World) (e : EnvironmentId) (functions : List (String × ControlFunction)) :
    World :=
  w.modifyEnvironment e (driving functions)

def lending (w : World) (e : EnvironmentId) : World := { w with lent := e :: w.lent }

def adding (w : World) (e : EnvironmentId) : World := w.modifySession fun s => s.addScript e

def giving (w : World) (e : EnvironmentId) : World :=
  if w.session.isSome then adding w e else w.destroy e

variable (run : Evaluator)

def Request.perform (e : EnvironmentId) : Request → Act Empty Unit
  | .runFile path => settled (Loading.runFile run e .outside path)
  | .runLocalized path => settled (Loading.runLocalized run e .outside path)
  | .requireModule name => settled (Loading.requireModule run e .outside name)
  | .hasFunction name => settled (Boundary.hasFunction run e .outside name : Act Empty Bool)
  | .callGlobal name args => settled (Boundary.callGlobal run e .outside name args)
  | .getGlobal name => settled (Boundary.getGlobal run e .outside name)
  | .setGlobal name v => settled (Boundary.setGlobal run e .outside name v)
  | .evaluate name source => settled (Loading.evaluate run e .outside name source)
  | .addTable t => Act.updateHeap e (·.addTable t)
  | .runScenario entry ticks delta =>
    settled (Headless.runScenario run e entry ticks delta : Act Empty Bool)
  | .boundNames names => settled (Headless.boundNames run e names : Act Empty (List String))

def HostStep.perform (held : List EnvironmentId) : HostStep → Act Empty (List EnvironmentId)
  | .create => do
    match ← (Environments.create run .outside).attempt with
    | .ok e => return e :: held
    | .error _ => return held
  | .ask e r =>
    if e ∈ held then do
      r.perform run e
      return held
    else return held
  | .drop e =>
    if e ∈ held then do
      Act.update (·.destroy e)
      return held.filter (· ≠ e)
    else return held
  | .define e functions =>
    if e ∈ held then do
      Environments.define e functions
      return held
    else return held
  | .lend e =>
    if e ∈ held then do
      Act.update fun w => lending w e
      return held.filter (· ≠ e)
    else return held
  | .give e =>
    if e ∈ held then do
      Act.update fun w => giving w e
      return held.filter (· ≠ e)
    else return held
  | .invoke c args => do
    settled (Callbacks.invoke run .outside c args)
    return held
  | .runButton i => do
    settled (Callbacks.runButton run .outside i)
    return held
  | .firePlayerShip ship => do
    settled (Callbacks.firePlayerShip run .outside ship)
    return held
  | .selectReply i source target => do
    settled (Callbacks.selectReply run .outside i source target)
    return held
  | .session op => do
    Act.update fun w => w.modifySession op.apply
    return held
  | .victory faction => do
    Act.update fun w => Interface.declareVictory w faction
    return held
  | .clearScripts => do
    Act.update World.clearScripts
    return held
  | .endSession => do
    Act.update World.endSession
    return held
  | .equip b => do
    Act.update fun w => equipped w b
    return held

def performAll (held : List EnvironmentId) : List HostStep → Act Empty (List EnvironmentId)
  | [] => return held
  | s :: rest => do
    let held ← s.perform run held
    performAll held rest

inductive Commands (held : List EnvironmentId) : Agent → Prop where
  | host : Commands held .host
  | code {e : EnvironmentId} : e ∈ held → Commands held (.code e)

inductive Advances :
    List EnvironmentId → World → List EnvironmentId → World → Prop where
  | refl (held : List EnvironmentId) (w : World) : Advances held w held w
  | trans {held held' held'' : List EnvironmentId} {w w' w'' : World} :
      Advances held w held' w' → Advances held' w' held'' w'' → Advances held w held'' w''
  | act {held : List EnvironmentId} {a : Agent} {w w' : World} :
      Commands held a → Reaches a w w' → Advances held w held w'
  | create {held : List EnvironmentId} {w w' : World} :
      Reaches (.code w.nextEnvironment) w.extended w' →
      Advances held w (w.nextEnvironment :: held) w'
  | drop {held : List EnvironmentId} {e : EnvironmentId} (w : World) : e ∈ held →
      Advances held w (held.filter (· ≠ e)) (w.destroy e)
  | define {held : List EnvironmentId} {e : EnvironmentId} (w : World)
      (functions : List (String × ControlFunction)) : e ∈ held →
      Advances held w held (controlled w e functions)
  | lend {held : List EnvironmentId} {e : EnvironmentId} (w : World) : e ∈ held →
      Advances held w (held.filter (· ≠ e)) (lending w e)
  | give {held : List EnvironmentId} {e : EnvironmentId} (w : World) : e ∈ held →
      Advances held w (held.filter (· ≠ e)) (giving w e)
  | endSession (held : List EnvironmentId) (w : World) : Advances held w held w.endSession
  | equip (held : List EnvironmentId) (w : World) (b : Belongings) :
      Advances held w held (equipped w b)

inductive Sights : List EnvironmentId → World → World → Prop where
  | here (held : List EnvironmentId) (w : World) : Sights held w w
  | later {held held' : List EnvironmentId} {w w' w'' : World} :
      Advances held w held' w' → Sights held' w' w'' → Sights held w w''
  | act {held : List EnvironmentId} {a : Agent} {w w' : World} :
      Commands held a → Passes a w w' → Sights held w w'
  | create {held : List EnvironmentId} {w w' : World} :
      Passes (.code w.nextEnvironment) w.extended w' → Sights held w w'

def Advanced (held : List EnvironmentId) (w : World) :
    Outcome Empty (List EnvironmentId) → Prop
  | .done held' w' => Advances held w held' w'
  | .raised _ _ => False
  | @Outcome.starved _ _ w' => Sights held w w'

/-- Giving an environment to the session keeps what adding it there and letting it go keep. -/
theorem kept_by_giving {T : World → World → Prop} {e : EnvironmentId} {w : World}
    (hadding : T w (adding w e)) (hdestroy : T w (w.destroy e)) : T w (giving w e) := by
  unfold giving
  split
  · exact hadding
  · exact hdestroy

structure Lasting (T : World → World → Prop) : Prop extends ScenarioHost.Lasting T where
  controlled (e : EnvironmentId) (functions : List (String × ControlFunction)) (w : World) :
    T w (controlled w e functions)
  lending (e : EnvironmentId) (w : World) : T w (lending w e)
  adding (e : EnvironmentId) (w : World) : T w (adding w e)
  endSession (w : World) : T w w.endSession
  equipped (w : World) (b : Belongings) : T w (equipped w b)

namespace Lasting

variable {T : World → World → Prop} (h : Lasting T) {held held' : List EnvironmentId} {w w' : World}

include h

theorem advances (ha : Advances held w held' w') : T w w' := by
  induction ha with
  | refl held w => exact h.refl w
  | trans _ _ first second => exact h.trans first second
  | act _ hr => exact h.reaches hr
  | create hr => exact h.trans (h.extended _) (h.reaches hr)
  | drop w _ => exact h.destroy _ w
  | define w functions _ => exact h.controlled _ functions w
  | lend w _ => exact h.lending _ w
  | give w _ => exact kept_by_giving (h.adding _ w) (h.destroy _ w)
  | endSession held w => exact h.endSession w
  | equip held w b => exact h.equipped w b

theorem sights (hs : Sights held w w') : T w w' := by
  induction hs with
  | here held w => exact h.refl w
  | later ha _ ih => exact h.trans (h.advances ha) ih
  | act _ hp => exact h.passes hp
  | create hp => exact h.trans (h.extended _) (h.passes hp)

theorem advanced {o : Outcome Empty (List EnvironmentId)} (ho : Advanced held w o) :
    T w o.world := by
  cases o with
  | done held' w' => exact h.advances ho
  | raised impossible => exact impossible.elim
  | starved => exact h.sights ho

end Lasting

/-! Requests of a host. -/

section Requests

variable {R : Regime} {a : Agent} {e : EnvironmentId} {run run' : Evaluator}

theorem by_settled {ε α : Type} {x y : Act ε α} (hx : R.By a (fun _ => True) x y) :
    R.By a (fun _ => True) (settled x) (settled y) :=
  .bind hx.settle fun _ _ => .pure trivial

variable (h : R.Lawful run run')

include h

theorem within_checked {ε : Type} {t : Headless.Attempt}
    (ht : R.Beside e (t.perform run e .outside) (t.perform run' e .outside)) :
    R.Beside e (Headless.checked (t.perform run e .outside) : Act ε Bool)
      (Headless.checked (t.perform run' e .outside)) :=
  Law.admits_given_iff.mpr fun he => R.attempt h.carried (ht.law he)

theorem within_callChecked {ε : Type} (name : String) (args : List Value) :
    R.Beside e (Headless.callChecked run e name args : Act ε Bool)
      (Headless.callChecked run' e name args : Act ε Bool) := by
  have hcall := within_checked h (e := e) (ε := ε) (t := .function name args)
    (((Boundary.within_callGlobal h .outside name args).map_error).discard)
  unfold Headless.Attempt.perform at hcall
  rwa [Headless.checked_discard, Headless.checked_discard] at hcall

/-- Time is in the hands of the host, also while it has scripts run. -/
theorem within_ticks {ε : Type} {delta : Single}
    (hadvance : R.Within e (Act.update fun w => w.modifySession fun s => s.advance delta :
      Act ε Unit)) (count : Nat) :
    R.Beside e (Headless.ticks run e delta count : Act ε Bool)
      (Headless.ticks run' e delta count : Act ε Bool) := by
  induction count with
  | zero => exact .pure trivial
  | succ count ih =>
    unfold Headless.ticks
    refine .bind (Regime.by_look fun _ _ _ => rfl) fun paused _ => ?_
    split
    · exact .pure trivial
    · refine .bind hadvance fun _ _ => ?_
      refine .bind (within_callChecked h ..) fun ok _ => ?_
      split
      · exact ih
      · exact .pure trivial

theorem within_runScenario {ε : Type} (entry : String) {delta : Single}
    (hoverlay : R.Permits .overlay)
    (hadvance : R.Within e (Act.update fun w => w.modifySession fun s => s.advance delta :
      Act ε Unit)) (count : Nat) :
    R.Beside e (Headless.runScenario run e entry count delta : Act ε Bool)
      (Headless.runScenario run' e entry count delta : Act ε Bool) := by
  have init : R.Beside e (Headless.callInit run e : Act ε Bool)
      (Headless.callInit run' e : Act ε Bool) := by
    refine .bind (Boundary.within_hasFunction h ..) fun found _ => ?_
    split
    · exact within_callChecked h ..
    · exact .pure trivial
  have hentry : R.Beside e
      (Headless.checked (Loading.runLocalized run e .outside entry) : Act ε Bool)
      (Headless.checked (Loading.runLocalized run' e .outside entry)) :=
    within_checked h (t := .module entry)
      (Regime.by_of_law (Loading.law_load h .outside entry (l := .localized) fun _ => hoverlay))
  unfold Headless.runScenario
  refine .bind hentry fun loaded _ => ?_
  split
  · refine .bind init fun started _ => ?_
    split
    · refine .bind (Boundary.within_hasFunction h ..) fun found _ => ?_
      split
      · exact within_ticks h hadvance count
      · exact .pure trivial
    · exact .pure trivial
  · exact .pure trivial

theorem within_boundNames {ε : Type} (names : List String) :
    R.Beside e (Headless.boundNames run e names : Act ε (List String))
      (Headless.boundNames run' e names : Act ε (List String)) := by
  induction names with
  | nil => exact .pure trivial
  | cons name rest ih =>
    refine .bind (Boundary.within_hasFunction h ..) fun found _ => ?_
    exact .bind ih fun others _ => .pure trivial

theorem within_request (r : Request) (hoverlay : R.Permits .overlay)
    (hadvance : ∀ delta, R.Within e (Act.update fun w => w.modifySession fun s => s.advance delta :
      Act Empty Unit)) :
    R.Beside e (r.perform run e) (r.perform run' e) := by
  have hload (path : String) (l : Loading.Loader) :
      R.Beside e (l.perform run e .outside path) (l.perform run' e .outside path) :=
    Regime.by_of_law (Loading.law_load h .outside path fun _ => hoverlay)
  cases r with
  | runFile path => exact by_settled (hload path .plain)
  | runLocalized path => exact by_settled (hload path .localized)
  | requireModule name => exact by_settled (hload name .required)
  | hasFunction name => exact by_settled (Boundary.within_hasFunction h ..)
  | callGlobal name args => exact by_settled (Boundary.within_callGlobal h ..)
  | getGlobal name => exact by_settled (Boundary.within_getGlobal h ..)
  | setGlobal name v => exact by_settled (Boundary.within_setGlobal h ..)
  | evaluate name source => exact by_settled (Regime.by_of_law (Loading.law_evaluate h ..))
  | addTable t => exact within_update_heap _ fun h => .add_table h t
  | runScenario entry ticks delta =>
    exact by_settled (within_runScenario h entry hoverlay (hadvance delta) ticks)
  | boundNames names => exact by_settled (within_boundNames h names)

end Requests

section Lawful

variable {run : Evaluator} {held : List EnvironmentId} {a : Agent} {w : World}

theorem advanced_of_by {x : Act Empty Unit} (ha : Commands held a)
    (hx : Regime.reaching.By a (fun _ => True) x x) :
    Advanced held w ((do x; return held) w) := by
  have hw := (course_reaches.keeps hx).upholds w
  rw [Act.bind_apply]
  cases h : x w with
  | done _ w' =>
    rw [h] at hw
    exact .act ha hw.1
  | raised impossible => exact impossible.elim
  | starved =>
    rw [h] at hw
    exact .act ha hw

variable (h : run.Lawful)

include h

omit h in
/-- An update of the world that the host can make by itself. -/
theorem advanced_of_update {f : World → World} (hf : Reaches .host w (f w)) :
    Advanced held w ((do Act.update f; return held) w) := .act .host hf

theorem advanced_create : Advanced held w (HostStep.create.perform run held w) := by
  have hmade := (Environments.made_create h .outside w).1
  have hnext := (Environments.made_create h .outside w).2
  rw [HostStep.perform, Act.bind_apply]
  unfold Act.attempt
  cases hrun : Environments.create run .outside w with
  | done e w' =>
    rw [hrun] at hmade
    obtain rfl := hnext e w' hrun
    exact .create hmade
  | raised message w' =>
    -- nothing is held of an environment that was given up
    rw [hrun] at hmade
    obtain ⟨message, w₀, hw₀, rfl⟩ := hmade
    exact .act .host (.abandon message hw₀)
  | starved =>
    rw [hrun] at hmade
    exact .create hmade

/-- Every step is among what a host can bring about. -/
theorem advanced_perform (s : HostStep) (held : List EnvironmentId) (w : World) :
    Advanced held w (s.perform run held w) := by
  have hinvocation (v : Callbacks.Invocation) : Regime.reaching.By .host (fun _ => True)
      (v.perform run .outside) (v.perform run .outside) :=
    Callbacks.by_invocation h.reaching .outside fun _ => trivial
  cases s with
  | create => exact advanced_create h
  | ask e r =>
    rw [HostStep.perform]
    split
    · rename_i he
      -- the host asks on behalf of the environment; only a scenario moves the clock
      refine advanced_of_by (.code he) (within_request h.reaching r trivial fun delta => ?_)
      exact course_reaches.by_of_keeps _ (.change fun w => .effect (.session _ w (.advance delta)))
    · exact .refl held w
  | drop e =>
    rw [HostStep.perform]
    split
    · rename_i he
      exact .drop w he
    · exact .refl held w
  | define e functions =>
    rw [HostStep.perform]
    split
    · rename_i he
      exact .define w functions he
    · exact .refl held w
  | lend e =>
    rw [HostStep.perform]
    split
    · rename_i he
      exact .lend w he
    · exact .refl held w
  | give e =>
    rw [HostStep.perform]
    split
    · rename_i he
      exact .give w he
    · exact .refl held w
  | invoke c args => exact advanced_of_by .host (by_settled (Callbacks.by_invoke h.reaching ..))
  | runButton i => exact advanced_of_by .host (by_settled (hinvocation (.button i)))
  | firePlayerShip ship => exact advanced_of_by .host (by_settled (hinvocation (.playerShip ship)))
  | selectReply i source target =>
    exact advanced_of_by .host (by_settled (hinvocation (.reply i source target)))
  | session op => exact advanced_of_update (.effect (.session .host w op))
  | victory faction =>
    refine advanced_of_update ?_
    exact .trans (.effect (.journal _ w _)) (.effect (.session _ _ (.victory faction)))
  | clearScripts => exact advanced_of_update (.effect (.clearScripts w))
  | endSession => exact .endSession held w
  | equip b => exact .equip held w b

theorem advanced_performAll (steps : List HostStep) (held : List EnvironmentId) (w : World) :
    Advanced held w (performAll run held steps w) := by
  induction steps generalizing held w with
  | nil => exact .refl held w
  | cons s rest ih =>
    have hs := advanced_perform h s held w
    -- a run that is stopped during the first step is in a world of that step
    unfold performAll
    rw [Act.bind_apply]
    cases hrun : s.perform run held w with
    | done held' w' =>
      rw [hrun] at hs
      have hrest := ih held' w'
      simp only
      cases hall : performAll run held' rest w' with
      | done held'' w'' =>
        rw [hall] at hrest
        exact .trans hs hrest
      | raised impossible => exact impossible.elim
      | starved =>
        rw [hall] at hrest
        exact .later hs hrest
    | raised impossible => exact impossible.elim
    | starved =>
      rw [hrun] at hs
      exact hs

end Lawful

end ScenarioHost.Host
