import ScenarioHost.Headless
import ScenarioHost.Proofs.Conduct

/-!
Operations. Hosts and scripts do some things to the world in one go: they load a module, invoke what
stands at a button, at a reply or for new ships, try something whose failure goes to the console,
and make environments. Each of these is put together from smaller changes; here it is said what it
comes down to in the world in which it is begun.
-/
namespace ScenarioHost

open Lua (Evaluator Site Value)

/-! Loading. -/

namespace Loading

inductive Loader where
  | plain
  | localized
  | required
deriving DecidableEq

namespace Loader

abbrev Failure : Loader → Type
  | .plain => String
  | .localized => String
  | .required => ScriptError

abbrev Result : Loader → Type
  | .plain => List Value
  | .localized => Unit
  | .required => List Value

def perform (run : Evaluator) (env : EnvironmentId) (site : Site) (path : String) :
    (l : Loader) → Act l.Failure l.Result
  | .plain => runFile run env site path
  | .localized => runLocalized run env site path
  | .required => requireModule run env site path

def opened (path : String) (w : World) : Loader → World
  | .plain => w.streamed
  | .localized => prepared w path
  | .required => prepared w path

def refused (path : String) (w : World) : Loader → World
  | .plain => w
  | .localized => w.loadOverlay (overlayName w path)
  | .required => w

variable (run : Evaluator) (env : EnvironmentId) (site : Site) (path : String) (w : World)

theorem moment_of_known {source : Source}
    (hpath : w.library.source? (ModuleName.normalize path) = some source) (l : Loader) :
    (l.perform run env site path w).moment =
      (runSource run env site path source (l.opened path w)).moment := by
  cases l with
  | plain =>
    change (runFile run env site path w).moment = _
    rw [run_file_known run env site path w hpath, Act.moment_map_error]
    rfl
  | localized =>
    have hknown := run_file_known run env site path (w.loadOverlay (overlayName w path)) hpath
    change (runLocalized run env site path w).moment = _
    rw [run_localized_apply, Act.moment_bind_pure, hknown, Act.moment_map_error]
    rfl
  | required =>
    change (requireModule run env site path w).moment = _
    rw [require_module_known run env site path w hpath, Act.moment_map_error]
    rfl

theorem moment_of_unknown (hpath : w.library.source? (ModuleName.normalize path) = none)
    (l : Loader) : (l.perform run env site path w).moment = ⟨l.refused path w, true⟩ := by
  cases l with
  | plain =>
    change (runFile run env site path w).moment = _
    rw [run_file_unknown run env site path w hpath]
    rfl
  | localized =>
    have hunknown := run_file_unknown run env site path (w.loadOverlay (overlayName w path)) hpath
    change (runLocalized run env site path w).moment = _
    rw [run_localized_apply, Act.moment_bind_pure, hunknown]
    rfl
  | required =>
    change (requireModule run env site path w).moment = _
    rw [require_module_unknown run env site path w hpath]
    rfl

end Loader

end Loading

/-! Invocations. -/

namespace Callbacks

inductive Invocation where
  | button (i : Nat)
  | playerShip (ship : Nat)
  | reply (i source target : Nat)
deriving DecidableEq

structure Target where
  label : String
  callback : Callback
  args : List Value

namespace Invocation

def target? (w : World) : Invocation → Option Target
  | .button i => (w.session.bind (·.button? i)).map fun b => ⟨b.label, b.callback, []⟩
  | .playerShip ship =>
    (w.session.bind (·.playerShipHook)).map fun c =>
      ⟨"onNewPlayerShip", c, [Conversion.ofEntity ship]⟩
  | .reply i source target =>
    (w.session.bind (·.reply? i)).map fun r =>
      ⟨r.label, r.callback, [Conversion.ofEntity source, Conversion.ofEntity target]⟩

def opened (w : World) : Invocation → World
  | .reply .. => w.modifySession Session.beginReply
  | _ => w

def IsReply : Invocation → Prop
  | .reply .. => True
  | _ => False

def perform (run : Evaluator) (site : Site) : Invocation → Act ScriptError Bool
  | .button i => runButton run site i
  | .playerShip ship => firePlayerShip run site ship
  | .reply i source target => selectReply run site i source target

end Invocation

section Laws

variable (run : Evaluator) (site : Site) (w : World)

/-- A callback is called once, where its environment is kept meanwhile, or not at all. -/
theorem invoke_apply (c : Callback) (args : List Value) :
    invoke run site c args w =
      if w.isAlive c.environment then
        match Boundary.call run c.environment site (.function c.function) args
            (w.enter c.environment) with
        | .done values w' => .done values (w'.leave c.environment)
        | .raised e w' => .raised (.runtime e.message) (w'.leave c.environment)
        | @Outcome.starved _ _ w' => @Outcome.starved _ _ w'
      else .raised .invalidHandle w := by
  unfold invoke
  rw [Act.bind_apply]
  simp only [Act.read]
  cases w.isAlive c.environment with
  | true =>
    simp only [if_true, Act.between_apply, Act.map_error_apply]
    cases Boundary.call run c.environment site (.function c.function) args
      (w.enter c.environment) <;> rfl
  | false => rfl

/-- A failure is reported once, after everything that the callback did, and passed on as it is. -/
theorem report_apply (label : String) (c : Callback) (args : List Value) :
    report run site label c args w =
      match invoke run site c args w with
      | .done _ w' => .done true w'
      | .raised e w' => .raised e (w'.addError (label ++ ": " ++ e.message))
      | @Outcome.starved _ _ w' => @Outcome.starved _ _ w' := by
  unfold report
  rw [Act.bind_apply, Act.attempt_apply]
  cases invoke run site c args w <;> rfl

/-- An invocation that leads nowhere does nothing. -/
theorem Invocation.perform_absent {v : Invocation} (h : v.target? w = none) :
    v.perform run site w = .done false w := by
  cases v with
  | button i =>
    have hnone : w.session.bind (·.button? i) = none := Option.map_eq_none_iff.mp h
    change runButton run site i w = _
    simp only [runButton, Act.bind_apply, Act.read, hnone]
    rfl
  | playerShip ship =>
    have hnone : w.session.bind (·.playerShipHook) = none := Option.map_eq_none_iff.mp h
    change firePlayerShip run site ship w = _
    simp only [firePlayerShip, Act.bind_apply, Act.read, hnone]
    rfl
  | reply i source target =>
    have hnone : w.session.bind (·.reply? i) = none := Option.map_eq_none_iff.mp h
    change selectReply run site i source target w = _
    simp only [selectReply, Act.bind_apply, Act.read, hnone]
    rfl

/-- Any other one invokes the callback that it leads to in the world in which it is made. -/
theorem Invocation.perform_present {v : Invocation} {t : Target} (h : v.target? w = some t) :
    v.perform run site w = report run site t.label t.callback t.args (v.opened w) := by
  cases v with
  | button i =>
    obtain ⟨b, hb, rfl⟩ := Option.map_eq_some_iff.mp h
    change runButton run site i w = _
    simp only [runButton, Act.bind_apply, Act.read, hb]
    rfl
  | playerShip ship =>
    obtain ⟨c, hc, rfl⟩ := Option.map_eq_some_iff.mp h
    change firePlayerShip run site ship w = _
    simp only [firePlayerShip, Act.bind_apply, Act.read, hc]
    rfl
  | reply i source target =>
    obtain ⟨r, hr, rfl⟩ := Option.map_eq_some_iff.mp h
    change selectReply run site i source target w = _
    simp only [selectReply, Act.bind_apply, Act.read, hr]
    rfl

end Laws

end Callbacks

/-! Attempts. -/

namespace Headless

/-- What is tried with the text of a failure written to the console: running a module with its
translations, or calling a global function. -/
inductive Attempt where
  | module (path : String)
  | function (name : String) (args : List Value)

def Attempt.perform (run : Evaluator) (env : EnvironmentId) (site : Site) :
    Attempt → Act String Unit
  | .module path => Loading.runLocalized run env site path
  | .function name args =>
    discard ((Boundary.callGlobal run env site name args).mapError HostError.message)

variable {ε α : Type}

theorem checked_apply (x : Act String α) (w : World) :
    (checked x : Act ε Bool) w =
      match x w with
      | .done _ w' => .done true w'
      | .raised message w' => .done false (w'.addError message)
      | @Outcome.starved _ _ w' => @Outcome.starved _ _ w' := by
  unfold checked
  rw [Act.bind_apply, Act.attempt_apply]
  cases x w <;> rfl

theorem checked_discard (x : Act String α) :
    (checked (Functor.discard x) : Act ε Bool) = checked x := by
  funext w
  rw [checked_apply, checked_apply, Act.discard_eq, Act.bind_apply]
  cases x w <;> rfl

end Headless

/-! Changes of the session by scripts. -/

namespace Interface

open Conversion (argument_bind given toCallback toEntity toIndex toText)

theorem changeSession_apply (f : Session → Session) (w : World) :
    changeSession f w =
      if w.session.isNone then .raised Scripts.sessionEnded w
      else .done [] (w.modifySession f) := by
  unfold changeSession
  rw [Act.bind_apply]
  simp only [Act.read]
  cases w.session.isNone <;> rfl

theorem changeSession_of_some {w : World} {session : Session} (hsession : w.session = some session)
    (f : Session → Session) :
    changeSession f w = .done [] { w with session := some (f session) } := by
  rw [changeSession_apply, hsession]
  unfold World.modifySession
  rw [hsession]
  rfl

def requested (env : EnvironmentId) (args : List Value) (h : Lua.Heap) :
    HostFunction → Option (Except HostError SessionOp)
  | .onNewPlayerShip => some do return .playerShipHook (← given (toCallback env) args 1 h)
  | .setBanner => some do return .banner (← given toText args 1 h)
  | .addGmFunction => some do
    let label ← given toText args 1 h
    let callback ← given (toCallback env) args 2 h
    return .button label callback
  | .clearGmFunctions => some (.ok .clearButtons)
  | .setCommsMessage => some do return .commsMessage (← given toText args 1 h)
  | .addCommsReply => some do
    let label ← given toText args 1 h
    let callback ← given (toCallback env) args 2 h
    return .reply label callback
  | .commsSwitchToGm => some (.ok .requestGm)
  | _ => none

variable (run : Evaluator) (s : Lua.Spot) {args : List Value} {w : World}

/-- Such a call converts its arguments in order and then changes the session. -/
theorem callHost_requested {f : HostFunction} {request : Except HostError SessionOp}
    (hf : requested s.env args (w.heap s.env) f = some request) :
    callHost run s f args w = (Act.ofExcept request >>= fun op => changeSession op.apply) w := by
  cases f with
  | onNewPlayerShip =>
    cases hf
    exact argument_bind fun _ => rfl
  | setBanner =>
    cases hf
    exact argument_bind fun _ => rfl
  | addGmFunction =>
    cases hf
    exact argument_bind fun _ => argument_bind fun _ => rfl
  | clearGmFunctions =>
    cases hf
    rfl
  | setCommsMessage =>
    cases hf
    exact argument_bind fun _ => rfl
  | addCommsReply =>
    cases hf
    exact argument_bind fun _ => argument_bind fun _ => rfl
  | commsSwitchToGm =>
    cases hf
    rfl
  | _ => cases hf

def driven (args : List Value) (h : Lua.Heap) :
    ControlFunction → Option (Except HostError Callbacks.Invocation)
  | .runGm => some do return .button (← given toIndex args 1 h)
  | .selectReply => some do
    let i ← given toIndex args 1 h
    let source ← given toEntity args 2 h
    let target ← given toEntity args 3 h
    return .reply i source target
  | .fireShip => some do return .playerShip (← given toEntity args 1 h)
  | _ => none

/-- The error of the invocation becomes that of the call. -/
theorem callControl_driven {f : ControlFunction} {request : Except HostError Callbacks.Invocation}
    (hf : driven args (w.heap s.env) f = some request) :
    callControl run s f args w = (Act.ofExcept request >>= fun v =>
      withSession (outcome (v.perform run (Scripts.siteInside s)))) w := by
  cases f with
  | runGm =>
    cases hf
    exact argument_bind fun _ => rfl
  | selectReply =>
    cases hf
    exact argument_bind fun _ => argument_bind fun _ => argument_bind fun _ => rfl
  | fireShip =>
    cases hf
    exact argument_bind fun _ => rfl
  | _ => cases hf

theorem withSession_apply (x : Act HostError (List Value)) (hw : w.session.isSome) :
    withSession x w = x w := by
  unfold withSession
  rw [Act.bind_apply]
  simp only [Act.read, Option.isNone_eq_false_iff.mpr hw]
  rfl

end Interface

/-! The making of environments. -/

namespace Environments

variable (run : Evaluator)

def loadAll (env : EnvironmentId) (site : Lua.Site) : List String → Act (String × String) Unit
  | [] => return ()
  | module :: rest => do
    let _ ← (Loading.runFile run env site module).mapError fun message => (module, message)
    loadAll env site rest

def concluded {α : Type} (env : EnvironmentId) (a : α) :
    Except (String × String) Unit → Act String α
  | .ok _ => return a
  | .error (module, message) => do
    Act.update fun w => (w.addError message).destroy env
    Act.raise ("Bootstrap module " ++ module ++ " failed")

def making (x : EnvironmentId → Act (String × String) Unit) : Act String EnvironmentId := do
  let env ← allocate
  concluded env env (← (x env).attempt)

theorem making_apply (x : EnvironmentId → Act (String × String) Unit) (w : World) :
    making x w =
      match x w.nextEnvironment w.extended with
      | .done _ w' => .done w.nextEnvironment w'
      | .raised (module, message) w' =>
        .raised ("Bootstrap module " ++ module ++ " failed")
          ((w'.addError message).destroy w.nextEnvironment)
      | @Outcome.starved _ _ w' => @Outcome.starved _ _ w' := by
  have hmaking : making x w =
      ((x w.nextEnvironment).attempt >>= concluded w.nextEnvironment w.nextEnvironment)
        w.extended := rfl
  rw [hmaking, Act.bind_apply, Act.attempt_apply]
  cases x w.nextEnvironment w.extended <;> rfl

def booting (site : Lua.Site) (env : EnvironmentId) : Act (String × String) Unit := do
  let modules ← Act.read fun w => w.config.bootstrap
  loadAll run env site modules

theorem bootstrap_eq (env : EnvironmentId) (site : Site) (modules : List String) :
    bootstrap run env site modules = (loadAll run env site modules).attempt >>= concluded env () := by
  induction modules with
  | nil => rfl
  | cons module rest ih =>
    funext w
    rw [bootstrap, loadAll, Act.bind_apply, Act.bind_apply, Act.attempt_apply, Act.attempt_apply,
      Act.bind_apply, Act.map_error_apply]
    -- only the module that fails has the environment given up, and the rest is then not run
    cases Loading.runFile run env site module w with
    | done values w' =>
      dsimp only
      rw [ih, Act.bind_apply, Act.attempt_apply]
    | raised message w' => rfl
    | starved => rfl

/-- An environment is made by running its bootstrap modules. -/
theorem create_eq (site : Site) : create run site = making (booting run site) := by
  funext w
  have hcreate : create run site w =
      (bootstrap run w.nextEnvironment site w.config.bootstrap >>= fun _ =>
        pure w.nextEnvironment) w.extended := rfl
  have hmaking : making (booting run site) w =
      ((loadAll run w.nextEnvironment site w.config.bootstrap).attempt >>=
        concluded w.nextEnvironment w.nextEnvironment) w.extended := rfl
  rw [hcreate, hmaking, bootstrap_eq, bind_assoc, Act.bind_apply, Act.bind_apply]
  cases (loadAll run w.nextEnvironment site w.config.bootstrap).attempt w.extended with
  | done r w' => cases r <;> rfl
  | raised impossible w' => rfl
  | starved => rfl

end Environments

def Scripts.adopting (e : EnvironmentId) (x : Act String EnvironmentId) :
    Act HostError Lua.Value := do
  let script ← x.mapError HostError.runtime
  Act.update fun w => w.modifySession fun session => session.addScript script
  let u ← Act.readHeap e (·.nextUserdata)
  Act.updateHeap e fun h => h.addUserdata ⟨.script script, h.scriptMeta⟩
  return .userdata u

theorem Scripts.adopting_apply (e : EnvironmentId) (x : Act String EnvironmentId) (w : World) :
    adopting e x w =
      match x w with
      | .done script w' => .done (.userdata (w'.heap e).nextUserdata) (w'.adopted e script)
      | .raised message w' => .raised (.runtime message) w'
      | @Outcome.starved _ _ w' => @Outcome.starved _ _ w' := by
  unfold adopting
  rw [Act.bind_apply, Act.map_error_apply]
  cases x w <;> rfl

theorem Scripts.adopting_making_apply (e : EnvironmentId)
    (x : EnvironmentId → Act (String × String) Unit) (w : World) :
    adopting e (Environments.making x) w =
      match x w.nextEnvironment w.extended with
      | .done _ w' => .done (.userdata (w'.heap e).nextUserdata) (w'.adopted e w.nextEnvironment)
      | .raised (module, message) w' =>
        .raised (.runtime ("Bootstrap module " ++ module ++ " failed"))
          ((w'.addError message).destroy w.nextEnvironment)
      | @Outcome.starved _ _ w' => @Outcome.starved _ _ w' := by
  rw [adopting_apply, Environments.making_apply]
  cases x w.nextEnvironment w.extended <;> rfl

end ScenarioHost
