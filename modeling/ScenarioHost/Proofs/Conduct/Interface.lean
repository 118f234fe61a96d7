import ScenarioHost.Proofs.Conduct.Boundary

/-!
The functions of the host are lawful for the environment that calls them, except where a script
holds a handle to a sub-script, makes one, or drives the session. What drives the session is the
work of the host, and so is every invocation of a callback.
-/
namespace ScenarioHost

open Callbacks (Invocation)
open Conversion (within_argument within_optional)
open Loading (Loader)
open Lua (Evaluator FunctionId Heap Site Spot TableId Value)
open Lua (within_attempt within_read_heap within_update_heap)

variable {R : Regime} {run run' : Evaluator} {a : Agent} {e : EnvironmentId}

namespace Callbacks

variable (h : R.Lawful run run')

include h

/-- The host invokes callbacks by changing into their environment and back. -/
theorem by_invoke (site : Site) (c : Callback) (args : List Value) :
    R.By .host (fun _ => True) (invoke run site c args) (invoke run' site c args) := by
  refine Regime.by_of_law ⟨fun w => ?_⟩
  unfold invoke
  refine R.look (fun _ _ _ => ?_) ?_
  · exact World.isAlive_withInterior ..
  · split
    · rename_i halive
      exact R.invoke halive ((Boundary.law_call h ..).map_error.holds _)
    · exact (R.law _).raise _

theorem by_invocation (site : Site) {v : Invocation}
    (hv : v.IsReply → R.Permits (.session .beginReply)) :
    R.By .host (fun _ => True) (v.perform run site) (v.perform run' site) :=
  Regime.by_of_law (R.invocation h.carried
    (fun c args => (by_invoke h site c args).law R.free_host) hv)

end Callbacks

/-! Loading is lawful for all environments, since code is halted in those that are not free. -/

namespace Loading

variable (h : R.Lawful run run')

include h

theorem law_compileText (site : Site) (name : String) (source : ByteString) :
    (R.law (.code e)).Admits (fun _ => True) (compileText run e site name source)
      (compileText run' e site name source) := by
  by_cases he : R.Free (.code e)
  · exact (Boundary.within_fromHost h site (h.load e (.ofText name) source)).law he
  · unfold compileText
    rw [h.halted .loaded (.load e (.ofText name) source) he]
    exact .starve _

theorem law_compileFile (site : Site) (path : String) (source : ByteString) :
    (R.law (.code e)).Admits (fun _ => True) (compileFile run e site path source)
      (compileFile run' e site path source) := by
  unfold compileFile
  dsimp only
  split
  · exact .raise _
  · refine .bind (law_compileText h ..) fun r _ => ?_
    split
    · exact .pure trivial
    · exact .raise _

theorem law_runSource (site : Site) (path : String) (source : Source) :
    (R.law (.code e)).Admits (fun _ => True) (runSource run e site path source)
      (runSource run' e site path source) := by
  cases source with
  | unreadable message => exact .raise _
  | bytes content =>
    refine .bind (law_compileFile h ..).map_error fun f _ => ?_
    exact (Boundary.law_call h ..).map_error

theorem law_load (site : Site) (path : String) {l : Loader}
    (hl : l ≠ .plain → R.Permits .overlay) :
    (R.law (.code e)).Admits (fun _ => True) (l.perform run e site path)
      (l.perform run' e site path) := R.load h.carried (law_runSource h site path) hl

theorem law_evaluate (site : Site) (name : String) (source : ByteString) :
    (R.law (.code e)).Admits (fun _ => True) (evaluate run e site name source)
      (evaluate run' e site name source) := by
  unfold evaluate
  refine .bind (law_compileText h ..) fun r _ => ?_
  split
  · exact Boundary.law_call h site ..
  · refine .bind (law_compileText h ..) fun r _ => ?_
    split
    · exact Boundary.law_call h site ..
    · exact .raise _

end Loading

namespace Environments

variable (h : R.Lawful run run')

include h

theorem law_loadAll (site : Site) (modules : List String) :
    (R.law (.code e)).Admits (fun _ => True) (loadAll run e site modules)
      (loadAll run' e site modules) := by
  induction modules with
  | nil => exact .pure trivial
  | cons module rest ih =>
    have hmodule := Loading.law_load (e := e) h site module (l := .plain) fun hl => absurd rfl hl
    exact .bind hmodule.map_error fun _ _ => ih

theorem law_booting (site : Site) :
    (R.law (.code e)).Admits (fun _ => True) (booting run site e) (booting run' site e) :=
  .bind (Regime.law_look fun _ _ _ => rfl) fun modules _ => law_loadAll h site modules

end Environments

namespace Scripts

variable (h : R.Lawful run run')

include h

theorem within_create (s : Spot) : R.Beside s.env (create run s) (create run' s) := by
  constructor
  intro w
  refine Regime.look_bound (fun _ _ _ => rfl) ?_
  split
  · exact (R.bound _).raise _
  · rename_i hsession
    have hpresent : w.session.isSome :=
      Option.isSome_iff_ne_none.mpr fun hnone => hsession (hnone ▸ rfl)
    -- the new environment is there before anything runs in it
    exact fun hs => R.adopt h.carried hs hpresent
      ((Environments.law_booting h (siteInside s)).holds w.extended)

omit h in
/-- A method gets at the environment that its receiver is a handle to. -/
theorem receiver_handle {w : World} {args : List Value} {script : EnvironmentId}
    (hreceiver : receiver (w.heap e) args = .ok script) : w.HandleIn e script := by
  cases args with
  | nil => cases hreceiver
  | cons v rest =>
    cases v with
    | userdata u =>
      refine ⟨u, ?_⟩
      unfold receiver at hreceiver
      cases hpayload : Conversion.payload? (w.heap e) (.userdata u) with
      | none =>
        simp only [hpayload] at hreceiver
        cases hreceiver
      | some payload =>
        simp only [hpayload] at hreceiver
        cases payload with
        | script s => rw [Except.ok.inj hreceiver]
        | _ => cases hreceiver
    | _ => cases hreceiver

omit h in
/-- Methods of handles reach into another environment. -/
theorem bound_reaching {α : Type} {script : EnvironmentId} {x y : Act HostError α} {w : World}
    (hhandle : w.HandleIn e script) (hx : (R.law (.code script)).Admits (fun _ => True) x y) :
    (R.bound (.code e)).Holds w (fun _ => True) (reaching script x) (reaching script y) := by
  unfold reaching
  refine Regime.look_bound (fun _ _ _ => ?_) ?_
  · exact World.isPresent_withInterior ..
  · split
    · rename_i hpresent
      exact fun _ => R.visit hhandle hpresent (hx.holds _)
    · exact (R.bound _).raise _

omit h

def named (method : String) : HostError → HostError
  | .badArgument _ place cause => .badArgument (some ("ScriptObject." ++ method)) place cause
  | cause => cause

def textArgument (args : List Value) (n : Nat) (h : Heap) : Except HostError String :=
  (Conversion.toText h (Value.arg args (n - 1))).mapError (.badArgument none (.position n))

def runArguments (args : List Value) (h : Heap) : Except HostError (EnvironmentId × String) :=
  Except.mapError (named "run") do
    let script ← (receiver h args).mapError (.badArgument none .receiver)
    let name ← textArgument args 2 h
    return (script, name)

def variableArguments (args : List Value) (h : Heap) :
    Except HostError (EnvironmentId × String × String) :=
  Except.mapError (named "setVariable") do
    let script ← (receiver h args).mapError (.badArgument none .receiver)
    let name ← textArgument args 2 h
    let value ← textArgument args 3 h
    return (script, name, value)

/-- Whatever else is read of the arguments of a method, its receiver is a handle. -/
theorem receiver_of_named {α : Type} {method : String} {args : List Value} {x : Heap}
    {rest : Except HostError α} {script : EnvironmentId} {a : α}
    (h : Except.mapError (named method) (do
      let script ← (receiver x args).mapError (.badArgument none .receiver)
      let others ← rest
      return (script, others)) = .ok (script, a)) :
    receiver x args = .ok script := by
  cases hreceiver : receiver x args with
  | error cause =>
    rw [hreceiver] at h
    cases h
  | ok s =>
    rw [hreceiver] at h
    cases rest with
    | error cause => cases h
    | ok others =>
      cases h
      rfl

theorem receiver_of_runArguments {args : List Value} {x : Heap} {script : EnvironmentId}
    {name : String} (h : runArguments args x = .ok (script, name)) :
    receiver x args = .ok script :=
  receiver_of_named h

theorem receiver_of_variableArguments {args : List Value} {x : Heap} {script : EnvironmentId}
    {name value : String} (h : variableArguments args x = .ok (script, name, value)) :
    receiver x args = .ok script := by
  have hothers : variableArguments args x = Except.mapError (named "setVariable") (do
      let script ← (receiver x args).mapError (.badArgument none .receiver)
      let others ← (do
        let name ← textArgument args 2 x
        let value ← textArgument args 3 x
        return (name, value))
      return (script, others)) := by
    unfold variableArguments
    simp only [bind_assoc, pure_bind]
  rw [hothers] at h
  exact receiver_of_named h

def visiting (run : Evaluator) (s : Spot) (script : EnvironmentId) (name : String) :
    Act HostError Bool :=
  reaching script (Headless.checked (Loading.runLocalized run script (siteInside s) name))

def assigning (run : Evaluator) (s : Spot) (script : EnvironmentId) (name value : String) :
    Act HostError Unit :=
  reaching script (Boundary.setGlobal run script (siteInside s) name (Conversion.ofText value))

theorem runModule_eq (run : Evaluator) (s : Spot) (args : List Value) :
    runModule run s args = (Act.readHeap s.env (runArguments args) >>= Act.ofExcept) >>= fun a =>
      visiting run s a.1 a.2 := by
  have hconsults : (inMethod "run" do
      let script ← receiverArg s.env args
      let name ← Conversion.argument Conversion.toText s.env args 2
      return (script, name)).Consults s.env (runArguments args) :=
    .map_error (named "run") (.bind rfl fun script =>
      .bind Conversion.consults_argument fun name => .pure (script, name))
  have hrun : runModule run s args = (inMethod "run" do
      let script ← receiverArg s.env args
      let name ← Conversion.argument Conversion.toText s.env args 2
      return (script, name)) >>= fun a => visiting run s a.1 a.2 := by
    refine congrArg (bind _) (funext fun a => congrArg (reaching a.1) ?_)
    refine congrArg (bind _) (funext fun r => ?_)
    cases r <;> rfl
  rw [hrun, hconsults]

theorem setVariable_eq (run : Evaluator) (s : Spot) (args : List Value) :
    setVariable run s args = (Act.readHeap s.env (variableArguments args) >>= Act.ofExcept) >>=
      fun a => assigning run s a.1 a.2.1 a.2.2 := by
  have hconsults : (inMethod "setVariable" do
      let script ← receiverArg s.env args
      let name ← Conversion.argument Conversion.toText s.env args 2
      let value ← Conversion.argument Conversion.toText s.env args 3
      return (script, name, value)).Consults s.env (variableArguments args) :=
    .map_error (named "setVariable") (.bind rfl fun script =>
      .bind Conversion.consults_argument fun name =>
        .bind Conversion.consults_argument fun value => .pure (script, name, value))
  exact congrArg (· >>= fun a => assigning run s a.1 a.2.1 a.2.2) hconsults

include h

/-- A failure of the module is not one of the method. -/
theorem within_runModule (s : Spot) (args : List Value) (hoverlay : R.Permits .overlay) :
    R.Beside s.env (runModule run s args) (runModule run' s args) := by
  constructor
  intro w
  rw [runModule_eq, runModule_eq]
  -- that the receiver is a handle is known of the world in which the method is called
  refine Act.Consults.bound rfl fun a ha => ?_
  refine bound_reaching (receiver_handle (receiver_of_runArguments ha)) ?_
  exact R.attempt h.carried (t := .module a.2)
    (Loading.law_load h (siteInside s) a.2 (l := .localized) fun _ => hoverlay)

/-- Variables are set without any code of the sub-script, so it has to be a free one. -/
theorem bound_setVariable {s : Spot} {args : List Value} {w : World}
    (hfree : ∀ script, receiver (w.heap s.env) args = .ok script → R.Free (.code script)) :
    (R.bound (.code s.env)).Holds w (fun _ => True) (setVariable run s args)
      (setVariable run' s args) := by
  rw [setVariable_eq, setVariable_eq]
  refine Act.Consults.bound rfl fun a ha => ?_
  have hreceiver := receiver_of_variableArguments ha
  exact bound_reaching (receiver_handle hreceiver)
    ((Boundary.within_setGlobal h ..).law (hfree a.1 hreceiver))

end Scripts

namespace Interface

open Conversion

/-- Updates of the session that come down to one operation are open to everyone who has it. -/
theorem by_changeSession {f : Session → Session} (op : SessionOp) (hopen : op.OpenTo a)
    (hop : R.Permits (.session op)) (hf : f = op.apply) :
    R.By a (fun _ => True) (changeSession f) (changeSession f) := by
  subst hf
  unfold changeSession
  refine .bind (Regime.by_look fun _ _ _ => rfl) fun ended _ => ?_
  split
  · exact .raise _
  · exact .bind (Regime.by_deed fun w => .session w op hopen hop) fun _ _ => .pure trivial

theorem within_askSession (f : Session → Value) : R.Within e (askSession f) := by
  unfold askSession
  refine .bind (Regime.by_look fun _ _ _ => rfl) fun session _ => ?_
  split
  · exact .raise _
  · exact .pure trivial

theorem within_random (args : List Value) : R.Within e (random e args) := by
  unfold random
  refine .bind within_argument fun low _ => ?_
  refine .bind within_argument fun high _ => ?_
  exact .bind Lua.Library.within_draw fun n _ => .pure trivial

theorem within_randomInteger (args : List Value) : R.Within e (randomInteger e args) := by
  unfold randomInteger
  refine .bind within_argument fun a _ => ?_
  refine .bind within_argument fun b _ => ?_
  exact .bind Lua.Library.within_draw fun n _ => .pure trivial

theorem within_translate (args : List Value) : R.Within e (translate e args) := by
  unfold translate
  refine .bind within_argument fun first _ => ?_
  refine .bind within_optional fun second _ => ?_
  exact .bind (Regime.by_look fun _ _ _ => rfl) fun catalog _ => .pure trivial

theorem within_entityFunctions : R.Within e (entityFunctions e) := by
  unfold entityFunctions
  refine .bind (Regime.within_view (World.seen_environment e (·.entityFunctions))) fun found _ => ?_
  split
  · exact .pure trivial
  · refine .bind Classes.within_newTable fun t _ => ?_
    exact .bind (Regime.within_change fun w => .entityTable t) fun _ _ => .pure trivial

theorem within_globalMessage (args : List Value)
    (hmessage : ∀ text timeout, R.Permits (.session (.message text timeout))) :
    R.Within e (globalMessage e args) := by
  unfold globalMessage
  refine .bind within_argument fun text _ => ?_
  refine .bind within_optional fun timeout _ => ?_
  refine .bind (Regime.by_look fun _ _ _ => rfl) fun absent _ => ?_
  exact by_changeSession (.message text _) trivial (hmessage text _) rfl

/-- A victory is noted in the journal first. -/
theorem update_declareVictory {ε : Type} (faction : String) :
    (Act.update fun w => declareVictory w faction : Act ε Unit) =
      (Act.update fun w => w.log ⟨.info, .session, "Scenario ended, victory for " ++ faction⟩) >>=
        fun _ => Act.update fun w => w.modifySession (SessionOp.victory faction).apply := rfl

theorem within_victory (args : List Value)
    (hvictory : ∀ faction, R.Permits (.session (.victory faction))) :
    R.Within e (victory e args) := by
  unfold victory
  refine .bind within_argument fun faction _ => ?_
  refine .bind (Regime.by_look fun _ _ _ => rfl) fun ended _ => ?_
  split
  · exact .raise _
  · rw [update_declareVictory, bind_assoc]
    refine .bind (Regime.by_deed fun w => .journal _ w _) fun _ _ => ?_
    have hdeclared (w : World) := Deed.session (a := .code e) w (.victory faction) trivial
      (hvictory faction)
    exact .bind (Regime.by_deed hdeclared) fun _ _ => .pure trivial

theorem within_createEntity : R.Within e (do
    let (id, entities) ← Act.read fun w => w.entities.create
    Act.update fun w => { w with entities := entities }
    return [ofEntity id] : Act HostError (List Value)) :=
  ⟨fun w => Regime.look_bound (fun _ _ _ => rfl)
    (Law.bind_admits (fun _ => R.deed (.entity e w)) fun _ _ => .pure trivial)⟩

/-- What a script does with a callback of its own: the host keeps it. -/
theorem within_keepCallback {args : List Value} {n : Nat} (keep : Callback → SessionOp)
    (hkeep : ∀ callback, (keep callback).Scripted)
    (hpermits : ∀ callback, R.Permits (.session (keep callback))) :
    R.Within e (do
      let callback ← argument (toCallback e) e args n
      changeSession fun session => (keep callback).apply session :
      Act HostError (List Value)) :=
  .bind within_argument fun callback _ =>
    by_changeSession (keep callback) (hkeep callback) (hpermits callback) rfl

section Lawful

variable (h : R.Lawful run run')

include h

theorem within_print (s : Spot) (args : List Value) :
    R.Beside s.env (callHost run s .print args) (callHost run' s .print args) := by
  refine .bind (Printing.within_line h { s with callers := s.site none } _) fun line _ => ?_
  exact .bind (Regime.by_deed fun w => .print _ w line) fun _ _ => .pure trivial

theorem within_callHost (s : Spot) (f : HostFunction) (args : List Value)
    (hf : ∀ affair, .host f ∈ affair.functions → R.Permits affair) :
    R.Beside s.env (callHost run s f args) (callHost run' s f args) := by
  cases f with
  | random => exact within_random args
  | irandom => exact within_randomInteger args
  | print => exact within_print h s args
  | translate => exact within_translate args
  | engineVersion => exact .pure trivial
  | requireModule =>
    have hoverlay : R.Permits .overlay := hf _ List.mem_cons_self
    refine .bind within_argument fun name _ => .map_error (Regime.by_of_law ?_)
    exact Loading.law_load h (s.site none) name (l := .required) fun _ => hoverlay
  | createEntity => exact within_createEntity
  | entityFunctions => exact within_entityFunctions
  | createClass => exact .bind Classes.within_create fun t _ => .pure trivial
  | scenarioSetting => exact .bind within_argument fun key _ => within_askSession _
  | scenarioVariation =>
    exact .bind (Regime.by_deed fun w => .journal _ w deprecatedVariation) fun _ _ =>
      within_askSession _
  | onNewPlayerShip =>
    exact within_keepCallback .playerShipHook (fun _ => trivial) fun _ => hf _ List.mem_cons_self
  | globalMessage => exact within_globalMessage args fun _ _ => hf _ List.mem_cons_self
  | victory => exact within_victory args fun _ => hf _ List.mem_cons_self
  | setBanner =>
    exact .bind within_argument fun text _ =>
      by_changeSession (.banner text) trivial (hf _ List.mem_cons_self) rfl
  | scenarioTime => exact within_askSession _
  | sectorName =>
    refine .bind within_argument fun x _ => ?_
    exact .bind within_argument fun y _ => .pure trivial
  | sectorPosition => exact .bind within_argument fun name _ => .pure trivial
  | addGmFunction =>
    exact .bind within_argument fun label _ =>
      within_keepCallback (.button label) (fun _ => trivial) fun _ => hf _ List.mem_cons_self
  | clearGmFunctions => exact by_changeSession .clearButtons trivial (hf _ List.mem_cons_self) rfl
  | newScript => exact .bind (Scripts.within_create h s) fun v _ => .pure trivial
  | setCommsMessage =>
    exact .bind within_argument fun text _ =>
      by_changeSession (.commsMessage text) trivial (hf _ List.mem_cons_self) rfl
  | addCommsReply =>
    exact .bind within_argument fun label _ =>
      within_keepCallback (.reply label) (fun _ => trivial) fun _ => hf _ List.mem_cons_self
  | commsSwitchToGm => exact by_changeSession .requestGm trivial (hf _ List.mem_cons_self) rfl

theorem bound_callHandle (s : Spot) (f : HandleFunction) (args : List Value) {w : World}
    (hf : ∀ affair, .handle f ∈ affair.functions → R.Permits affair)
    (hfree : f = .setVariable → ∀ script, Scripts.receiver (w.heap s.env) args = .ok script →
      R.Free (.code script)) :
    (R.bound (.code s.env)).Holds w (fun _ => True) (callHandle run s f args)
      (callHandle run' s f args) := by
  cases f with
  | run =>
    have hoverlay : R.Permits .overlay := hf _ (List.mem_cons_of_mem _ List.mem_cons_self)
    exact Law.bind_admits ((Scripts.within_runModule h s args hoverlay).holds w) fun _ _ =>
      .pure trivial
  | setVariable =>
    exact Law.bind_admits (Scripts.bound_setVariable h (hfree rfl)) fun _ _ => .pure trivial
  | text => exact (R.bound _).pure trivial

omit h in
theorem by_withSession {x y : Act HostError (List Value)}
    (hx : R.By .host (fun _ => True) x y) :
    R.By .host (fun _ => True) (withSession x) (withSession y) := by
  unfold withSession
  refine .bind (Regime.by_look fun _ _ _ => rfl) fun ended _ => ?_
  split
  · exact .raise _
  · exact hx

omit h in
theorem by_outcome {x y : Act ScriptError Bool} (hx : R.By .host (fun _ => True) x y) :
    R.By .host (fun _ => True) (outcome x) (outcome y) :=
  .bind (.map_error hx) fun _ _ => .pure trivial

omit h in
/-- Whatever a script does with the session that it drives, the host could do. -/
theorem bound_drive {x y : Act HostError (List Value)} {w : World} (hdrives : w.Drives e)
    (hx : R.By .host (fun _ => True) x y) :
    (R.bound (.code e)).Holds w (fun _ => True) x y :=
  fun _ => R.drive hdrives ((hx.law R.free_host).holds w)

theorem bound_callControl (s : Spot) (f : ControlFunction) (args : List Value) {w : World}
    (hdrives : w.Drives s.env)
    (hf : ∀ affair, .control f ∈ affair.functions → R.Permits affair) :
    (R.bound (.code s.env)).Holds w (fun _ => True) (callControl run s f args)
      (callControl run' s f args) := by
  -- functions of the host's own read their arguments first and then drive the session
  cases f with
  | runGm =>
    refine Act.Consults.bound consults_argument fun i _ => bound_drive hdrives ?_
    exact by_withSession (by_outcome
      (Callbacks.by_invocation h (Scripts.siteInside s) (v := .button i) False.elim))
  | tryGm =>
    refine Act.Consults.bound consults_argument fun i _ => bound_drive hdrives (by_withSession ?_)
    have hbutton := Callbacks.by_invocation h (Scripts.siteInside s) (v := .button i) False.elim
    refine .bind hbutton.settle fun r _ => ?_
    split <;> exact .pure trivial
  | selectReply =>
    refine Act.Consults.bound consults_argument fun i _ => ?_
    refine Act.Consults.bound consults_argument fun source _ => ?_
    refine Act.Consults.bound consults_argument fun target _ => bound_drive hdrives ?_
    exact by_withSession (by_outcome (Callbacks.by_invocation h (Scripts.siteInside s)
      (v := .reply i source target) fun _ => hf _ List.mem_cons_self))
  | fireShip =>
    refine Act.Consults.bound consults_argument fun ship _ => bound_drive hdrives ?_
    exact by_withSession (by_outcome
      (Callbacks.by_invocation h (Scripts.siteInside s) (v := .playerShip ship) False.elim))
  | clearScripts =>
    refine bound_drive hdrives (by_withSession ?_)
    exact .bind (Regime.by_deed fun w => .clearScripts w) fun _ _ => .pure trivial
  | advanceTime =>
    refine Act.Consults.bound consults_argument fun delta _ => bound_drive hdrives ?_
    exact by_withSession
      (by_changeSession (.advance delta) (.inr ⟨delta, rfl⟩) (hf _ List.mem_cons_self) rfl)
  | openStreams =>
    refine bound_drive hdrives ?_
    exact .bind (Regime.by_look fun _ _ _ => rfl) fun _ _ => .pure trivial
  | letGo =>
    refine Act.Consults.bound consults_argument fun i _ => bound_drive hdrives ?_
    exact .bind (Regime.by_deed fun w => .letGo w ⟨i⟩) fun _ _ => .pure trivial

omit h in
theorem within_errorText (args : List Value) : R.Within e (errorText e args) := by
  unfold errorText
  refine .bind (within_read_heap _) fun r _ => ?_
  split <;> exact .pure trivial

end Lawful

end Interface

end ScenarioHost
