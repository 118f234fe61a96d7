import ScenarioHost.Proofs.Bindings
import ScenarioHost.Proofs.Requiring

/-!
Making environments. Bootstrap modules run once each, in order, in an environment that has all
functions already. Where one fails, none after it is run, the failure is written to the console, and
nothing leads to the environment or calls back into it any more.
-/
namespace ScenarioHost

open Lua (Chunk Evaluator Site Spot Value)

def Outcome.error? {ε α : Type} : Outcome ε α → Option ε
  | .raised e _ => some e
  | _ => none

theorem Outcome.raised_of_error {ε α : Type} {o : Outcome ε α} {e : ε} (h : o.error? = some e) :
    o = .raised e o.world := by
  cases o with
  | raised e' w =>
    cases h
    rfl
  | _ => cases h

/-- What may become of a world: whatever scripts and hosts do to it, and whatever they were about to
do comes to an end in it. -/
inductive Future : World → World → Prop where
  | refl (w : World) : Future w w
  | trans {w w' w'' : World} : Future w w' → Future w' w'' → Future w w''
  | effect {a : Agent} {w w' : World} : Effect a w w' → Future w w'
  | enter {e : EnvironmentId} {w : World} : w.isAlive e → Future w (w.enter e)
  | leave (e : EnvironmentId) (w : World) : Future w (w.leave e)
  | hold {e : EnvironmentId} {w : World} : w.isPresent e → Future w (w.hold e)
  | unhold (e : EnvironmentId) (w : World) : Future w (w.unhold e)
  | extended (w : World) : Future w w.extended
  | adopted (e script : EnvironmentId) (w : World) : Future w (w.adopted e script)
  | destroy (e : EnvironmentId) (w : World) : Future w (w.destroy e)
  | controlled (e : EnvironmentId) (functions : List (String × ControlFunction)) (w : World) :
      Future w (Host.controlled w e functions)
  | lending (e : EnvironmentId) (w : World) : Future w (Host.lending w e)
  | adding (e : EnvironmentId) (w : World) : Future w (Host.adding w e)
  | endSession (w : World) : Future w w.endSession
  | equipped (w : World) (b : Host.Belongings) : Future w (Host.equipped w b)

theorem Host.lasting_future : Host.Lasting Future where
  refl := .refl
  trans := .trans
  effect := .effect
  enter := .enter
  leave := .leave
  hold := .hold
  unhold := .unhold
  extended := .extended
  adopted := .adopted
  destroy := .destroy
  controlled := .controlled
  lending := .lending
  adding := .adding
  endSession := .endSession
  equipped := .equipped

/-- A relation that lasts reaches from a world to all that may become of it. -/
theorem Host.Lasting.future {T : World → World → Prop} (h : Host.Lasting T) {w w' : World}
    (hw : Future w w') : T w w' := by
  induction hw with
  | refl w => exact h.refl w
  | trans _ _ first second => exact h.trans first second
  | effect he => exact h.effect he
  | enter halive => exact h.enter halive
  | leave e w => exact h.leave e w
  | hold hpresent => exact h.hold hpresent
  | unhold e w => exact h.unhold e w
  | extended w => exact h.extended w
  | adopted e script w => exact h.adopted e script w
  | destroy e w => exact h.destroy e w
  | controlled e functions w => exact h.controlled e functions w
  | lending e w => exact h.lending e w
  | adding e w => exact h.adding e w
  | endSession w => exact h.endSession w
  | equipped w b => exact h.equipped w b

/-- What is left of an environment that could not be made. -/
structure World.Discarded (w : World) (e : EnvironmentId) : Prop where
  unreferred : ¬ w.Referred e
  dead : w.Dead e
  refused (w' : World) : Future w w' → w'.Refuses e

/-- An environment that is gone and that nothing leads to stays so. -/
theorem World.Dead.discarded {w : World} {e : EnvironmentId} (he : w.Dead e)
    (hreferred : ¬ w.Referred e) : w.Discarded e where
  unreferred := hreferred
  dead := he
  refused _ hfuture := refuses_of_not_alive (Host.lasting_dead.future hfuture e he).not_alive

/-- The object of an error is no handle. -/
theorem World.Discarded.with_error {w : World} {e : EnvironmentId} (h : w.Discarded e)
    (x : EnvironmentId) (cause : HostError) : (w.withError x cause).Discarded e := by
  have hevolves (y : Lua.Heap) :
      y.Evolves (y.addUserdata ⟨.error (.callback cause), y.errorMeta⟩) :=
    .add_userdata y _ fun s hs => by cases hs
  have halike : Alike w (w.withError x cause) :=
    .of_heap w x _ (fun _ => rfl) (fun _ => rfl) (fun _ => rfl) (hevolves _)
  exact (h.dead.onward halike.onward).discarded fun hr => h.unreferred (halike.referred e hr)

/-- Nothing is left of an environment whose making failed, and the world is in order. -/
theorem Environments.Made.discarded {w : World} (hw : Orderly w) {α : Type} {text : String}
    {w' : World} (h : Made w.nextEnvironment w.extended (.raised text w' : Outcome String α)) :
    Orderly w' ∧ w'.Discarded w.nextEnvironment := by
  have hdestroyed := h.destroyed
  obtain ⟨message, w₀, hr, rfl⟩ := h
  -- an environment that does not exist yet has nothing to drive the session with
  have hquiet : Quiet (.code w.nextEnvironment) w := fun hdrives =>
    absurd hdrives (w.not_drives_of_not_allocated _ w.next_not_allocated)
  have habandoned := Reaches.abandon (a := .code w.nextEnvironment) message hr
  obtain ⟨hw', honward⟩ := habandoned.orderly hw hquiet
  have hdead : World.Dead _ w.nextEnvironment := ⟨hdestroyed, honward.idle w.idle_next⟩
  refine ⟨hw', hdead.discarded fun hreferred => ?_⟩
  have hcomplained := World.referred_destroy (w₀.addError message) _ _ hreferred
  exact hr.not_referred hw hcomplained

namespace Environments

open Loading Engine

variable (limit fuel : Nat) (e : EnvironmentId) (site : Site)

/-- A module runs to its end: its chunk becomes a new function of the environment, which is called
once, without arguments. -/
inductive RunsOnce (module : String) (w w' : World) : Prop where
  | intro {source : Source} {c : Chunk} {vs : List Value}
      (hmodule : w.library.source? (ModuleName.normalize module) = some source)
      (hchunk : chunkOf module source = .ok c)
      (hcall : engine limit (fuel + 1) .values (.call e site (.function (w.heap e).nextFunction) [])
        (w.streamed.holding e c) = .done vs w') :
      RunsOnce module w w'

inductive Completes : List String → World → World → Prop where
  | nil (w : World) : Completes [] w w
  | cons {module : String} {rest : List String} {w w₁ w' : World}
      (first : RunsOnce limit fuel e site module w w₁) (others : Completes rest w₁ w') :
      Completes (module :: rest) w w'

/-- How running the bootstrap modules ends, by which of them do: all, or those before one that fails
or does not come to an end. -/
inductive Bootstrapped {α : Type} (a : α) (modules : List String) (w : World) :
    Outcome String α → Prop where
  | complete {w' : World} (h : Completes limit fuel e site modules w w') :
      Bootstrapped a modules w (.done a w')
  | failed {before after : List String} {module message : String} {w₁ w₂ : World}
      (hmodules : modules = before ++ module :: after)
      (hbefore : Completes limit fuel e site before w w₁)
      (hmodule : runFile (engine limit (fuel + 1)) e site module w₁ = .raised message w₂) :
      Bootstrapped a modules w
        (.raised ("Bootstrap module " ++ module ++ " failed") ((w₂.addError message).destroy e))
  | endless {before after : List String} {module : String} {w₁ w₂ : World}
      (hmodules : modules = before ++ module :: after)
      (hbefore : Completes limit fuel e site before w w₁)
      (hmodule : runFile (engine limit (fuel + 1)) e site module w₁ = @Outcome.starved _ _ w₂) :
      Bootstrapped a modules w (@Outcome.starved _ _ w₂)

variable {limit fuel e site}

theorem run_file_loadable {module : String} {source : Source} {c : Chunk} {w : World}
    (hmodule : w.library.source? (ModuleName.normalize module) = some source)
    (hchunk : chunkOf module source = .ok c) :
    runFile (engine limit (fuel + 1)) e site module w =
      (Boundary.call (engine limit (fuel + 1)) e site (.function (w.heap e).nextFunction)
        []).mapError HostError.message (w.streamed.holding e c) := by
  have hsource := run_source_loadable limit fuel e site module w.streamed hchunk
  rw [run_file_known _ e site module w hmodule, Act.map_error_apply, hsource,
    ← Act.map_error_apply, map_error_map_error]
  rfl

/-- The modules that give values are those that run to their ends. -/
theorem run_file_done_iff (module : String) (w w' : World) :
    (∃ vs, runFile (engine limit (fuel + 1)) e site module w = .done vs w') ↔
      RunsOnce limit fuel e site module w w' := by
  constructor
  · rintro ⟨vs, hrun⟩
    cases hmodule : w.library.source? (ModuleName.normalize module) with
    | none =>
      rw [run_file_unknown _ e site module w hmodule] at hrun
      cases hrun
    | some source =>
      cases hchunk : chunkOf module source with
      | error message =>
        have hsource := run_source_unloadable limit fuel e site module w.streamed hchunk
        obtain ⟨failure, -, hfailure⟩ := hsource
        rw [run_file_known _ e site module w hmodule, Act.map_error_apply, hfailure] at hrun
        cases hrun
      | ok c =>
        rw [run_file_loadable hmodule hchunk, Act.map_error_done_iff, Boundary.call_done_iff] at hrun
        exact ⟨hmodule, hchunk, hrun⟩
  · intro hruns
    obtain @⟨source, c, vs, hmodule, hchunk, hcall⟩ := hruns
    refine ⟨vs, ?_⟩
    rw [run_file_loadable hmodule hchunk, Act.map_error_done_iff, Boundary.call_done_iff]
    exact hcall

theorem bootstrap_cons (run : Evaluator) (module : String) (rest : List String) (w : World) :
    bootstrap run e site (module :: rest) w =
      match runFile run e site module w with
      | .done _ w' => bootstrap run e site rest w'
      | .raised message w' =>
        .raised ("Bootstrap module " ++ module ++ " failed") ((w'.addError message).destroy e)
      | @Outcome.starved _ _ w' => @Outcome.starved _ _ w' := by
  rw [bootstrap, Act.bind_apply, Act.attempt_apply]
  cases runFile run e site module w <;> rfl

/-- Modules that run to their ends are followed by the others. -/
theorem Completes.bootstrap_append {before : List String} {w w₁ : World}
    (h : Completes limit fuel e site before w w₁) (after : List String) :
    bootstrap (engine limit (fuel + 1)) e site (before ++ after) w =
      bootstrap (engine limit (fuel + 1)) e site after w₁ := by
  induction h with
  | nil w => rfl
  | @cons module rest w w₁ w' first _ ih =>
    obtain ⟨vs, hrun⟩ := (run_file_done_iff module w w₁).mpr first
    rw [List.cons_append, bootstrap_cons, hrun]
    exact ih

theorem Bootstrapped.cons {α : Type} {a : α} {module : String} {rest : List String} {w w₁ : World}
    {o : Outcome String α} (first : RunsOnce limit fuel e site module w w₁)
    (h : Bootstrapped limit fuel e site a rest w₁ o) :
    Bootstrapped limit fuel e site a (module :: rest) w o := by
  cases h with
  | complete h => exact .complete (.cons first h)
  | failed hmodules hbefore hmodule =>
    have hlist := congrArg (module :: ·) hmodules
    exact .failed hlist (.cons first hbefore) hmodule
  | endless hmodules hbefore hmodule =>
    have hlist := congrArg (module :: ·) hmodules
    exact .endless hlist (.cons first hbefore) hmodule

theorem bootstrapped {α : Type} (a : α) (modules : List String) (w : World) :
    Bootstrapped limit fuel e site a modules w
      ((bootstrap (engine limit (fuel + 1)) e site modules >>= fun _ => pure a) w) := by
  -- the first module that does not run to its end decides; there is nothing after it but what is left
  induction modules generalizing w with
  | nil => exact .complete (.nil w)
  | cons module rest ih =>
    have hlist : module :: rest = [] ++ module :: rest := rfl
    rw [Act.bind_apply, bootstrap_cons]
    cases hrun : runFile (engine limit (fuel + 1)) e site module w with
    | done vs w₁ => exact (ih w₁).cons ((run_file_done_iff module w w₁).mp ⟨vs, hrun⟩)
    | raised message w₁ => exact .failed hlist (.nil w) hrun
    | starved => exact .endless hlist (.nil w) hrun

/-- How it ends is determined by what the modules do. -/
theorem Bootstrapped.eq {α : Type} {a : α} {modules : List String} {w : World}
    {o : Outcome String α} (h : Bootstrapped limit fuel e site a modules w o) :
    (bootstrap (engine limit (fuel + 1)) e site modules >>= fun _ => pure a) w = o := by
  rw [Act.bind_apply]
  cases h with
  | complete h =>
    have hall := h.bootstrap_append []
    rw [List.append_nil] at hall
    rw [hall]
    rfl
  | failed hmodules hbefore hmodule =>
    rw [hmodules, hbefore.bootstrap_append, bootstrap_cons, hmodule]
  | endless hmodules hbefore hmodule =>
    rw [hmodules, hbefore.bootstrap_append, bootstrap_cons, hmodule]

/-- Making an environment is running the bootstrap modules in it. -/
theorem create_eq_iff (w : World) (o : Outcome String EnvironmentId) :
    create (engine limit (fuel + 1)) site w = o ↔
      Bootstrapped limit fuel w.nextEnvironment site w.nextEnvironment w.config.bootstrap
        w.extended o := by
  have hcreate : create (engine limit (fuel + 1)) site w =
      (bootstrap (engine limit (fuel + 1)) w.nextEnvironment site w.config.bootstrap >>= fun _ =>
        pure w.nextEnvironment) w.extended := rfl
  rw [hcreate]
  constructor
  · rintro rfl
    exact bootstrapped _ _ _
  · exact Bootstrapped.eq

/-- A script that asks for an environment which cannot be made gets an error for it. -/
theorem new_script_fails {f : Value} {args : List Value} {text : String} {w w' : World}
    (hf : (w.heap e).builtin? f = some (.host .newScript)) (hdepth : ¬ depthLimit < site.depth)
    (hsession : w.session.isSome)
    (hcreate : create (engine limit fuel) (Scripts.siteInside ⟨e, site, none⟩) w =
      .raised text w') :
    engine limit (fuel + 1) .values (.call e site f args) w =
      .raised (.userdata (w'.heap e).nextUserdata) (w'.withError e (.runtime text)) := by
  have hcall : engine limit (fuel + 1) .values (.call e site f args) w =
      callBuiltin limit (engine limit fuel) ⟨e, site, none⟩ (.host .newScript) args w :=
    Call.run_builtin hdepth hf
  have hpresent : ¬ w.session.isNone = true := by
    rw [Bool.not_eq_true, Option.isNone_eq_false_iff]
    exact hsession
  have hscript : Scripts.create (engine limit fuel) ⟨e, site, none⟩ w =
      .raised (.runtime text) w' := by
    rw [Scripts.create, Act.bind_apply]
    unfold Act.read
    dsimp only
    rw [if_neg hpresent, Act.bind_apply, Act.map_error_apply, hcreate]
  -- the error becomes an object on the side of the script that asked
  rw [hcall]
  apply Boundary.in_script_raised
  rw [Interface.callHost, Act.bind_apply, hscript]

/-- An environment is made with all of its bootstrap modules or not at all. They begin in an
environment with all documented functions, and what they do decides how the making ends. Where it
fails, nothing leads to the environment and its callbacks are refused from then on; a script that
asked for it gets an error and no handle. Worlds are orderly at every moment of every run, and
what tasks of scripts and steps of hosts leave behind is among what may become of a world. -/
theorem creation_is_all_or_nothing :
    (∀ limit fuel site (w : World) o, create (engine limit (fuel + 1)) site w = o ↔
      Bootstrapped limit fuel w.nextEnvironment site w.nextEnvironment w.config.bootstrap
        w.extended o) ∧
    (∀ (w : World), ∀ name ∈ Reference.names, w.extended.Provides w.nextEnvironment name) ∧
    (∀ limit fuel site (w : World) text w', Orderly w →
      create (engine limit fuel) site w = .raised text w' →
        Orderly w' ∧ w'.Discarded w.nextEnvironment) ∧
    (∀ limit fuel e site f args (w : World) text w',
      (w.heap e).builtin? f = some (.host .newScript) → ¬ depthLimit < site.depth →
      w.session.isSome →
      create (engine limit fuel) (Scripts.siteInside ⟨e, site, none⟩) w = .raised text w' →
        engine limit (fuel + 1) .values (.call e site f args) w =
          .raised (.userdata (w'.heap e).nextUserdata) (w'.withError e (.runtime text)) ∧
        (w'.withError e (.runtime text)).Carries e (.userdata (w'.heap e).nextUserdata)
          ("runtime error: " ++ text) ∧
        (Orderly w → (w'.withError e (.runtime text)).Discarded w.nextEnvironment)) ∧
    (∀ config library steps stop limit fuel,
      Orderly (Host.performAll (stopped stop limit fuel) [] steps (World.new config library)).world) ∧
    ∀ (w : World) stop limit fuel,
      (∀ k (t : Lua.Task k), Future w ((stopped stop limit fuel) k t w).world) ∧
      ∀ held steps, Future w (Host.performAll (stopped stop limit fuel) held steps w).world := by
  refine ⟨?_, ?_, ?_, ?_, ?_, ?_⟩
  · intro limit fuel site w o
    exact create_eq_iff w o
  · intro w name hname
    exact w.provides_extended hname
  · intro limit fuel site w text w' hw hcreate
    have hmade := (made_create (lawful_engine limit fuel) site w).1
    rw [hcreate] at hmade
    exact hmade.discarded hw
  · intro limit fuel e site f args w text w' hf hdepth hsession hcreate
    have hmade := (made_create (lawful_engine limit fuel) (Scripts.siteInside ⟨e, site, none⟩) w).1
    rw [hcreate] at hmade
    -- the script that asked is there all along: the error object is made in its environment
    have hlater : Later w w' := by
      obtain ⟨message, w₀, hr, rfl⟩ := hmade
      exact Host.lasting_later.reaches (.abandon (a := .host) message hr)
    have he : w'.Allocated e := hlater.allocated (World.allocated_of_builtin hf)
    refine ⟨new_script_fails hf hdepth hsession hcreate, w'.carries_withError e he _, ?_⟩
    intro hw
    exact (hmade.discarded hw).2.with_error e _
  · intro config library steps stop limit fuel
    have hrun := Host.advanced_performAll (lawful_stopped stop limit fuel) steps []
      (World.new config library)
    exact hrun.orderly (Host.ready_new config library)
  · intro w stop limit fuel
    have hlawful := lawful_stopped stop limit fuel
    constructor
    · intro k t
      exact Host.lasting_future.upholds ((hlawful k t).upholds w)
    · intro held steps
      exact Host.lasting_future.advanced (Host.advanced_performAll hlawful steps held w)

abbrev lacking : World :=
  World.new { Config.default with bootstrap := ["a.lua", "b.lua"] }
    (.ofList [("a.lua", .bytes (.ofText "onNewPlayerShip(print)"))])

/-- The first module installs a hook before the second one fails; no ship gets at it. -/
theorem hook_outlives_its_bootstrap :
    ∃ c w', create (engine 12 12) .outside lacking = .raised "Bootstrap module b.lua failed" w' ∧
      w'.session.bind (·.playerShipHook) = some c ∧ ¬ w'.Referred ⟨0⟩ ∧
      Callbacks.firePlayerShip (engine 12 12) .outside 0 w' =
        .raised .invalidHandle
          (w'.addError ("onNewPlayerShip: " ++ ScriptError.invalidHandle.message)) := by
  have hends : (create (engine 12 12) .outside lacking).error? =
        some "Bootstrap module b.lua failed" ∧
      ((create (engine 12 12) .outside lacking).world.session.bind (·.playerShipHook)).map
        (·.environment) = some ⟨0⟩ := by
    rw [create_eq, making_apply, World.extended_eq_listed]
    decide +kernel
  obtain ⟨hraised, hhook⟩ := hends
  -- the hook belongs to the environment that was given up
  obtain ⟨c, hc, hzero⟩ := Option.map_eq_some_iff.mp hhook
  have hcreate := Outcome.raised_of_error hraised
  have hready : Host.Ready [] lacking := Host.ready_new _ _
  obtain ⟨_, hdiscarded⟩ :=
    creation_is_all_or_nothing.2.2.1 12 12 .outside lacking _ _ hready.orderly hcreate
  have hrefuses := hdiscarded.refused _ (.refl _)
  exact ⟨c, _, hcreate, hc, hdiscarded.unreferred, hrefuses.ship _ _ 0 c hc hzero⟩

end Environments

end ScenarioHost
