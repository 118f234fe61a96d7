import ScenarioHost.Proofs.Handles
import ScenarioHost.Proofs.Isolation
import ScenarioHost.Proofs.NameTables

/-!
What isolation means for runs. Whatever is run in other environments, an environment stays as it
is and is not observed, unless its own code is carried out, or a variable of it is set by a
handle, which changes that one global.
-/
namespace ScenarioHost

open Engine (engine stopped)
open Host (HostStep)
open Lua (Evaluator Kind Site Spot Value)

/-- Code of the environment is about to be carried out, or a variable of it to be set by a handle.
-/
def Engine.Touches (w : World) (b : EnvironmentId) {k : Kind} (t : Lua.Task k) : Prop :=
  t.env = b ∨ Assigns w b t

def Engine.Guards (b : EnvironmentId) (stop : (k : Kind) → Lua.Task k → World → Bool) : Prop :=
  ∀ k (t : Lua.Task k) w, Touches w b t → stop k t w = true

/-- Something that is done under an evaluator is isolated from an environment: its interior stays as
it is at all moments until it is touched; and what comes to its end before that does the same under
the engine that is not stopped, whatever the interior is. -/
structure Isolated (b : EnvironmentId) {ε α : Type} (F : Evaluator → Act ε α) : Prop where
  unchanged {stop : (k : Kind) → Lua.Task k → World → Bool} (hstop : Engine.Guards b stop)
    (limit fuel : Nat) {w : World} (hb : w.Allocated b) :
    (F (stopped stop limit fuel) w).world.interior b = w.interior b
  unobserved {stop : (k : Kind) → Lua.Task k → World → Bool} (hstop : Engine.Guards b stop)
    (limit fuel : Nat) {w : World} (hb : w.Allocated b)
    (hended : (F (stopped stop limit fuel) w).Ended) :
    F (engine limit fuel) w = F (stopped stop limit fuel) w ∧
    ∀ i, F (engine limit fuel) (w.withInterior b i) = (F (engine limit fuel) w).withInterior b i

section Laws

variable {b : EnvironmentId} {ε α : Type} {F : Evaluator → Act ε α} {Q : α → Prop}

theorem Outcome.withInterior_own {o : Outcome ε α} {i : Interior} (h : o.world.interior b = i) :
    o.withInterior b i = o := by
  subst h
  cases o with
  | done a w => exact congrArg (Outcome.done a) w.withInterior_interior
  | raised e w => exact congrArg (Outcome.raised e) w.withInterior_interior
  | @starved w => exact congrArg (@Outcome.starved ε α) w.withInterior_interior

/-- What obeys the law of keeping apart is isolated. -/
theorem isolated_of_law (h : ∀ run run', (Regime.isolating b).Lawful run run' →
    (Law.secluding b).Admits Q (F run) (F run')) : Isolated b F := by
  have hsecludes {stop : (k : Kind) → Lua.Task k → World → Bool} (hstop : Engine.Guards b stop)
      (limit fuel : Nat) {w : World} (hb : w.Allocated b) :
      (F (stopped stop limit fuel) w).Secludes b w Q (F (engine limit fuel)) := by
    have hspares : Engine.Spares (Regime.isolating b) stop := by
      constructor
      · exact fun _ _ => trivial
      · intro k t w hown
        exact hstop k t w (.inl (not_not.mp hown).symm)
      · intro k t w script hassigns hown
        obtain rfl : b = script := not_not.mp hown
        exact hstop k t w (.inr hassigns)
      · exact fun _ _ _ _ _ _ _ hpermits => absurd trivial hpermits
    exact (h _ _ (Engine.stopped_lawful_engine hspares limit fuel)).holds w hb
  constructor
  · intro stop hstop limit fuel w hb
    exact (hsecludes hstop limit fuel hb).interior
  · intro stop hstop limit fuel w hb hended
    have hbeside := (hsecludes hstop limit fuel hb).beside
    -- the interior that the environment has is one of those that it might have
    have hsame : F (engine limit fuel) w = F (stopped stop limit fuel) w := by
      have hown := hbeside (w.interior b) hended
      rw [w.withInterior_interior] at hown
      exact hown.trans (Outcome.withInterior_own (hsecludes hstop limit fuel hb).interior)
    refine ⟨hsame, fun i => ?_⟩
    rw [hsame]
    exact hbeside i hended

theorem isolated_of_by {a : Agent} (ha : (Regime.isolating b).Free a)
    (h : ∀ run run', (Regime.isolating b).Lawful run run' →
      (Regime.isolating b).By a Q (F run) (F run')) : Isolated b F :=
  isolated_of_law fun run run' hrun => (h run run' hrun).law ha

end Laws

def Host.HostStep.Elsewhere (b : EnvironmentId) : HostStep → Prop
  | .ask e _ => b ≠ e
  | .define e _ => b ≠ e
  | _ => True

/-- An environment is isolated from everything by which scripts come to run in other ones. -/
structure Isolation (b : EnvironmentId) : Prop where
  tasks (k : Kind) (t : Lua.Task k) : Isolated b fun run => run k t
  runFile (e : EnvironmentId) (site : Site) (path : String) :
    Isolated b fun run => Loading.runFile run e site path
  runLocalized (e : EnvironmentId) (site : Site) (path : String) :
    Isolated b fun run => Loading.runLocalized run e site path
  requireModule (e : EnvironmentId) (site : Site) (name : String) :
    Isolated b fun run => Loading.requireModule run e site name
  evaluate (e : EnvironmentId) (site : Site) (name : String) (source : ByteString) :
    Isolated b fun run => Loading.evaluate run e site name source
  callFunction (e : EnvironmentId) (site : Site) (name : String) (args : List Value) : b ≠ e →
    Isolated b fun run => Boundary.callGlobal run e site name args
  callback (site : Site) (c : Callback) (args : List Value) :
    Isolated b fun run => Callbacks.invoke run site c args
  button (site : Site) (i : Nat) : Isolated b fun run => Callbacks.runButton run site i
  playerShip (site : Site) (ship : Nat) :
    Isolated b fun run => Callbacks.firePlayerShip run site ship
  reply (site : Site) (i source target : Nat) :
    Isolated b fun run => Callbacks.selectReply run site i source target
  create (site : Site) : Isolated b fun run => Environments.create run site
  newScript (s : Spot) : b ≠ s.env → Isolated b fun run => Scripts.create run s
  runScript (s : Spot) (args : List Value) : b ≠ s.env →
    Isolated b fun run => Scripts.runModule run s args
  runScenario (e : EnvironmentId) (entry : String) (ticks : Nat) (delta : Single) : b ≠ e →
    Isolated b fun run => (Headless.runScenario run e entry ticks delta : Act Empty Bool)
  host (held : List EnvironmentId) (steps : List HostStep) : (∀ s ∈ steps, s.Elsewhere b) →
    Isolated b fun run => Host.performAll run held steps

/-- Where a task belongs to the environment itself, the engine is stopped before it begins. -/
theorem isolated_task (b : EnvironmentId) (k : Kind) (t : Lua.Task k) :
    Isolated b fun run => run k t := by
  by_cases hown : b = t.env
  · refine isolated_of_law (Q := fun _ => True) fun run run' h => ?_
    rw [h.halted k t (not_not.mpr hown)]
    exact .starve _
  · exact isolated_of_by (a := .code t.env) hown fun run run' h => h.tasks k t

theorem isolation (b : EnvironmentId) : Isolation b where
  tasks := isolated_task b
  runFile _ site path := isolated_of_law fun _ _ h =>
    Loading.law_load h site path (l := .plain) fun _ => trivial
  runLocalized _ site path := isolated_of_law fun _ _ h =>
    Loading.law_load h site path (l := .localized) fun _ => trivial
  requireModule _ site name := isolated_of_law fun _ _ h =>
    Loading.law_load h site name (l := .required) fun _ => trivial
  evaluate _ site name source := isolated_of_law fun _ _ h => Loading.law_evaluate h site name source
  callFunction e site name args he :=
    isolated_of_by (a := .code e) he fun _ _ h => Boundary.within_callGlobal h site name args
  callback site c args :=
    isolated_of_by (a := .host) trivial fun _ _ h => Callbacks.by_invoke h site c args
  button site i :=
    isolated_of_by (a := .host) trivial fun _ _ h =>
      Callbacks.by_invocation h site (v := .button i) fun _ => trivial
  playerShip site ship :=
    isolated_of_by (a := .host) trivial fun _ _ h =>
      Callbacks.by_invocation h site (v := .playerShip ship) fun _ => trivial
  reply site i source target :=
    isolated_of_by (a := .host) trivial fun _ _ h =>
      Callbacks.by_invocation h site (v := .reply i source target) fun _ => trivial
  create site := by
    refine isolated_of_law (Q := fun _ => True) fun run run' h => ⟨fun w => ?_⟩
    rw [Environments.create_eq, Environments.create_eq]
    exact Law.secluding_making ((Environments.law_booting h site).holds w.extended)
  newScript s hs := isolated_of_by (a := .code s.env) hs fun _ _ h => Scripts.within_create h s
  runScript s args hs :=
    isolated_of_by (a := .code s.env) hs fun _ _ h => Scripts.within_runModule h s args trivial
  runScenario e entry ticks delta he := by
    refine isolated_of_by (a := .code e) (Q := fun _ => True) he fun run run' h => ?_
    refine Host.within_runScenario h entry trivial (Regime.by_of_law ⟨fun w => ?_⟩) ticks
    exact (Regime.isolating_hosting b).advance e w delta
  host held steps hsteps := by
    refine isolated_of_law fun run run' h =>
      Host.law_performAll (Regime.isolating_hosting b) h (fun _ _ => trivial) held steps
        (fun s hs => ?_) fun _ _ => trivial
    have helsewhere := hsteps s hs
    cases s <;> exact helsewhere

/-- Environments are isolated from each other. What is run elsewhere, up to the moment in which
code of an environment is carried out or a variable of it set by a handle, leaves all that its
scripts can reach as it is and does not depend on it. A new environment is the same whoever makes
it. A variable that is set by a handle, where the globals have no handler for new ones, becomes
that text and is the only thing that changes; the table of globals is there in every world that a
run comes by. -/
theorem environments_are_isolated :
    (∀ b, Isolation b) ∧
    (∀ w : World, w.extended.interior w.nextEnvironment = .initial) ∧
    (∀ limit fuel env site f args (w : World) b name value,
      (w.heap env).builtin? f = some (.handle .setVariable) →
      ¬ Engine.depthLimit < site.depth →
      Scripts.variableArguments args (w.heap env) = .ok (b, name, value) →
      w.isPresent b → w.Rooted →
      (w.heap b).handler (.table (w.environment b).globals) "__newindex" = .nil →
      ∃ w', engine limit (fuel + 1) .values (.call env site f args) w = .done [] w' ∧
        w.SetsGlobal w' b name value) ∧
    ∀ config library steps stop limit fuel,
      (Host.performAll (stopped stop limit fuel) [] steps
        (World.new config library)).world.Rooted := by
  refine ⟨isolation, ?_, ?_, ?_⟩
  · intro w
    rw [World.interior, World.environment_extended, if_pos rfl]
    rfl
  · intro limit fuel env site f args w b name value hf hdepth hargs hpresent hrooted hplain
    have hb : w.Allocated b := World.allocated_of_present hpresent
    refine ⟨w.assigned b name value, ?_, World.sets_global_assigned hb hrooted name value⟩
    exact Engine.assigns_global hf hdepth hargs hpresent hplain
  · intro config library steps stop limit fuel
    have hnew : (World.new config library).Rooted := fun e he => absurd he (Nat.not_lt_zero _)
    exact World.enduring_rooted.performAll stop limit fuel [] steps (World.new config library) hnew

abbrev World.paired : World :=
  (World.new .default (.ofList [])).extended.extended.adopted ⟨0⟩ ⟨1⟩

/-- A script of the first environment sets a variable of the second one. -/
theorem score_set_by_handle :
    ∃ w', engine 1 1 .values (.call ⟨0⟩ .outside (.function ⟨86⟩)
        [.userdata ⟨0⟩, .text "score", .text "7"]) World.paired = .done [] w' ∧
      World.paired.SetsGlobal w' ⟨1⟩ "score" "7" := by
  have hnew : (World.new .default (.ofList [])).Rooted := fun e he => absurd he (Nat.not_lt_zero _)
  have hrooted : World.paired.Rooted := World.enduring_rooted.adopted _ _ _
    (World.enduring_rooted.extended _ (World.enduring_rooted.extended _ hnew))
  have hmethod : (World.paired.heap ⟨0⟩).builtin? (.function ⟨86⟩) =
      some (.handle .setVariable) := by decide
  have harguments : Scripts.variableArguments [.userdata ⟨0⟩, .text "score", .text "7"]
      (World.paired.heap ⟨0⟩) = .ok (⟨1⟩, "score", "7") := by
    have hconverted : (Scripts.variableArguments [.userdata ⟨0⟩, .text "score", .text "7"]
        (World.paired.heap ⟨0⟩)).toOption = some (⟨1⟩, "score", "7") := by decide
    generalize Scripts.variableArguments _ _ = converted at hconverted
    cases converted with
    | ok a => exact congrArg Except.ok (Option.some.inj hconverted)
    | error cause => cases hconverted
  have hpresent : World.paired.isPresent ⟨1⟩ = true := by rfl
  have hplain : (World.paired.heap ⟨1⟩).handler (.table (World.paired.environment ⟨1⟩).globals)
      "__newindex" = .nil := by
    rw [World.paired, World.extended_eq_listed, World.extended_eq_listed]
    exact (Value.isNil_iff _).mp (by decide +kernel)
  exact environments_are_isolated.2.2.1 1 0 ⟨0⟩ .outside _ _ _ _ _ _ hmethod (by decide) harguments
    hpresent hrooted hplain

end ScenarioHost
