import ScenarioHost.Proofs.NameTables
import ScenarioHost.Proofs.Propagation

/-!
Failures of nested loads. A module that fails to load fails the module that requires it, and so on
outwards: each level puts its prefix before the text of the failure, and nothing is done on the way
but to make the error objects that scripts could have caught.
-/
namespace ScenarioHost

open Lua (Evaluator FunctionId Site Spot TableId Value)

/-- What scripts never change or take back: the modules and settings of a world, and the overlays
that were asked for. -/
structure World.Remembers (w w' : World) : Prop where
  library : w'.library = w.library
  config : w'.config = w.config
  requested : w.catalog.requested <+: w'.catalog.requested

namespace World.Remembers

variable {w w' w'' : World}

theorem of_same (hl : w'.library = w.library) (hc : w'.config = w.config)
    (hr : w'.catalog = w.catalog) : w.Remembers w' :=
  ⟨hl, hc, hr ▸ List.prefix_rfl⟩

theorem refl (w : World) : w.Remembers w := .of_same rfl rfl rfl

theorem trans (h : w.Remembers w') (h' : w'.Remembers w'') : w.Remembers w'' :=
  ⟨h'.library.trans h.library, h'.config.trans h.config, h.requested.trans h'.requested⟩

theorem since (h' : w'.Remembers w'') (h : w.Remembers w') : w.Remembers w'' := h.trans h'

end World.Remembers

theorem World.remembers_clearScripts (w : World) : w.Remembers w.clearScripts :=
  kept_by_clearScripts .refl .trans (fun _ _ => .of_same rfl rfl rfl)
    (fun _ _ => .of_same rfl rfl rfl) w

theorem World.remembers_overlay (w : World) (name : String) : w.Remembers (w.loadOverlay name) :=
  ⟨rfl, rfl, (Catalog.requested_load w.catalog name).symm ▸ List.prefix_append _ _⟩

theorem Effect.remembers {a : Agent} {w w' : World} (h : Effect a w w') : w.Remembers w' := by
  cases h with
  | clearScripts => exact w.remembers_clearScripts
  | overlay e w name => exact w.remembers_overlay name
  | letGo w e => exact World.kept_by_letGo .refl (fun _ _ => .of_same rfl rfl rfl) w e
  | _ => exact .of_same rfl rfl rfl

theorem World.lasting_remembers : Lasting World.Remembers where
  refl := .refl
  trans := .trans
  effect he := he.remembers
  enter _ := .of_same rfl rfl rfl
  leave _ _ := .of_same rfl rfl rfl
  hold _ := .of_same rfl rfl rfl
  unhold _ _ := .of_same rfl rfl rfl
  extended _ := .of_same rfl rfl rfl
  adopted _ _ _ := .of_same rfl rfl rfl
  destroy _ _ := .of_same rfl rfl rfl

theorem Outcome.Upholds.remembers {ε α : Type} {a : Agent} {Q : α → Prop} {w : World}
    {o : Outcome ε α} (h : o.Upholds (Reaches a) (Passes a) Q w) : w.Remembers o.world :=
  World.lasting_remembers.upholds h

theorem Engine.Leads.remembers {screen : Builtin → Bool} {limit : Nat} {c c' : Engine.Call}
    {w w' : World} (h : Engine.Leads screen limit c w c' w') : w.Remembers w' := by
  induction h with
  | @comes watch stop c w w' _ h =>
    have hlawful := Engine.lawful_watched screen watch limit c.fuel .values c.task
    have hkept := (hlawful.upholds w).remembers
    rwa [h] at hkept
  | @initializes fuel env site f args object init w w' _ _ h =>
    have hlawful := Engine.lawful_engine limit fuel
    have hallocate := course_reaches.keeps
      (Classes.within_allocate ⟨env, site, none⟩ args hlawful.reaching)
    have hkept := (hallocate.upholds w).remembers
    rwa [h] at hkept
  | trans _ _ first second => exact first.trans second

/-- An error as it arrives at the outermost of modules that require each other; it has passed `n` of
them on its way out. -/
def ScriptError.passed (e : ScriptError) : (n : Nat) → ScriptError
  | 0 => e
  | n + 1 => .runtime (String.join (List.replicate (n + 1) "require:") ++ e.message)

theorem ScriptError.passed_message (e : ScriptError) (n : Nat) :
    (e.passed n).message = String.join (List.replicate n "require:") ++ e.message := by
  cases n with
  | zero => exact String.empty_append.symm
  | succ n => rfl

theorem ScriptError.passed_succ (e : ScriptError) (n : Nat) :
    .runtime ("require:" ++ (e.passed n).message) = e.passed (n + 1) := by
  have hjoin (s t : String) : s ++ (String.join (List.replicate n s) ++ t) =
      String.join (List.replicate (n + 1) s) ++ t := by
    rw [List.replicate_succ, String.join_cons, String.append_assoc]
  rw [passed_message, hjoin]
  rfl

namespace Loading

open Engine

/-- A chain of modules each of which, when it is run, comes to require the next one, and the loading
of the last of which ends in an error in the world `w'`. -/
inductive Fails (screen : Builtin → Bool) (limit : Nat) (env : EnvironmentId) :
    (fuel : Nat) → Site → World → String → List String → ScriptError → World → Prop where
  | last {fuel : Nat} {site : Site} {w w' : World} {name : String} {error : ScriptError}
      (h : requireModule (engine limit fuel) env site name w = .raised error w') :
      Fails screen limit env fuel site w name [] error w'
  | nested {fuel fuel₁ : Nat} {site site₁ : Site} {w w₀ w₁ w' : World} {name next : String}
      {content : ByteString} {chunk : FunctionId} {f : Value} {args : List Value}
      {rest : List String} {error : ScriptError}
      (hname : w.library.source? (ModuleName.normalize name) = some (.bytes content))
      (hload : compileFile (engine limit fuel) env site name content (prepared w name) =
        .done chunk w₀)
      (hleads : Leads screen limit ⟨fuel, env, site, .function chunk, []⟩ w₀
        ⟨fuel₁ + 1, env, site₁, f, args⟩ w₁)
      (hnext : Call.required? ⟨fuel₁ + 1, env, site₁, f, args⟩ w₁ = some next)
      (h : Fails screen limit env fuel₁ (site₁.push .host) w₁ next rest error w') :
      Fails screen limit env fuel site w name (next :: rest) error w'

/-- A module that compiles is run, and its failure reported. -/
theorem require_module_compiled {run : Evaluator} {env : EnvironmentId} {site : Site}
    {name : String} {w w₀ : World} {content : ByteString} {chunk : FunctionId}
    (hname : w.library.source? (ModuleName.normalize name) = some (.bytes content))
    (hload : compileFile run env site name content (prepared w name) = .done chunk w₀) :
    requireModule run env site name w =
      (Boundary.call run env site (.function chunk) []).mapError
        (fun cause => .runtime ("require:" ++ cause.message)) w₀ := by
  rw [require_module_known run env site name w hname, map_error_run_source]
  dsimp only
  rw [Act.bind_apply, Act.map_error_apply, hload]
  rfl

/-- The failure of the last module of a chain passes all others. -/
theorem Fails.raises {limit : Nat} {env : EnvironmentId} {fuel : Nat} {site : Site} {w w' : World}
    {name : String} {rest : List String} {error : ScriptError}
    (h : Fails Builtin.screens limit env fuel site w name rest error w') :
    ∃ causes, requireModule (engine limit fuel) env site name w =
      .raised (error.passed rest.length) (w'.withErrors env causes) := by
  induction h with
  | last h => exact ⟨[], h⟩
  | @nested fuel fuel₁ site site₁ w w₀ w₁ w' name next content chunk f args rest error hname hload
      hleads hnext _ ih =>
    obtain ⟨causes, hcauses⟩ := ih
    obtain ⟨v, causes', hrun, hv⟩ := required_raises
      (c := ⟨fuel, env, site, .function chunk, []⟩) hleads hnext hcauses
    rw [World.with_errors_append] at hrun hv
    -- what the module raises is reported with the text of the error that it did not handle
    obtain ⟨cause, hcause, hmessage⟩ : ∃ cause, Boundary.call (engine limit fuel) env site
        (.function chunk) [] w₀ = .raised cause (w'.withErrors env (causes ++ causes')) ∧
          cause.message = (error.passed rest.length).message :=
      Boundary.from_host_carried hrun hv
    refine ⟨causes ++ causes', ?_⟩
    rw [require_module_compiled hname hload, Act.map_error_apply, hcause]
    dsimp only
    rw [hmessage, error.passed_succ rest.length]
    rfl

def overlays (w : World) (names : List String) : List String :=
  (names.filter fun name => (w.library.source? (ModuleName.normalize name)).isSome).map
    (overlayName w)

theorem overlays_of_remembers {w w' : World} (h : w.Remembers w') (names : List String) :
    overlays w' names = overlays w names := by
  have hoverlay : overlayName w' = overlayName w := by
    funext name
    rw [overlayName, h.config, overlayName]
  rw [overlays, h.library, hoverlay, overlays]

theorem overlays_cons (w : World) (name : String) (rest : List String) :
    overlays w (name :: rest) = overlays w [name] ++ overlays w rest := by
  rw [overlays, ← List.singleton_append, List.filter_append, List.map_append, overlays, overlays]

theorem requested_prepared {w w' : World} {name : String} {source : Source}
    (hname : w.library.source? (ModuleName.normalize name) = some source)
    (h : (prepared w name).Remembers w') :
    (w.catalog.requested ++ overlays w [name]).Sublist w'.catalog.requested ∧ w.Remembers w' := by
  have hprepared : (prepared w name).catalog.requested =
      w.catalog.requested ++ overlays w [name] := by
    rw [overlays, List.filter_singleton, hname]
    exact Catalog.requested_load w.catalog (overlayName w name)
  refine ⟨hprepared ▸ h.requested.sublist, ?_⟩
  exact h.since ((w.remembers_overlay _).trans (.of_same rfl rfl rfl))

/-- Along a chain the overlays of all modules that were opened are asked for, and stay so. -/
theorem Fails.requested {screen : Builtin → Bool} {limit : Nat} {env : EnvironmentId} {fuel : Nat}
    {site : Site} {w w' : World} {name : String} {rest : List String} {error : ScriptError}
    (h : Fails screen limit env fuel site w name rest error w') :
    (w.catalog.requested ++ overlays w (name :: rest)).Sublist w'.catalog.requested := by
  induction h with
  | @last fuel site w w' name error h =>
    cases hname : w.library.source? (ModuleName.normalize name) with
    | none =>
      rw [require_module_unknown (engine limit fuel) env site name w hname] at h
      cases h
      simp [overlays, hname]
    | some source =>
      rw [require_module_known (engine limit fuel) env site name w hname] at h
      have hrun : ((runSource (engine limit fuel) env site name source).mapError
          (LoadFailure.required name)).Within env :=
        .map_error (keeps_runSource site name ((lawful_engine limit fuel).keeps_in env) source)
      have hkept := (hrun.upholds (prepared w name)).remembers
      rw [h] at hkept
      exact (requested_prepared hname hkept).1
  | @nested fuel fuel₁ site site₁ w w₀ w₁ w' name next content chunk f args rest error hname hload
      hleads hnext _ ih =>
    have hcompile := keeps_compileFile ((lawful_engine limit fuel).keeps_in env) site name content
    have hcompiled := (hcompile.upholds (prepared w name)).remembers
    rw [hload] at hcompiled
    -- the overlay of the first module was asked for before any of the others
    obtain ⟨hone, hsince⟩ := requested_prepared hname (hcompiled.trans hleads.remembers)
    rw [overlays_of_remembers hsince] at ih
    refine .trans ?_ ih
    rw [overlays_cons, ← List.append_assoc]
    exact hone.append_right _

def CallFails (limit : Nat) (c : Call) (w : World) (next : String) (rest : List String)
    (error : ScriptError) (w' : World) : Prop :=
  ∃ fuel site f args w₁, Leads Builtin.screens limit c w ⟨fuel + 1, c.env, site, f, args⟩ w₁ ∧
    Call.required? ⟨fuel + 1, c.env, site, f, args⟩ w₁ = some next ∧
      Fails Builtin.screens limit c.env fuel (site.push .host) w₁ next rest error w'

theorem pcall_apply (run : Evaluator) (s : Spot) (f : Value) (args : List Value) (w : World) :
    Lua.Library.pcall run s (f :: args) w =
      match run .values (.call s.env (s.site none) f args) w with
      | .done vs w' => .done (.boolean true :: vs) w'
      | .raised v w' => .done [.boolean false, v] w'
      | @Outcome.starved _ _ w' => @Outcome.starved _ _ w' := by
  have hfunction : Lua.Library.anyArg s (f :: args) 1 w = .done f w := rfl
  unfold Lua.Library.pcall Lua.Library.protectedCall
  rw [Act.bind_apply, hfunction]
  dsimp only [List.tail_cons]
  rw [Act.bind_apply, Act.attempt_apply]
  cases run .values (.call s.env (s.site none) f args) w <;> rfl

/-- A call that protects another one gives the error of that as a value. -/
theorem run_protected {limit fuel : Nat} {env : EnvironmentId} {site : Site} {g f : Value}
    {args : List Value} {w : World} (hdepth : ¬ depthLimit < site.depth)
    (hg : (w.heap env).builtin? g = some (.base .pcall)) :
    Call.run limit ⟨fuel + 1, env, site, g, f :: args⟩ w =
      match Call.run limit ⟨fuel, env, site.push .host, f, args⟩ w with
      | .done vs w' => .done (.boolean true :: vs) w'
      | .raised v w' => .done [.boolean false, v] w'
      | @Outcome.starved _ _ w' => @Outcome.starved _ _ w' := by
  -- the protected call is made one level further in
  rw [Call.run_builtin hdepth hg]
  exact pcall_apply (engine limit fuel) ⟨env, site, none⟩ f args w

theorem CallFails.caught {limit fuel : Nat} {env : EnvironmentId} {site : Site} {g f : Value}
    {args : List Value} {w w' : World} {next : String} {rest : List String} {error : ScriptError}
    (h : CallFails limit ⟨fuel, env, site.push .host, f, args⟩ w next rest error w')
    (hdepth : ¬ depthLimit < site.depth) (hg : (w.heap env).builtin? g = some (.base .pcall)) :
    ∃ v causes, Call.run limit ⟨fuel + 1, env, site, g, f :: args⟩ w =
        .done [.boolean false, v] (w'.withErrors env causes) ∧
      (w'.withErrors env causes).Carries env v (error.passed rest.length).message := by
  obtain ⟨fuel₁, site₁, f₁, args₁, w₁, hleads, hnext, hfails⟩ := h
  obtain ⟨causes, hcauses⟩ := hfails.raises
  obtain ⟨v, causes', hrun, hv⟩ := required_raises hleads hnext hcauses
  rw [World.with_errors_append] at hrun hv
  refine ⟨v, causes ++ causes', ?_, hv⟩
  rw [run_protected hdepth hg, hrun]

/-- A failure to load the last module of a chain is the failure to load the first one, with a prefix
for each module in between: none of these goes on, and what was done before stays done. A call that
protects the loading of such a chain ends all right, in the same world, and gives the failure. -/
theorem failures_pass_outwards :
    (∀ limit env fuel site w name rest error w',
      Fails Builtin.screens limit env fuel site w name rest error w' →
      (∃ causes, requireModule (engine limit fuel) env site name w =
        .raised (error.passed rest.length) (w'.withErrors env causes)) ∧
      (w.catalog.requested ++ overlays w (name :: rest)).Sublist w'.catalog.requested) ∧
    ∀ limit fuel env site g f args w next rest error w',
      CallFails limit ⟨fuel, env, site.push .host, f, args⟩ w next rest error w' →
      ¬ depthLimit < site.depth → (w.heap env).builtin? g = some (.base .pcall) →
      ∃ v causes, Call.run limit ⟨fuel + 1, env, site, g, f :: args⟩ w =
          .done [.boolean false, v] (w'.withErrors env causes) ∧
        (w'.withErrors env causes).Carries env v (error.passed rest.length).message := by
  constructor
  · intro limit env fuel site w name rest error w' h
    exact ⟨h.raises, h.requested⟩
  · intro limit fuel env site g f args w next rest error w' h hdepth hg
    exact h.caught hdepth hg

end Loading

/-! Chains of two modules, found by running them. -/

deriving instance DecidableEq for Lua.Naming, Lua.Place, Lua.Site

namespace Outcome

variable {ε α : Type}

instance [DecidableEq α] (o : Outcome ε α) (a : α) : Decidable (o = .done a o.world) :=
  match o with
  | .done b _ => decidable_of_iff (b = a) (by simp [world])
  | .raised _ _ => isFalse nofun
  | @starved _ _ _ => isFalse nofun

instance [DecidableEq ε] (o : Outcome ε α) (e : ε) : Decidable (o = .raised e o.world) :=
  match o with
  | .done _ _ => isFalse nofun
  | .raised b _ => decidable_of_iff (b = e) (by simp [world])
  | @starved _ _ _ => isFalse nofun

instance (o : Outcome ε α) : Decidable (o = @starved _ _ o.world) :=
  match o with
  | .done _ _ => isFalse nofun
  | .raised _ _ => isFalse nofun
  | @starved _ _ _ => isTrue rfl

def EndsIn (p : World → Prop) : Outcome ε α → Prop
  | .done _ w => p w
  | _ => False

instance (p : World → Prop) [DecidablePred p] (o : Outcome ε α) : Decidable (o.EndsIn p) :=
  match o with
  | .done _ w => inferInstanceAs (Decidable (p w))
  | .raised _ _ => inferInstanceAs (Decidable False)
  | @starved _ _ _ => inferInstanceAs (Decidable False)

end Outcome

def Engine.Watch.ofText (fuel : Nat) (env : EnvironmentId) (site : Site) (f : FunctionId)
    (text : ByteString) : Engine.Watch where
  call := ⟨fuel, env, site, .function f, [.string text]⟩
  sees c _ :=
    match c with
    | ⟨n, e, s, .function g, [.string t]⟩ =>
      decide (n = fuel ∧ e = env ∧ s = site ∧ g = f ∧ t = text)
    | _ => false
  only c w h := by
    obtain ⟨n, e, s, g, args⟩ := c
    split at h
    · rename_i heq
      obtain ⟨rfl, rfl, rfl, rfl, rfl⟩ := of_decide_eq_true h
      exact heq
    · exact absurd h (by decide)

def World.emptied (w : World) : World := { w with environments := #[] }

namespace Loading

open Engine

section Pairs

variable (screen : Builtin → Bool) (limit fuel : Nat) (env : EnvironmentId) (site : Site)
  (name : String) (content : ByteString) (w : World) (chunk : FunctionId) (n : Nat) (site₁ : Site)
  (f : FunctionId) (text : ByteString)

abbrev entered : World :=
  (compileFile (engine limit fuel) env site name content (prepared w name)).world

abbrev stoppedAt : World :=
  (watched screen (.ofText (n + 1) env site₁ f text) limit id fuel .values
    (.call env site (.function chunk) []) (entered limit fuel env site name content w)).world

theorem Fails.pair (next : String) (error : ScriptError)
    (hname : w.library.source? (ModuleName.normalize name) = some (.bytes content))
    (h : compileFile (engine limit fuel) env site name content (prepared w name) =
        .done chunk (entered limit fuel env site name content w) ∧
      watched screen (.ofText (n + 1) env site₁ f text) limit id fuel .values
          (.call env site (.function chunk) []) (entered limit fuel env site name content w) =
        @Outcome.starved _ _
          (stoppedAt screen limit fuel env site name content w chunk n site₁ f text) ∧
      (watched screen (.ofText (n + 1) env site₁ f text) limit World.emptied fuel .values
          (.call env site (.function chunk) [])
          (entered limit fuel env site name content w)).world.environments.size = 0 ∧
      Call.required? ⟨n + 1, env, site₁, .function f, [.string text]⟩
        (stoppedAt screen limit fuel env site name content w chunk n site₁ f text) = some next ∧
      requireModule (engine limit n) env (site₁.push .host) next
          (stoppedAt screen limit fuel env site name content w chunk n site₁ f text) =
        .raised error (requireModule (engine limit n) env (site₁.push .host) next
          (stoppedAt screen limit fuel env site name content w chunk n site₁ f text)).world) :
    ∃ w', Fails screen limit env fuel site w name [next] error w' := by
  obtain ⟨hload, hstopped, hemptied, hnext, hfails⟩ := h
  refine ⟨_, .nested hname hload (.comes (.ofText (n + 1) env site₁ f text) World.emptied rfl
    hstopped fun hsame => ?_) hnext (.last hfails)⟩
  -- the environment of the call is in the world where the call is made
  have halloc := World.allocated_of_builtin (Call.required_eq_some hnext).2.1
  have hsize : (stoppedAt screen limit fuel env site name content w chunk n site₁ f
      text).environments.size = 0 :=
    (congrArg (·.world.environments.size) hsame).symm.trans hemptied
  exact Nat.not_lt_zero _ (Nat.lt_of_lt_of_eq halloc hsize)

end Pairs

def furnished (modules : List (String × String)) : World :=
  (World.new .default (.ofList (modules.map fun m => (m.1, .bytes (.ofText m.2))))).extended

/-- Such a world can be told without looking all names of the host up. -/
theorem furnished_eq (modules : List (String × String)) : furnished modules =
    { World.new .default (.ofList (modules.map fun m => (m.1, .bytes (.ofText m.2)))) with
      environments := #[Environments.listed] } := World.extended_eq_listed _

def calling (chunk name : String) : Lua.Place :=
  .script (.ofText chunk) 1 (some ⟨"global", .ofText name⟩)

/-- A module that requires a missing one, and a protected call that does the same. -/
theorem missing_module_passes :
    (∃ w' causes, requireModule (engine 20 20) ⟨0⟩ .outside "a.lua"
        (furnished [("a.lua", "require('b.lua')")]) =
      .raised (.runtime "require:Require: Script not found: b.lua")
        (World.withErrors w' ⟨0⟩ causes)) ∧
    ∃ v w', Call.run 20 ⟨20, ⟨0⟩, .outside, .function ⟨11⟩,
        [.function ⟨94⟩, .string (.ofText "b.lua")]⟩ (furnished []) =
          .done [.boolean false, v] w' ∧
      w'.Carries ⟨0⟩ v "Require: Script not found: b.lua" := by
  constructor
  · obtain ⟨w', hfails⟩ := Fails.pair Builtin.screens 20 20 ⟨0⟩ .outside "a.lua"
      (.ofText "require('b.lua')") (furnished [("a.lua", "require('b.lua')")]) ⟨113⟩ 15
      (Site.outside.push (calling "a.lua" "require")) ⟨94⟩ (.ofText "b.lua")
      "b.lua" (.moduleNotFound "b.lua") rfl (by rw [furnished_eq]; decide +kernel)
    obtain ⟨⟨causes, h⟩, _⟩ := failures_pass_outwards.1 20 ⟨0⟩ 20 .outside _ "a.lua" ["b.lua"]
      (.moduleNotFound "b.lua") w' hfails
    exact ⟨w', causes, h⟩
  · have hfails : CallFails 20 ⟨19, ⟨0⟩, Site.outside.push .host, .function ⟨94⟩,
        [.string (.ofText "b.lua")]⟩ (furnished []) "b.lua" [] (.moduleNotFound "b.lua")
        (furnished []) := by
      refine ⟨18, _, _, _, _, .comes (.ofText 19 ⟨0⟩ (Site.outside.push .host) ⟨94⟩
        (.ofText "b.lua")) World.emptied rfl rfl (fun hsame => ?_), by decide, .last ?_⟩
      · exact absurd (congrArg (·.world.environments.size) hsame) (by decide)
      · exact require_module_unknown _ _ _ _ _ rfl
    obtain ⟨v, causes, h, hv⟩ := failures_pass_outwards.2 20 19 ⟨0⟩ .outside (.function ⟨11⟩) _ _
      (furnished []) "b.lua" [] (.moduleNotFound "b.lua") _ hfails (by decide) (by decide)
    exact ⟨v, _, h, hv⟩

def protects : Builtin → Bool
  | .base .pcall | .base .xpcall => true
  | _ => false

def asked : String :=
  "local p = newproxy(true) getmetatable(p).__tostring = function() require('b.lua') end " ++
    "print(p) setBanner('on')"

/-- Calls that scripts protect are not the only ones that end a failure: `print` leaves out a value
that has no text, and the module which required the other goes on. -/
theorem print_hides_failure :
    (∃ w', Fails protects 40 ⟨0⟩ 40 .outside
      (furnished [("a.lua", asked), ("b.lua", "error('no')")]) "a.lua" ["b.lua"]
      (.runtime "require:runtime error: b.lua:1: no") w') ∧
    (requireModule (engine 40 40) ⟨0⟩ .outside "a.lua"
      (furnished [("a.lua", asked), ("b.lua", "error('no')")])).EndsIn fun w =>
        w.session.map (·.banner) = some "on" := by
  constructor
  · exact Fails.pair protects 40 40 ⟨0⟩ .outside "a.lua" (.ofText asked)
      (furnished [("a.lua", asked), ("b.lua", "error('no')")]) ⟨113⟩ 30
      ⟨4, [calling "a.lua" "require", .host, .host, calling "a.lua" "print"]⟩ ⟨94⟩
      (.ofText "b.lua") "b.lua" (.runtime "require:runtime error: b.lua:1: no") rfl
      (by rw [furnished_eq]; decide +kernel)
  · rw [furnished_eq]
    decide +kernel

end Loading

end ScenarioHost
