import ScenarioHost.Proofs.Annals
import ScenarioHost.Proofs.Handles
import ScenarioHost.Proofs.Requiring

/-!
Requests for overlays. The catalog notes which translations were asked for, in order: loading a
module with its translations asks for them before any code of the module is run, so the request
stands before all that this code asks for. Where there are such translations they are in force from
then on, in all environments, until other ones of the same texts come.
-/
namespace ScenarioHost

open Conversion (given toOptional toText)
open Lua (Chunk Evaluator Site Spot Value)
open Loading (Loader)

namespace Catalog

def offered (c : Catalog) (name text : String) : Option String :=
  (c.overlays.get? name).bind fun entries => Bindings.get? entries.reverse text

theorem get_taken (entries : List (String × String)) (bs : Bindings (Option String × String) String)
    (text : String) :
    (entries.foldl (fun bs e => bs.insert (none, e.1) e.2) bs).get? (none, text) =
      (Bindings.get? entries.reverse text).or (bs.get? (none, text)) := by
  have hplain : Bindings.last? (plain entries) (none, text) = Bindings.get? entries.reverse text := by
    unfold Bindings.last? Bindings.get? plain
    rw [← List.map_reverse, List.find?_map, Option.map_map]
    simp only [Function.comp_def, Prod.mk.injEq, true_and]
  rw [← insertAll_plain, Bindings.get_insertAll, hplain]

variable (c : Catalog) (name text : String)

/-- An overlay that is asked for brings the translations that it has, and no others. -/
theorem translate_load :
    (c.load name).2.translate text = (c.offered name text).getD (c.translate text) := by
  unfold translate offered
  rw [load_eq]
  dsimp only
  rw [get_taken]
  cases c.overlays.get? name with
  | none => rfl
  | some entries =>
    cases hentry : Bindings.get? entries.reverse text with
    | none =>
      rw [Option.getD_some, hentry]
      simp only [Option.bind_some, hentry]
      rfl
    | some translated =>
      rw [Option.getD_some, hentry]
      simp only [Option.bind_some, hentry]
      rfl

theorem offered_load (other : String) : (c.load other).2.offered name text = c.offered name text := by
  rw [load_eq]
  rfl

end Catalog

namespace Happening

variable {language : String} {l : List Happening}

theorem onCatalog_load (loader : Loader) (path : String) (known : Bool) (c : Catalog) :
    (Happening.load loader path known).onCatalog language c =
      (asked? language (.load loader path known)).elim c fun name => (c.load name).2 := by
  cases h : asked? language (.load loader path known) <;> simp only [onCatalog, h] <;> rfl

def onRequests (language : String) (h : Happening) (log : List String) : List String :=
  match h with
  | .equipped b => b.catalog.requested
  | h => log ++ (h.asked? language).toList

theorem requested_onCatalog (h : Happening) (c : Catalog) :
    (h.onCatalog language c).requested = h.onRequests language c.requested := by
  cases h with
  | load l path known =>
    change _ = c.requested ++ (asked? language (.load l path known)).toList
    rw [onCatalog_load]
    cases asked? language (.load l path known) with
    | some name => exact c.requested_load name
    | none => exact (List.append_nil _).symm
  | equipped b => rfl
  | _ => exact (List.append_nil _).symm

/-- Where the host leaves the catalog alone, requests only ever come in addition. -/
theorem requests_added (hl : ∀ b, .equipped b ∉ l) (log : List String) :
    l.foldl (fun log h => h.onRequests language log) log = log ++ l.filterMap (asked? language) := by
  induction l generalizing log with
  | nil => exact (List.append_nil _).symm
  | cons h l ih =>
    have hfirst : h.onRequests language log = log ++ (h.asked? language).toList := by
      cases h with
      | equipped b => exact absurd List.mem_cons_self (hl b)
      | _ => rfl
    rw [List.foldl_cons, hfirst, ih fun b hb => hl b (List.mem_cons_of_mem _ hb),
      List.append_assoc, List.filterMap_cons]
    cases h.asked? language <;> rfl

theorem Permitted.unasked {h : Happening} (hh : h.Permitted fun affair => affair ≠ .overlay)
    (language : String) : h.asked? language = none := by
  cases h with
  | load l path known =>
    cases l with
    | plain => rfl
    | _ => exact (hh (by decide) rfl).elim
  | _ => rfl

/-- Whether it can replace the translation of a text: an overlay is loaded that has another one, or
the host has a hand in it. -/
def Overwrites (language : String) (c : Catalog) (text : String) : Happening → Prop
  | .equipped _ => True
  | h => ∃ name, h.asked? language = some name ∧ (c.offered name text).isSome

theorem translate_foldl {text : String} (c : Catalog)
    (hl : ∀ h ∈ l, ¬ h.Overwrites language c text) :
    (l.foldl (fun c h => h.onCatalog language c) c).translate text = c.translate text := by
  -- on the happenings; none of them changes which overlays there are
  induction l generalizing c with
  | nil => rfl
  | cons h l ih =>
    have hfirst := hl h List.mem_cons_self
    have hstep : (h.onCatalog language c).translate text = c.translate text ∧
        ∀ name, (h.onCatalog language c).offered name text = c.offered name text := by
      cases h with
      | load loader path known =>
        rw [onCatalog_load]
        cases hasked : asked? language (.load loader path known) with
        | none => exact ⟨rfl, fun _ => rfl⟩
        | some name =>
          have hoffered : c.offered name text = none :=
            Option.not_isSome_iff_eq_none.mp fun hsome => hfirst ⟨name, hasked, hsome⟩
          refine ⟨?_, fun other => c.offered_load other text name⟩
          rw [Option.elim_some, c.translate_load, hoffered]
          rfl
      | equipped b => exact (hfirst trivial).elim
      | _ => exact ⟨rfl, fun _ => rfl⟩
    have hrest : ∀ i ∈ l, ¬ i.Overwrites language (h.onCatalog language c) text := by
      intro i hi hover
      refine hl i (List.mem_cons_of_mem _ hi) ?_
      cases i with
      | equipped b => trivial
      | _ =>
        obtain ⟨name, hname, hsome⟩ := hover
        exact ⟨name, hname, hstep.2 name ▸ hsome⟩
    exact (ih _ hrest).trans hstep.1

end Happening

namespace Annals

variable {Carries : Evaluator → Prop} {w : World} {m : Moment} {l : List Happening}

theorem requested (h : Annals Carries w l m) :
    m.world.catalog.requested =
      l.foldl (fun log h => h.onRequests w.config.language log) w.catalog.requested := by
  rw [h.catalog]
  exact (List.foldl_hom Catalog.requested fun c i => (i.requested_onCatalog c).symm).symm

/-- Code that asks for no overlays leaves the requests as they are. -/
theorem requested_stays (h : Annals Carries w l m)
    (hcode : ∀ i ∈ l, i.ByCode fun affair => affair ≠ .overlay) :
    m.world.catalog.requested = w.catalog.requested := by
  have hnone : l.filterMap (Happening.asked? w.config.language) = [] :=
    List.filterMap_eq_nil_iff.mpr fun i hi => (hcode i hi).2.unasked w.config.language
  have hkept := Happening.not_equipped_by_scripts fun i hi => (hcode i hi).1
  rw [h.requested, Happening.requests_added hkept, hnone, List.append_nil]

/-- A translation stays in force until something overwrites it. -/
theorem translate (h : Annals Carries w l m) {text : String}
    (hl : ∀ i ∈ l, ¬ i.Overwrites w.config.language w.catalog text) :
    m.world.catalog.translate text = w.catalog.translate text := by
  rw [h.catalog]
  exact Happening.translate_foldl w.catalog hl

end Annals

/-- What can be said of requests for translations that come from a world, and of the translations
that are in force then. -/
structure World.RequestLaw (w : World) : Prop where
  unknown (run : Evaluator) (env : EnvironmentId) (site : Site) (path : String) (l : Loader) :
    w.library.source? (ModuleName.normalize path) = none →
    (l.perform run env site path w).world.catalog.requested =
      w.catalog.requested ++ ((Happening.load l path false).asked? w.config.language).toList
  /-- The request for a module comes before all that its code asks for. -/
  known (stop : (k : Lua.Kind) → Lua.Task k → World → Bool) (limit fuel : Nat)
    (env : EnvironmentId) (site : Site) (path : String) (source : Source) (l : Loader) :
    w.library.source? (ModuleName.normalize path) = some source → ∃ inside,
      (∀ h ∈ inside, h.ByScripts) ∧
      Annals (Engine.StoppedBy stop) (l.opened path w) inside
        (Loading.runSource (Engine.stopped stop limit fuel) env site path source
          (l.opened path w)).moment ∧
      (l.perform (Engine.stopped stop limit fuel) env site path w).moment =
        (Loading.runSource (Engine.stopped stop limit fuel) env site path source
          (l.opened path w)).moment ∧
      (l.perform (Engine.stopped stop limit fuel) env site path w).world.catalog.requested =
        w.catalog.requested ++ ((Happening.load l path true).asked? w.config.language).toList ++
          inside.filterMap (Happening.asked? w.config.language)
  /-- Code adds requests by calling one of two functions; where it does not, a module has its own
  request only, or none. -/
  others (stop : (k : Lua.Kind) → Lua.Task k → World → Bool) (limit fuel : Nat) :
    Engine.StopsAt [.host .requireModule, .handle .run] stop →
    (∀ k (t : Lua.Task k), (Engine.stopped stop limit fuel k t w).world.catalog.requested =
      w.catalog.requested) ∧
    ∀ (env : EnvironmentId) (site : Site) (path : String) (l : Loader),
      (l.perform (Engine.stopped stop limit fuel) env site path w).world.catalog.requested =
        w.catalog.requested ++ ((Happening.load l path
          (w.library.source? (ModuleName.normalize path)).isSome).asked? w.config.language).toList
  /-- Translations of a module are in force when its code begins. -/
  started (limit fuel : Nat) (env : EnvironmentId) (site : Site) (path : String) (source : Source)
    (c : Chunk) (l : Loader) : l ≠ .plain →
    w.library.source? (ModuleName.normalize path) = some source →
    Loading.chunkOf path source = .ok c →
    (l.perform (Engine.engine limit (fuel + 1)) env site path w).moment =
      (Boundary.call (Engine.engine limit (fuel + 1)) env site (.function (w.heap env).nextFunction)
        [] ((l.opened path w).holding env c)).moment ∧
    ∀ text, ((l.opened path w).holding env c).catalog.translate text =
      (w.catalog.offered (Loading.overlayName w path) text).getD (w.catalog.translate text)
  /-- Scripts require modules as hosts do. -/
  required (run : Evaluator) (s : Spot) (args : List Value) (name : String) :
    given toText args 1 (w.heap s.env) = .ok name →
    Interface.callHost run s .requireModule args w =
      ((Loader.required.perform run s.env (s.site none) name).mapError HostError.script) w
  /-- A handle runs modules with their translations as long as its environment is there. -/
  visited (run : Evaluator) (s : Spot) (args : List Value) (script : EnvironmentId)
    (name : String) : Scripts.runArguments args (w.heap s.env) = .ok (script, name) →
    Scripts.runModule run s args w =
      if w.isPresent script then
        Act.between (·.hold script) (·.unhold script) (Headless.checked
          (Loader.localized.perform run script (Scripts.siteInside s) name)) w
      else .raised (.script .invalidHandle) w
  /-- An environment is made by loading plain modules. -/
  made (run : Evaluator) (site : Site) : Environments.create run site w =
    Environments.making (fun env => w.config.bootstrap.forM fun module =>
      discard ((Loader.plain.perform run env site module).mapError fun message =>
        (module, message))) w
  /-- All environments see the same translations. -/
  translated (run : Evaluator) (s : Spot) (args : List Value) (first : String)
    (second : Option String) : given toText args 1 (w.heap s.env) = .ok first →
    given (fun h => toOptional (toText h)) args 2 (w.heap s.env) = .ok second →
    Interface.callHost run s .translate args w = .done [Conversion.ofText (second.elim
      (w.catalog.translate first) fun text => w.catalog.translateIn first text)] w

theorem Loading.Loader.requested_opened (l : Loader) (path : String) (w : World) :
    (l.opened path w).catalog.requested =
      w.catalog.requested ++ ((Happening.load l path true).asked? w.config.language).toList := by
  have hcatalog := congrArg Shared.catalog (l.shared_opened path w)
  exact (congrArg Catalog.requested hcatalog).trans (Happening.requested_onCatalog _ _)

theorem Loading.Loader.requested_refused (l : Loader) (path : String) (w : World) :
    (l.refused path w).catalog.requested =
      w.catalog.requested ++ ((Happening.load l path false).asked? w.config.language).toList := by
  have hcatalog := congrArg Shared.catalog (l.shared_refused path w)
  exact (congrArg Catalog.requested hcatalog).trans (Happening.requested_onCatalog _ _)

theorem Loading.Loader.requested_unknown (l : Loader) (run : Evaluator) (env : EnvironmentId)
    (site : Site) {path : String} {w : World}
    (hpath : w.library.source? (ModuleName.normalize path) = none) :
    (l.perform run env site path w).world.catalog.requested =
      w.catalog.requested ++ ((Happening.load l path false).asked? w.config.language).toList := by
  have hmoment := congrArg Moment.world (l.moment_of_unknown run env site path w hpath)
  rw [Outcome.world_moment] at hmoment
  rw [hmoment]
  exact l.requested_refused path w

theorem Environments.loadAll_eq_forM (run : Evaluator) (env : EnvironmentId) (site : Site)
    (modules : List String) :
    loadAll run env site modules = modules.forM fun module =>
      discard ((Loader.plain.perform run env site module).mapError fun message =>
        (module, message)) := by
  induction modules with
  | nil => rfl
  | cons module rest ih =>
    rw [loadAll, ih]
    change _ = discard _ >>= fun _ => List.forM rest _
    rw [Act.discard_eq, bind_assoc]
    rfl

theorem World.requestLaw (w : World) : w.RequestLaw where
  unknown run env site path l hpath := l.requested_unknown run env site hpath
  known stop limit fuel env site path source l hpath := by
    obtain ⟨inside, hcode, hinside⟩ := Loading.annals_runSource limit fuel (Engine.minds_all stop)
      env site path source (l.opened path w)
    have hscripts : ∀ h ∈ inside, h.ByScripts := fun h hh => (hcode h hh).1
    have hmoment := l.moment_of_known (Engine.stopped stop limit fuel) env site path w hpath
    have hlanguage : (l.opened path w).config.language = w.config.language := by
      cases l <;> rfl
    -- what the code asks for comes on top of what was there when it began
    have hrequested := hinside.requested
    rw [← hmoment, Outcome.world_moment, hlanguage, l.requested_opened,
      Happening.requests_added (Happening.not_equipped_by_scripts hscripts)] at hrequested
    exact ⟨inside, hscripts, hinside, hmoment, hrequested⟩
  others stop limit fuel hstop := by
    -- these are the only functions by which code asks for overlays
    have hminds : Engine.Minds (fun affair => affair ≠ .overlay) stop :=
      hstop.minds fun affair haffair => by rw [not_not.mp haffair]; exact List.Subset.refl _
    constructor
    · intro k t
      obtain ⟨l, hcode, hl⟩ := Engine.annals_task limit fuel hminds k t w
      have hstays := hl.requested_stays hcode
      rwa [Outcome.world_moment] at hstays
    · intro env site path l
      cases hpath : w.library.source? (ModuleName.normalize path) with
      | none => exact l.requested_unknown _ env site hpath
      | some source =>
        obtain ⟨inside, hcode, hinside⟩ :=
          Loading.annals_runSource limit fuel hminds env site path source (l.opened path w)
        have hstays := hinside.requested_stays hcode
        rw [← l.moment_of_known _ env site path w hpath, Outcome.world_moment] at hstays
        exact hstays.trans (l.requested_opened path w)
  started limit fuel env site path source c l hl hpath hchunk := by
    -- the overlay is loaded first, and the rest of the preparations leaves the catalog alone
    have hopened : l.opened path w = Loading.prepared w path := by
      cases l with
      | plain => exact (hl rfl).elim
      | _ => rfl
    constructor
    · rw [l.moment_of_known _ env site path w hpath, hopened,
        Loading.run_source_loadable limit fuel env site path _ hchunk, Act.moment_map_error]
      rfl
    · intro text
      rw [hopened]
      exact w.catalog.translate_load (Loading.overlayName w path) text
  required run s args name hname := by
    change (Conversion.argument toText s.env args 1 >>= fun name =>
      (Loading.requireModule run s.env (s.site none) name).mapError HostError.script) w = _
    rw [Act.bind_apply, Conversion.argument_apply, hname]
    rfl
  visited run s args script name hargs := by
    rw [Scripts.runModule_apply hargs, Scripts.visiting]
    by_cases hpresent : w.isPresent script
    · rw [if_pos hpresent, Scripts.reaching_present hpresent]
      rfl
    · rw [if_neg hpresent, Scripts.reaching_absent hpresent]
  made run site := by
    rw [Environments.create_eq, Environments.making_apply, Environments.making_apply]
    have hbooting : Environments.booting run site w.nextEnvironment w.extended =
        Environments.loadAll run w.nextEnvironment site w.config.bootstrap w.extended := rfl
    rw [hbooting, Environments.loadAll_eq_forM]
  translated run s args first second hfirst hsecond := by
    change Interface.translate s.env args w = _
    unfold Interface.translate Conversion.optional
    rw [Act.bind_apply, Conversion.argument_apply, hfirst]
    change (Conversion.argument (fun h => toOptional (toText h)) s.env args 2 >>= _) w = _
    rw [Act.bind_apply, Conversion.argument_apply, hsecond]
    cases second <;> rfl

/-- Requests for overlays are noted as modules are loaded with their translations; these are in
force when code of the module begins, for all environments, and stay so until they are overwritten. -/
theorem overlays_are_requested_in_order :
    (∀ language path,
      (Happening.load .required path true).asked? language =
        some ("locale/" ++ ModuleName.stem (ModuleName.normalize path) ++ "." ++ language ++ ".po") ∧
      (Happening.load .required path false).asked? language = none ∧
      ∀ known,
        (Happening.load .localized path known).asked? language = some ("locale/" ++
          ModuleName.stem (ModuleName.normalize path) ++ "." ++ language ++ ".po") ∧
        (Happening.load .plain path known).asked? language = none) ∧
    (∀ w : World, w.RequestLaw) ∧
    (∀ config library stop limit fuel steps, ∃ l, (∀ h ∈ l, h.ByHost steps) ∧
      Annals (Engine.StoppedBy stop) (World.new config library) l
        (Host.performAll (Engine.stopped stop limit fuel) [] steps
          (World.new config library)).moment ∧
      (Host.performAll (Engine.stopped stop limit fuel) [] steps
        (World.new config library)).world.catalog.requested =
          l.foldl (fun log h => h.onRequests config.language log) [] ∧
      ((∀ b, .equip b ∉ steps) →
        (Host.performAll (Engine.stopped stop limit fuel) [] steps
          (World.new config library)).world.catalog.requested =
            l.filterMap (Happening.asked? config.language))) ∧
    ∀ (Carries : Evaluator → Prop) (w : World) l m, Annals Carries w l m → ∀ text,
      (∀ i ∈ l, ¬ i.Overwrites w.config.language w.catalog text) →
      m.world.catalog.translate text = w.catalog.translate text := by
  refine ⟨?_, World.requestLaw, ?_, fun Carries w l m h text => h.translate⟩
  · exact fun language path => ⟨rfl, rfl, fun known => ⟨rfl, rfl⟩⟩
  · intro config library stop limit fuel steps
    obtain ⟨l, hhost, hl⟩ :=
      Host.annals_performAll stop limit fuel [] steps (World.new config library)
    have hrequested := hl.requested
    rw [Outcome.world_moment] at hrequested
    -- the log starts empty, and only the host can put another catalog in place
    refine ⟨l, hhost, hl, hrequested, fun hkept => ?_⟩
    exact hrequested.trans (Happening.requests_added (Happening.not_equipped hhost hkept) [])

def World.greeting : World :=
  { Loading.furnished [("a.lua", "require('b.lua') return _('Hi')"), ("b.lua", "")] with
    catalog := Catalog.empty.register "locale/a.en.po" [("Hi", "Hallo")] }

theorem greeting_translated :
    (∃ c, Loading.chunkOf "a.lua" (.bytes (.ofText "require('b.lua') return _('Hi')")) = .ok c ∧
      ((Loader.required.opened "a.lua" World.greeting).holding ⟨0⟩ c).catalog.translate "Hi" =
        "Hallo") ∧
    (Loading.requireModule (Engine.engine 20 20) ⟨0⟩ .outside "a.lua"
      World.greeting).world.catalog.requested = ["locale/a.en.po", "locale/b.en.po"] := by
  have hlaw := overlays_are_requested_in_order.2.1 World.greeting
  constructor
  · have hcompiles : (Loading.chunkOf "a.lua"
        (.bytes (.ofText "require('b.lua') return _('Hi')"))).isOk = true := by
      decide +kernel
    have hoffered : World.greeting.catalog.offered (Loading.overlayName World.greeting "a.lua") "Hi" =
        some "Hallo" := by
      decide
    cases hchunk : Loading.chunkOf "a.lua" (.bytes (.ofText "require('b.lua') return _('Hi')")) with
    | error message =>
      rw [hchunk] at hcompiles
      cases hcompiles
    | ok c =>
      have hstarted := hlaw.started 20 20 ⟨0⟩ .outside "a.lua" _ c .required (by decide) rfl hchunk
      refine ⟨c, rfl, ?_⟩
      rw [hstarted.2, hoffered]
      rfl
  · rw [World.greeting, Loading.furnished_eq]
    decide +kernel

end ScenarioHost
