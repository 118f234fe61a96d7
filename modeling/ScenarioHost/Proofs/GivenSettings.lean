import ScenarioHost.Program
import ScenarioHost.Proofs.Annals
import ScenarioHost.Proofs.SessionCalls
import ScenarioHost.Proofs.SettingArguments

/-!
Settings in a scenario. The program puts the settings of its command line into the session before it
makes an environment, and nothing that scripts do changes them. So at every moment of a run each
environment reads for a key what the command line said last about it.
-/
namespace ScenarioHost

open Conversion (argument argument_ok ofText to_text_ok_iff toText)
open Lua (Evaluator Spot Value)

/-! Reading. -/

namespace Interface

variable {w : World} {s : Session} {args : List Value} {key : String}

theorem ask_session (f : Session → Value) (hs : w.session = some s) :
    askSession f w = .done [f s] w := by
  unfold askSession
  rw [Act.bind_apply, Act.read, hs]
  rfl

/-- What the functions for settings give where a session is there. -/
theorem call_setting (run : Evaluator) (spot : Spot) (hkey : Reads (.arg args 0) key)
    (hs : w.session = some s) :
    callHost run spot .scenarioSetting args w = .done [ofText (s.scenarioSetting key)] w := by
  have hargument : argument toText spot.env args 1 w = .done key w :=
    argument_ok (to_text_ok_iff.mpr hkey)
  change (argument toText spot.env args 1 >>= _) w = _
  rw [Act.bind_apply, hargument]
  exact ask_session _ hs

theorem call_variation (run : Evaluator) (spot : Spot) (args : List Value)
    (hs : w.session = some s) :
    callHost run spot .scenarioVariation args w =
      .done [ofText s.variation] (w.log deprecatedVariation) := by
  have hlogged : (w.log deprecatedVariation).session = some s := hs
  exact ask_session _ hlogged

end Interface

/-- How the functions for settings answer in a world, whichever environment they are called in, if
this is said of the keys. -/
structure Answers (said : String → Option String) (w : World) : Prop where
  setting {f : HostFunction} (hf : ("getScenarioSetting", f) ∈ Environments.hostFunctions)
      (limit : Nat) (run : Evaluator) (spot : Spot) (args : List Value) (key : String) :
    Reads (.arg args 0) key →
      Engine.callBuiltin limit run spot (.host f) args w = .done [ofText ((said key).getD "")] w
  variation {f : HostFunction} (hf : ("getScenarioVariation", f) ∈ Environments.hostFunctions)
      (limit : Nat) (run : Evaluator) (spot : Spot) (args : List Value) :
    Engine.callBuiltin limit run spot (.host f) args w =
      .done [ofText ((said "variation").getD "None")] (w.log Interface.deprecatedVariation)

theorem setting_functions : ∀ b ∈ Environments.hostFunctions,
    (b.1 = "getScenarioSetting" → b.2 = .scenarioSetting) ∧
      (b.1 = "getScenarioVariation" → b.2 = .scenarioVariation) := by
  decide

theorem Session.answers {w : World} {s : Session} (hs : w.session = some s) :
    Answers s.setting? w where
  setting {f} hf limit run spot args key hkey := by
    obtain rfl : f = .scenarioSetting := (setting_functions _ hf).1 rfl
    exact Boundary.in_script_done (Interface.call_setting run spot hkey hs)
  variation {f} hf limit run spot args := by
    obtain rfl : f = .scenarioVariation := (setting_functions _ hf).2 rfl
    exact Boundary.in_script_done (Interface.call_variation run spot args hs)

/-! Nothing that scripts bring about concerns settings. -/

def Affair.SparesSettings (a : Affair) : Prop := ∀ key value, a ≠ .session (.setting key value)

theorem SessionOp.settings_apply {op : SessionOp} (h : (Affair.session op).SparesSettings)
    (s : Session) : (op.apply s).settings = s.settings := by
  cases op with
  | setting key value => exact absurd rfl (h key value)
  | advance delta =>
    simp only [SessionOp.apply, Session.advance]
    split <;> rfl
  | _ => rfl

theorem Happening.ByScripts.spares_settings {h : Happening} (hh : h.ByScripts) :
    h.ByCode Affair.SparesSettings := by
  refine ⟨hh, ?_⟩
  cases h with
  | change op =>
    rintro key value ⟨⟩
    obtain hscripted | ⟨delta, hadvance⟩ := hh
    · exact hscripted
    · cases hadvance
  | load l path known => exact fun _ _ _ => nofun
  | begins v t => exact fun _ _ _ => nofun
  | _ => trivial

/-! The program. -/

namespace Program

open CommandLine (LastSetting NamesKey Options settingTexts)

variable (run : Evaluator) (options : Options) (files : FileTree)

/-- What the program does once the command line is read: it makes an environment and does in it what
is asked for. It fails with the reason why there is no environment. -/
def carriedOut : Act (Option String) Result := do
  let env ← (Environments.create run .outside).mapError some
  (perform run options files env).mapError fun _ => none

def concluded : Outcome (Option String) Result → Result
  | .done result _ => result
  | .raised (some e) w =>
    ⟨1, consoleLines w, ["Error creating script environment: " ++ e], files⟩
  | .raised none _ | .starved => ⟨1, [], [], files⟩

theorem run_in_eq (w : World) :
    runIn run options files w = concluded files (carriedOut run options files w) := by
  unfold runIn carriedOut
  rw [Act.bind_apply, Act.map_error_apply]
  cases Environments.create run .outside w with
  | done env w' =>
    dsimp only
    rw [Act.map_error_apply]
    cases perform run options files env w' <;> rfl
  | raised e w' => rfl
  | starved => rfl

section Lawful

variable {R : Regime} {L : Law} {D : World → EnvironmentId → Prop} {O : Host.HostStep → Prop}
  {run run' : Evaluator} (hosting : R.Hosting L D O) (h : R.Lawful run run')
  (hany : ∀ w e, D w e) (hfree : ∀ e, R.Free (.code e))

include hosting h hany hfree

/-- The program is a host that has code run in its environment. -/
theorem law_perform (env : EnvironmentId) :
    L.Admits (fun _ => True) (perform run options files env) (perform run' options files env) := by
  have hcode {α : Type} {x y : Act String α} (hx : R.Beside env x y) :
      L.Admits (fun _ => True) x y :=
    ⟨fun w => hosting.command (hfree env) (hany w env) ((hx.law (hfree env)).holds w)⟩
  have hnames : L.Admits (fun _ => True) (Headless.boundNames run env Reference.names)
      (Headless.boundNames run' env Reference.names : Act String (List String)) :=
    hcode (Host.within_boundNames h Reference.names)
  unfold perform
  split
  · exact hnames.bind fun _ _ => .pure trivial
  · exact hnames.bind fun _ _ => .pure trivial
  · exact .pure trivial
  · rename_i entry _ _ _
    have hadvance : R.Within env
        (Act.update fun w => w.modifySession fun s => s.advance options.delta : Act String Unit) :=
      Regime.by_of_law ⟨fun w => hosting.advance env w options.delta⟩
    have hscenario := hcode (Host.within_runScenario h entry (hosting.permits .overlay) hadvance
      options.ticks)
    -- the report shows the console and the session, which no look into an environment is needed for
    have hreport (ok : Bool) : World.Discreet (finished files options.report ok) := fun _ _ _ => rfl
    exact hscenario.bind fun ok _ => ⟨fun w => hosting.serve ((R.law_look (hreport ok)).holds w)⟩

theorem law_carriedOut :
    L.Admits (fun _ => True) (carriedOut run options files) (carriedOut run' options files) := by
  have hcreate := (Host.law_create hosting h).map_error (f := some)
  exact hcreate.bind fun env _ => (law_perform options files hosting h hany hfree env).map_error

end Lawful

section Moments

variable (stop : (k : Lua.Kind) → Lua.Task k → World → Bool) (limit fuel : Nat)

/-- At every moment there are annals of what the program did, which only scripts brought about. -/
theorem annals_carriedOut (w : World) :
    ∃ l, (∀ h ∈ l, h.ByScripts) ∧ Annals (Engine.StoppedBy stop) w l
      (carriedOut (Engine.stopped stop limit fuel) options files w).moment := by
  have hlaw := law_carriedOut options files
    (Regime.recording_hosting (Engine.StoppedBy stop) [])
    (Engine.stopped_recorded stop limit fuel (Engine.minds_all stop)) (fun _ _ => trivial)
    fun _ => trivial
  obtain ⟨l, hl, hannals⟩ := Recorded.upholds_iff.mp (hlaw.holds w)
  refine ⟨l, fun i hi => ?_, hannals⟩
  obtain hscripts | ⟨step, hstep, -⟩ := hl i hi
  · exact hscripts
  · exact absurd hstep List.not_mem_nil

theorem settings_worldFor :
    ∃ s, (worldFor options files).session = some s ∧
      s.settings = Bindings.insertAll [] options.settings := by
  refine ⟨_, rfl, ?_⟩
  exact (List.foldl_hom Session.settings fun _ _ => rfl).symm

/-- The session is there at every moment, with the settings of the options. -/
theorem settings_carriedOut :
    ∃ s, (carriedOut (Engine.stopped stop limit fuel) options files
        (worldFor options files)).world.session = some s ∧
      s.settings = Bindings.insertAll [] options.settings := by
  obtain ⟨s, hs, hsettings⟩ := settings_worldFor options files
  obtain ⟨l, hl, hannals⟩ := annals_carriedOut options files stop limit fuel (worldFor options files)
  obtain ⟨s', hs', hkept⟩ := hannals.part_stays Session.settings
    (fun _ hspares => SessionOp.settings_apply hspares) (fun _ => rfl)
    (fun i hi => (hl i hi).spares_settings) hs
  exact ⟨s', hs', hkept.trans hsettings⟩

end Moments

/-- A command line is accepted only if each text of a setting names a key before its first `=`. Then
the last text about a key decides, at every moment of the run and in every environment, what the key
stands for; a key that no text is about stands for nothing, which is not the same as for the empty
text. -/
theorem settings_are_those_given {args : List String} {options : Options}
    (h : CommandLine.parse args = .ok options) (files : FileTree) :
    (∀ raw ∈ settingTexts args, NamesKey raw) ∧
      ∃ said : String → Option String, (∀ key, LastSetting (settingTexts args) key (said key)) ∧
        ∀ stop limit fuel,
          let run := Engine.stopped stop limit fuel
          let o := carriedOut run options files (worldFor options files)
          execute run args files = concluded files o ∧ Answers said o.world := by
  have hread := CommandLine.parse_settings h
  -- what is said of the keys is the same at all moments: it is what the options hold
  refine ⟨hread.names_key, Bindings.last? options.settings, fun key => ?_, fun stop limit fuel => ?_⟩
  · exact hread.last_setting_iff.mpr rfl
  · intro run o
    constructor
    · have hexecuted : execute run args files = runIn run options files (worldFor options files) := by
        rw [execute, h]
      exact hexecuted.trans (run_in_eq run options files _)
    · obtain ⟨s, hs, hsettings⟩ := settings_carriedOut options files stop limit fuel
      have hsaid : s.setting? = Bindings.last? options.settings := by
        funext key
        rw [Session.setting?, hsettings, Bindings.get_insertAll]
        exact Option.or_none
      exact hsaid ▸ Session.answers hs

def twiceVaried : List String :=
  ["--setting", " variation =Hard", "--setting=empty=", "--setting=variation= a=b ", "main.lua"]

/-- The later of the two counts, with all that follows its first `=`. -/
theorem later_variation_counts :
    ∃ options said, CommandLine.parse twiceVaried = .ok options ∧
      said "variation" = some " a=b " ∧ said "empty" = some "" ∧ said "other" = none ∧
      ∀ stop limit fuel, Answers said (carriedOut (Engine.stopped stop limit fuel) options .empty
        (worldFor options .empty)).world := by
  have hparsed : (CommandLine.parse twiceVaried).toOption.map Options.settings =
      some [("variation", "Hard"), ("empty", ""), ("variation", " a=b ")] := by
    decide
  cases h : CommandLine.parse twiceVaried with
  | error e =>
    rw [h] at hparsed
    cases hparsed
  | ok options =>
    rw [h] at hparsed
    have hsettings : options.settings = _ := Option.some.inj hparsed
    obtain ⟨-, said, hsaid, hanswers⟩ := settings_are_those_given h .empty
    have hfound (key : String) : said key = Bindings.last? options.settings key :=
      ((CommandLine.parse_settings h).found (hsaid key)).symm
    rw [hsettings] at hfound
    refine ⟨options, said, rfl, ?_, ?_, ?_, fun stop limit fuel => (hanswers stop limit fuel).2⟩
    · exact (hfound _).trans (by decide)
    · exact (hfound _).trans (by decide)
    · exact (hfound _).trans (by decide)

end Program

end ScenarioHost
