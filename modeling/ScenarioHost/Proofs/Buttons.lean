import Mathlib.Data.List.DropRight
import ScenarioHost.Proofs.Annals
import ScenarioHost.Proofs.Callbacks

/-!
The buttons of the game master. They are what was added since they were cleared for the last time,
in order, whoever adds and clears them and in whatever callback; an environment that is gone leaves
its buttons where they are. Pressing one invokes the callback that stood at the place when it was
pressed, and does nothing else to the buttons.
-/
namespace ScenarioHost

open Callbacks (Invocation invoke runButton)
open Conversion (given toCallback toText)
open Lua (Evaluator Site Spot Value)

namespace SessionOp

def added? : SessionOp → Option Choice
  | .button label callback => some ⟨label, callback⟩
  | _ => none

def clears : SessionOp → Bool
  | .clearButtons => true
  | _ => false

def onButtons (op : SessionOp) (buttons : List Choice) : List Choice :=
  if op.clears then [] else buttons ++ op.added?.toList

theorem buttons_apply (op : SessionOp) (s : Session) :
    (op.apply s).buttons = op.onButtons s.buttons := by
  cases op with
  | button label callback => rfl
  | clearButtons => rfl
  | advance delta =>
    have hsame : (s.advance delta).buttons = s.buttons := by
      unfold Session.advance
      split <;> rfl
    exact hsame.trans (List.append_nil _).symm
  | _ => exact (List.append_nil _).symm

end SessionOp

def addedSinceClear (ops : List SessionOp) : List Choice :=
  (ops.rtakeWhile fun op => !op.clears).filterMap SessionOp.added?

/-- Buttons that were there before stay in front, unless they are cleared. -/
theorem foldl_onButtons (ops : List SessionOp) (buttons : List Choice) :
    ops.foldl (fun bs op => op.onButtons bs) buttons =
      if ops.any SessionOp.clears then addedSinceClear ops else buttons ++ addedSinceClear ops := by
  -- on the latest operation, which decides by itself if it clears, and otherwise adds at the end
  induction ops using List.reverseRecOn with
  | nil => exact (List.append_nil _).symm
  | append_singleton ops op ih =>
    rw [List.foldl_append, List.foldl_cons, List.foldl_nil, ih, List.any_append, List.any_cons,
      List.any_nil, Bool.or_false]
    unfold addedSinceClear SessionOp.onButtons
    rw [List.rtakeWhile_concat]
    cases hop : op.clears with
    | true =>
      rw [Bool.or_true, if_pos rfl, if_pos rfl]
      rfl
    | false =>
      have hadded : List.filterMap SessionOp.added? [op] = op.added?.toList := by
        rw [List.filterMap_cons]
        cases op.added? <;> rfl
      simp only [Bool.or_false, Bool.not_false, Bool.false_eq_true, if_false, if_true,
        List.filterMap_append, hadded]
      split
      · rfl
      · exact List.append_assoc ..

def Affair.OfButtons : Affair → Prop
  | .session op => op.clears ∨ op.added?.isSome
  | .overlay => False

/-- There are two functions by which scripts can change the buttons. -/
theorem Affair.OfButtons.functions {affair : Affair} (h : affair.OfButtons) :
    affair.functions ⊆ [.host .addGmFunction, .host .clearGmFunctions] := by
  cases affair with
  | overlay => exact h.elim
  | session op =>
    cases op with
    | button label callback => exact List.cons_subset_cons _ (List.nil_subset _)
    | clearButtons => exact List.subset_cons_self _ _
    | _ => exact (h.elim Bool.false_ne_true Bool.false_ne_true).elim

/-- Other operations leave the buttons as they are. -/
theorem SessionOp.buttons_other {op : SessionOp} (hop : ¬ Affair.OfButtons (.session op))
    (s : Session) : (op.apply s).buttons = s.buttons := by
  obtain ⟨hclears, hadded⟩ := not_or.mp hop
  rw [op.buttons_apply, onButtons, if_neg hclears, Option.not_isSome_iff_eq_none.mp hadded]
  exact List.append_nil _

theorem World.buttons_clearScripts (w : World) :
    w.clearScripts.session.map Session.buttons = w.session.map Session.buttons := by
  rw [session_clearScripts, Option.map_map]
  rfl

/-- What can be said of the buttons of a session in a world, whoever uses them. -/
structure World.ButtonLaw (w : World) (s : Session) : Prop where
  absent (run : Evaluator) (site : Site) (i : Nat) : s.buttons.length ≤ i →
    runButton run site i w = .done false w
  /-- What stands at the place is invoked, and a failure of it is written down; that is all. -/
  pressed (run : Evaluator) (site : Site) (i : Nat) (b : Choice) : s.buttons[i]? = some b →
    runButton run site i w =
      match invoke run site b.callback [] w with
      | .done _ w' => .done true w'
      | .raised e w' => .raised e (w'.addError (b.label ++ ": " ++ e.message))
      | @Outcome.starved _ _ w' => @Outcome.starved _ _ w'
  /-- The function is called once, with nothing. -/
  called (run : Evaluator) (site : Site) (c : Callback) : w.isAlive c.environment = true →
    invoke run site c [] w =
      match Boundary.call run c.environment site (.function c.function) []
          (w.enter c.environment) with
      | .done values w' => .done values (w'.leave c.environment)
      | .raised e w' => .raised (.runtime e.message) (w'.leave c.environment)
      | @Outcome.starved _ _ w' => @Outcome.starved _ _ w'
  gone (run : Evaluator) (site : Site) (i : Nat) (b : Choice) : s.buttons[i]? = some b →
    w.isAlive b.callback.environment = false →
    runButton run site i w =
      .raised .invalidHandle (w.addError (b.label ++ ": " ++ ScriptError.invalidHandle.message))
  /-- Pressing a button changes the buttons as far as its callback does. -/
  inside (stop : (k : Lua.Kind) → Lua.Task k → World → Bool) (limit fuel : Nat) (site : Site)
    (i : Nat) (b : Choice) : s.buttons[i]? = some b → ∃ l, (∀ h ∈ l, h.ByScripts) ∧
      Annals (Engine.StoppedBy stop) w l
        (invoke (Engine.stopped stop limit fuel) site b.callback [] w).moment ∧
      ∃ s', (runButton (Engine.stopped stop limit fuel) site i w).world.session = some s' ∧
        s'.buttons =
          if (l.filterMap Happening.op?).any SessionOp.clears then
            addedSinceClear (l.filterMap Happening.op?)
          else s.buttons ++ addedSinceClear (l.filterMap Happening.op?)
  added (run : Evaluator) (spot : Spot) (args : List Value) (label : String)
    (f : Lua.FunctionId) : given toText args 1 (w.heap spot.env) = .ok label →
    given (toCallback spot.env) args 2 (w.heap spot.env) = .ok ⟨spot.env, f⟩ →
    Interface.callHost run spot .addGmFunction args w =
      .done [] { w with session := some (s.addButton label ⟨spot.env, f⟩) }
  unfit (run : Evaluator) (spot : Spot) (args : List Value) (e : HostError) :
    (given toText args 1 (w.heap spot.env) = .error e ∨
      ∃ label, given toText args 1 (w.heap spot.env) = .ok label ∧
        given (toCallback spot.env) args 2 (w.heap spot.env) = .error e) →
    Interface.callHost run spot .addGmFunction args w = .raised e w
  cleared (run : Evaluator) (spot : Spot) (args : List Value) :
    Interface.callHost run spot .clearGmFunctions args w =
      .done [] { w with session := some s.clearButtons }
  /-- Code in which the two functions are not called leaves the buttons alone. -/
  others (stop : (k : Lua.Kind) → Lua.Task k → World → Bool) (limit fuel : Nat) :
    Engine.StopsAt [.host .addGmFunction, .host .clearGmFunctions] stop →
    (∀ k (t : Lua.Task k), ∃ s', (Engine.stopped stop limit fuel k t w).world.session = some s' ∧
      s'.buttons = s.buttons) ∧
    ∀ site i, ∃ s', (runButton (Engine.stopped stop limit fuel) site i w).world.session = some s' ∧
      s'.buttons = s.buttons
  /-- The buttons of environments that go stay. -/
  kept (e : EnvironmentId) : (w.destroy e).session = some s ∧
    w.clearScripts.session.map Session.buttons = some s.buttons

namespace World

variable {w : World} {s : Session} (hs : w.session = some s)

include hs

theorem target_button {i : Nat} {b : Choice} (hb : s.buttons[i]? = some b) :
    (Invocation.button i).target? w = some ⟨b.label, b.callback, []⟩ := by
  have hbutton : w.session.bind (·.button? i) = some b := by
    rw [hs]
    exact hb
  exact congrArg (Option.map _) hbutton

theorem run_button_absent (run : Evaluator) (site : Site) {i : Nat} (hi : s.buttons.length ≤ i) :
    runButton run site i w = .done false w := by
  have hnone : w.session.bind (·.button? i) = none := by
    rw [hs]
    exact List.getElem?_eq_none hi
  exact Invocation.perform_absent (v := .button i) run site w (congrArg (Option.map _) hnone)

theorem buttonLaw : w.ButtonLaw s where
  absent run site i hi := run_button_absent hs run site hi
  pressed run site i b hb :=
    (Invocation.perform_present run site w (target_button hs hb)).trans (Callbacks.report_apply ..)
  called run site c halive := (Callbacks.invoke_apply run site w c []).trans (if_pos halive)
  gone run site i b hb hgone :=
    (Invocation.perform_present run site w (target_button hs hb)).trans
      (Callbacks.report_of_not_alive run site b.label [] hgone)
  inside stop limit fuel site i b hb := by
    obtain ⟨l, hcode, hinside⟩ :=
      Callbacks.annals_invoke limit fuel (Engine.minds_all stop) site b.callback [] w
    have hscripts : ∀ h ∈ l, h.ByScripts := fun h hh => (hcode h hh).1
    obtain ⟨s', hs', hbuttons⟩ := hinside.read_by_scripts Session.buttons SessionOp.onButtons
      SessionOp.buttons_apply (fun _ => rfl) hscripts hs
    -- the button itself has no hand in the session: it is as the callback left it
    have hsession := Invocation.session_perform (Engine.stopped stop limit fuel) site
      (target_button hs hb)
    refine ⟨l, hscripts, hinside, s', hsession.trans hs', ?_⟩
    rw [hbuttons, foldl_onButtons]
  added run spot args label f hlabel hf := by
    have hrequest : Interface.requested spot.env args (w.heap spot.env) .addGmFunction =
        some (.ok (.button label ⟨spot.env, f⟩)) := by
      unfold Interface.requested
      rw [hlabel, hf]
      rfl
    rw [Interface.callHost_requested run spot hrequest]
    exact Interface.changeSession_of_some hs _
  unfit run spot args e he := by
    have hrequest : Interface.requested spot.env args (w.heap spot.env) .addGmFunction =
        some (.error e) := by
      unfold Interface.requested
      rcases he with he | ⟨label, hlabel, he⟩
      · rw [he]
        rfl
      · rw [hlabel, he]
        rfl
    exact Interface.callHost_requested run spot hrequest
  cleared run spot args := by
    rw [Interface.callHost_requested run spot rfl]
    exact Interface.changeSession_of_some hs _
  others stop limit fuel hstop := by
    have hminds : Engine.Minds (fun affair => ¬ affair.OfButtons) stop :=
      hstop.minds fun affair haffair => (not_not.mp haffair).functions
    constructor
    · exact Engine.part_stays limit fuel hminds Session.buttons
        (fun _ => SessionOp.buttons_other) (fun _ => rfl) hs
    · intro site i
      cases hb : s.buttons[i]? with
      | none =>
        rw [run_button_absent hs _ site (List.getElem?_eq_none_iff.mp hb)]
        exact ⟨s, hs, rfl⟩
      | some b =>
        obtain ⟨s', hs', hbuttons⟩ := Callbacks.part_stays limit fuel hminds Session.buttons
          (fun _ => SessionOp.buttons_other) (fun _ => rfl) hs site b.callback []
        have hsession := Invocation.session_perform (Engine.stopped stop limit fuel) site
          (target_button hs hb)
        exact ⟨s', hsession.trans hs', hbuttons⟩
  kept e := ⟨hs, w.buttons_clearScripts.trans (congrArg (Option.map Session.buttons) hs)⟩

end World

/-- At every moment of every run the buttons are those added since the last clearing, and in every
world a button leads to what stands at its place there. -/
theorem buttons_follow_additions :
    (∀ config library stop limit fuel steps, ∃ l, (∀ h ∈ l, h.ByHost steps) ∧
      Annals (Engine.StoppedBy stop) (World.new config library) l
        (Host.performAll (Engine.stopped stop limit fuel) [] steps
          (World.new config library)).moment ∧
      ∀ s, (Host.performAll (Engine.stopped stop limit fuel) [] steps
          (World.new config library)).world.session = some s →
        s.buttons = addedSinceClear (l.filterMap Happening.op?)) ∧
    ∀ (w : World) s, w.session = some s → w.ButtonLaw s := by
  refine ⟨?_, fun w s => World.buttonLaw⟩
  intro config library stop limit fuel steps
  obtain ⟨l, hhost, hl⟩ :=
    Host.annals_performAll stop limit fuel [] steps (World.new config library)
  refine ⟨l, hhost, hl, fun s hs => ?_⟩
  obtain ⟨s₀, hs₀, hbuttons⟩ := hl.read_session Session.buttons SessionOp.onButtons
    SessionOp.buttons_apply (fun _ => rfl) hs
  -- there are no buttons at first
  obtain rfl : Session.new = s₀ := Option.some.inj hs₀
  rw [hbuttons, foldl_onButtons]
  split
  · rfl
  · exact List.nil_append _

def World.scanning : World :=
  let clear : Callback := ⟨⟨0⟩, ⟨108⟩⟩
  (Host.performAll (Engine.stopped (fun _ _ _ => false) 10 10) []
    [.create, .session (.button "Scan" clear), .session (.button "Scan" clear)]
    (World.new { Config.default with bootstrap := [] } default)).world

/-- The second one is invoked although it takes itself away; there is no third one. -/
theorem scan_clears_buttons :
    World.scanning.session.map (·.buttons.map Choice.label) = some ["Scan", "Scan"] ∧
    (runButton (Engine.engine 10 10) .outside 1 World.scanning).world.session.map Session.buttons =
      some [] ∧
    runButton (Engine.engine 10 10) .outside 2 World.scanning = .done false World.scanning := by
  obtain ⟨s, hs, hbutton⟩ : ∃ s, World.scanning.session = some s ∧
      s.buttons = [⟨"Scan", ⟨⟨0⟩, ⟨108⟩⟩⟩, ⟨"Scan", ⟨⟨0⟩, ⟨108⟩⟩⟩] := ⟨_, rfl, rfl⟩
  have hlaw := buttons_follow_additions.2 World.scanning s hs
  have hsecond : s.buttons[1]? = some ⟨"Scan", ⟨⟨0⟩, ⟨108⟩⟩⟩ := by
    rw [hbutton]
    rfl
  have hlength : s.buttons.length ≤ 2 := by
    rw [hbutton]
    decide
  refine ⟨?_, ?_, ?_⟩
  · rw [hs, Option.map_some, hbutton]
    rfl
  · rw [hlaw.pressed _ _ 1 _ hsecond]
    decide +kernel
  · exact hlaw.absent _ _ 2 hlength

end ScenarioHost
