import ScenarioHost.Proofs.Annals

/-!
Reports of failures. Invocations of callbacks nest in each other as deep as scripts make them; each
that fails writes one line to the console when it ends, so after all that was written inside of it,
and passes its error on as it is. One that succeeds writes nothing, whatever failed inside.
-/
namespace ScenarioHost

open Callbacks (Invocation Target invoke)
open Conversion (given toIndex)
open Lua (Evaluator Site Spot Value)

namespace Console

def pushAll (c : Console) (lines : List ConsoleLine) : Console := lines.foldl push c

theorem pushAll_append (c : Console) (first second : List ConsoleLine) :
    c.pushAll (first ++ second) = (c.pushAll first).pushAll second := List.foldl_append

end Console

namespace Callbacks.Target

def report (t : Target) (e : ScriptError) : ConsoleLine := ⟨.error, t.label ++ ": " ++ e.message⟩

end Callbacks.Target

namespace Happening

def IsAside : Happening → Prop
  | .begins .. => False
  | .ends .. => False
  | .missed _ => False
  | _ => True

end Happening

/-- What happened while all invocations that began came to their end, with the lines that were
written meanwhile. -/
inductive Nested : List Happening → List ConsoleLine → Prop where
  | nil : Nested [] []
  | aside {h : Happening} {l : List Happening} {lines : List ConsoleLine} (hh : h.IsAside) :
      Nested l lines → Nested (h :: l) (h.line?.toList ++ lines)
  | missed (v : Invocation) {l : List Happening} {lines : List ConsoleLine} :
      Nested l lines → Nested (.missed v :: l) lines
  | succeeded (v : Invocation) (t : Target) {inside l : List Happening}
      {before after : List ConsoleLine} : Nested inside before → Nested l after →
      Nested (.begins v t :: inside ++ .ends v t none :: l) (before ++ after)
  | failed (v : Invocation) (t : Target) (e : ScriptError) {inside l : List Happening}
      {before after : List ConsoleLine} : Nested inside before → Nested l after →
      Nested (.begins v t :: inside ++ .ends v t (some e) :: l) (before ++ t.report e :: after)

inductive Pending : List Happening → List ConsoleLine → Prop where
  | settled {l : List Happening} {lines : List ConsoleLine} : Nested l lines → Pending l lines
  | inside (v : Invocation) (t : Target) {l inside : List Happening}
      {before after : List ConsoleLine} : Nested l before → Pending inside after →
      Pending (l ++ .begins v t :: inside) (before ++ after)

namespace Nested

variable {l l' : List Happening} {lines lines' : List ConsoleLine}

theorem append (h : Nested l lines) (h' : Nested l' lines') : Nested (l ++ l') (lines ++ lines') := by
  induction h with
  | nil => exact h'
  | aside hh _ ih =>
    rw [List.cons_append, List.append_assoc]
    exact .aside hh ih
  | missed v _ ih => exact .missed v ih
  | succeeded v t hinside _ _ ih =>
    rw [List.append_assoc, List.append_assoc]
    exact .succeeded v t hinside ih
  | failed v t e hinside _ _ ih =>
    rw [List.append_assoc, List.append_assoc]
    exact .failed v t e hinside ih

theorem pending (h : Nested l lines) (h' : Pending l' lines') :
    Pending (l ++ l') (lines ++ lines') := by
  cases h' with
  | settled h' => exact .settled (h.append h')
  | inside v t hbefore hinside =>
    rw [← List.append_assoc, ← List.append_assoc]
    exact .inside v t (h.append hbefore) hinside

theorem one {h : Happening} (hh : h.IsAside) : Nested [h] h.line?.toList := by
  have hone := Nested.aside hh .nil
  rwa [List.append_nil] at hone

/-- The lines are those of the single happenings. -/
theorem lines_eq (h : Nested l lines) : lines = l.filterMap Happening.line? := by
  induction h with
  | nil => rfl
  | @aside h l lines hh _ ih =>
    rw [ih, List.filterMap_cons]
    cases h.line? <;> rfl
  | missed v _ ih => exact ih
  | succeeded v t _ _ first second =>
    rw [first, second, List.filterMap_append]
    rfl
  | failed v t e _ _ first second =>
    rw [first, second, List.filterMap_append]
    rfl

end Nested

theorem Pending.lines_eq {l : List Happening} {lines : List ConsoleLine} (h : Pending l lines) :
    lines = l.filterMap Happening.line? := by
  induction h with
  | settled h => exact h.lines_eq
  | inside v t hbefore _ ih =>
    rw [hbefore.lines_eq, ih, List.filterMap_append]
    rfl

def Listed (settled : Bool) (l : List Happening) (lines : List ConsoleLine) : Prop :=
  if settled then Nested l lines else Pending l lines

namespace Listed

variable {l l' : List Happening} {lines lines' : List ConsoleLine} {settled : Bool}

theorem of_nested (h : Nested l lines) : Listed settled l lines := by
  unfold Listed
  split
  · exact h
  · exact .settled h

theorem after (h : Nested l lines) (h' : Listed settled l' lines') :
    Listed settled (l ++ l') (lines ++ lines') := by
  cases settled with
  | true => exact h.append h'
  | false => exact h.pending h'

theorem lines_eq (h : Listed settled l lines) : lines = l.filterMap Happening.line? := by
  cases settled with
  | true => exact Nested.lines_eq h
  | false => exact Pending.lines_eq h

end Listed

/-- Annals are nested as the invocations were. -/
theorem Annals.listed {Carries : Evaluator → Prop} {w : World} {l : List Happening} {m : Moment}
    (h : Annals Carries w l m) : ∃ lines, Listed m.settled l lines := by
  -- what happens by itself
  have haside {h : Happening} {settled : Bool} (hh : h.IsAside) :
      ∃ lines, Listed settled [h] lines := ⟨_, .of_nested (.one hh)⟩
  induction h with
  | silent _ settled => exact ⟨_, .of_nested .nil⟩
  | append _ _ first second =>
    obtain ⟨before, hbefore⟩ := first
    obtain ⟨after, hafter⟩ := second
    exact ⟨_, .after hbefore hafter⟩
  | change w op => exact haside trivial
  | print w text => exact haside trivial
  | sessionEnded w => exact haside trivial
  | equipped w b => exact haside trivial
  | unknown _ l env site _ => exact haside trivial
  | @known run _ l env site path w source inside hpath _ ih =>
    rw [l.moment_of_known run env site path w hpath]
    have hload : (Happening.load l path true).IsAside := trivial
    obtain ⟨lines, hlines⟩ := ih
    exact ⟨_, .after (.one hload) hlines⟩
  | missed _ site _ => exact ⟨_, .of_nested (.missed _ .nil)⟩
  | @invoked run _ site v w t inside hv _ ih =>
    rw [Callbacks.Invocation.perform_present run site w hv, Callbacks.report_apply]
    obtain ⟨lines, hlines⟩ := ih
    -- how the callback ended is how the invocation ends; one in progress stays open
    cases hinvoke : Callbacks.invoke run site t.callback t.args (v.opened w) with
    | done values w' =>
      rw [hinvoke] at hlines
      exact ⟨_, Nested.succeeded v t hlines .nil⟩
    | raised e w' =>
      rw [hinvoke] at hlines
      exact ⟨_, Nested.failed v t e hlines .nil⟩
    | starved =>
      rw [hinvoke] at hlines
      change ∃ lines, Pending (.begins v t :: inside ++ []) lines
      rw [List.append_nil]
      exact ⟨_, .inside v t .nil hlines⟩
  | @attempted run _ env site ε t w inside _ ih =>
    rw [Headless.checked_apply]
    obtain ⟨lines, hlines⟩ := ih
    cases hrun : t.perform run env site w with
    | raised message w' =>
      rw [hrun] at hlines
      exact ⟨_, .after hlines (.of_nested (.one trivial))⟩
    | _ =>
      rw [hrun] at hlines
      change ∃ lines, Listed _ (inside ++ []) lines
      rw [List.append_nil]
      exact ⟨lines, hlines⟩
  | @created run _ site w inside _ ih =>
    rw [Environments.create_eq, Environments.making_apply]
    obtain ⟨lines, hlines⟩ := ih
    cases hrun : Environments.booting run site w.nextEnvironment w.extended with
    | raised failure w' =>
      rw [hrun] at hlines
      exact ⟨_, .after hlines (.of_nested (.one trivial))⟩
    | _ =>
      rw [hrun] at hlines
      change ∃ lines, Listed _ (inside ++ []) lines
      rw [List.append_nil]
      exact ⟨lines, hlines⟩

/-- Where the host leaves the console alone, lines are only ever added to it. -/
theorem Happening.lines_added {l : List Happening} (hl : ∀ b, .equipped b ∉ l) (c : Console) :
    l.foldl (fun c h => h.onConsole c) c = c.pushAll (l.filterMap line?) := by
  induction l generalizing c with
  | nil => rfl
  | cons h l ih =>
    have hfirst : h.onConsole c = c.pushAll h.line?.toList := by
      cases h with
      | equipped b => exact absurd List.mem_cons_self (hl b)
      | ends v t failure => cases failure <;> rfl
      | _ => rfl
    have hlines : (h :: l).filterMap line? = h.line?.toList ++ l.filterMap line? := by
      rw [List.filterMap_cons]
      cases h.line? <;> rfl
    rw [List.foldl_cons, hfirst, ih fun b hb => hl b (List.mem_cons_of_mem _ hb), hlines,
      Console.pushAll_append]

theorem Annals.console_lines {Carries : Evaluator → Prop} {w : World} {l : List Happening}
    {m : Moment} (h : Annals Carries w l m) (hl : ∀ b, .equipped b ∉ l) :
    m.world.console = w.console.pushAll (l.filterMap Happening.line?) :=
  h.console.trans (Happening.lines_added hl w.console)

/-- What can be said of invocations that are made in a world, by the host or by scripts. -/
structure World.ReportLaw (w : World) : Prop where
  missed (run : Evaluator) (site : Site) (v : Invocation) : v.target? w = none →
    v.perform run site w = .done false w
  /-- The error that is reported is the error that is given. -/
  found (run : Evaluator) (site : Site) (v : Invocation) (t : Target) : v.target? w = some t →
    v.perform run site w =
      match invoke run site t.callback t.args (v.opened w) with
      | .done _ w' => .done true w'
      | .raised e w' => .raised e (w'.addError (t.label ++ ": " ++ e.message))
      | @Outcome.starved _ _ w' => @Outcome.starved _ _ w'
  /-- An invocation adds to the console what was written inside of it, and after that a line of its
  own where it fails. -/
  reported (stop : (k : Lua.Kind) → Lua.Task k → World → Bool) (limit fuel : Nat) (site : Site)
    (v : Invocation) (t : Target) : v.target? w = some t → ∃ inside lines,
      (∀ h ∈ inside, h.ByScripts) ∧
      Annals (Engine.StoppedBy stop) (v.opened w) inside
        (invoke (Engine.stopped stop limit fuel) site t.callback t.args (v.opened w)).moment ∧
      match v.perform (Engine.stopped stop limit fuel) site w with
      | .done _ w' => Nested inside lines ∧ w'.console = w.console.pushAll lines
      | .raised e w' =>
        Nested inside lines ∧ w'.console = w.console.pushAll (lines ++ [t.report e])
      | @Outcome.starved _ _ w' => Pending inside lines ∧ w'.console = w.console.pushAll lines
  /-- A script that has the function for it makes an invocation whose failure becomes its own. -/
  onward (run : Evaluator) (s : Spot) (f : ControlFunction) (args : List Value) (v : Invocation) :
    Interface.driven args (w.heap s.env) f = some (.ok v) → w.session.isSome →
    Interface.callControl run s f args w =
      match v.perform run (Scripts.siteInside s) w with
      | .done found w' => .done [.boolean found] w'
      | .raised e w' => .raised (.script e) w'
      | @Outcome.starved _ _ w' => @Outcome.starved _ _ w'
  /-- Or one whose failure it is told about. -/
  swallowed (run : Evaluator) (s : Spot) (args : List Value) (i : Nat) :
    given toIndex args 1 (w.heap s.env) = .ok i → w.session.isSome →
    Interface.callControl run s .tryGm args w =
      match (Invocation.button i).perform run (Scripts.siteInside s) w with
      | .done _ w' => .done [.boolean true] w'
      | .raised _ w' => .done [.boolean false] w'
      | @Outcome.starved _ _ w' => @Outcome.starved _ _ w'

theorem World.console_opened (v : Invocation) (w : World) : (v.opened w).console = w.console := by
  cases v <;> rfl

theorem World.reportLaw (w : World) : w.ReportLaw where
  missed run site v hv := Invocation.perform_absent run site w hv
  found run site v t hv :=
    (Invocation.perform_present run site w hv).trans (Callbacks.report_apply ..)
  reported stop limit fuel site v t hv := by
    obtain ⟨inside, hcode, hinside⟩ := Callbacks.annals_invoke limit fuel (Engine.minds_all stop)
      site t.callback t.args (v.opened w)
    have hscripts : ∀ h ∈ inside, h.ByScripts := fun h hh => (hcode h hh).1
    obtain ⟨lines, hlines⟩ := hinside.listed
    -- scripts cannot take lines away, so those from inside follow what was there before
    have hconsole := hinside.console_lines (Happening.not_equipped_by_scripts hscripts)
    rw [← hlines.lines_eq, w.console_opened v] at hconsole
    refine ⟨inside, lines, hscripts, hinside, ?_⟩
    rw [Invocation.perform_present _ site w hv, Callbacks.report_apply]
    cases hinvoke : invoke (Engine.stopped stop limit fuel) site t.callback t.args (v.opened w) with
    | done values w' =>
      rw [hinvoke] at hlines hconsole
      exact ⟨hlines, hconsole⟩
    | raised e w' =>
      rw [hinvoke] at hlines hconsole
      refine ⟨hlines, ?_⟩
      rw [Console.pushAll_append, ← hconsole]
      rfl
    | starved =>
      rw [hinvoke] at hlines hconsole
      exact ⟨hlines, hconsole⟩
  onward run s f args v hf hw := by
    rw [Interface.callControl_driven run s hf]
    change Interface.withSession (Interface.outcome (v.perform run (Scripts.siteInside s))) w = _
    rw [Interface.withSession_apply _ hw]
    unfold Interface.outcome
    rw [Act.bind_apply, Act.map_error_apply]
    cases v.perform run (Scripts.siteInside s) w <;> rfl
  swallowed run s args i hi hw := by
    change (Conversion.argument toIndex s.env args 1 >>= fun i => Interface.withSession _) w = _
    rw [Act.bind_apply, Conversion.argument_apply, hi]
    change Interface.withSession _ w = _
    have hpress : (Invocation.button i).perform run (Scripts.siteInside s) w =
        Callbacks.runButton run (Scripts.siteInside s) i w := rfl
    rw [Interface.withSession_apply _ hw, Act.bind_apply, Act.attempt_apply, hpress]
    cases Callbacks.runButton run (Scripts.siteInside s) i w <;> rfl

/-- However invocations nest, the failures among them and no others are written down, each when it
ends; the console holds these lines in between of those that scripts and other failures leave. -/
theorem failures_are_reported :
    (∀ w : World, w.ReportLaw) ∧
    ∀ config library stop limit fuel steps, ∃ l lines, (∀ h ∈ l, h.ByHost steps) ∧
      Annals (Engine.StoppedBy stop) (World.new config library) l
        (Host.performAll (Engine.stopped stop limit fuel) [] steps
          (World.new config library)).moment ∧
      Listed (Host.performAll (Engine.stopped stop limit fuel) [] steps
        (World.new config library)).moment.settled l lines ∧
      ((∀ b, .equip b ∉ steps) →
        (Host.performAll (Engine.stopped stop limit fuel) [] steps
          (World.new config library)).world.console =
            (Console.ofCapacity config.consoleCapacity).pushAll lines) := by
  refine ⟨World.reportLaw, ?_⟩
  intro config library stop limit fuel steps
  obtain ⟨l, hhost, hl⟩ :=
    Host.annals_performAll stop limit fuel [] steps (World.new config library)
  obtain ⟨lines, hlines⟩ := hl.listed
  refine ⟨l, lines, hhost, hl, hlines, fun hkept => ?_⟩
  have hconsole := hl.console_lines (Happening.not_equipped hhost hkept)
  rw [Outcome.world_moment] at hconsole
  rw [hconsole, hlines.lines_eq]
  rfl

def World.provoked (press : Lua.FunctionId) : World :=
  (Host.performAll (Engine.stopped (fun _ _ _ => false) 10 10) []
    [.create, .define ⟨0⟩ Environments.controlFunctions,
      .session (.playerShipHook ⟨⟨0⟩, press⟩), .session (.button "Inner" ⟨⟨0⟩, ⟨113⟩⟩)]
    (World.new { Config.default with bootstrap := [] } default)).world

/-- The hook succeeds where it asks whether the button fails. Where it does not ask it fails as well,
which is reported after the failure of the button. -/
theorem failure_swallowed_or_passed :
    let message := "bad argument #1: error converting Lua nil to usize " ++
      "(expected number or string coercible to number)"
    let asking := (Invocation.playerShip 0).perform (Engine.engine 20 20) .outside
      (World.provoked ⟨114⟩)
    let unasking := (Invocation.playerShip 0).perform (Engine.engine 20 20) .outside
      (World.provoked ⟨113⟩)
    asking.result? = some true ∧
      asking.world.console.lines = [⟨.error, "Inner: " ++ message⟩] ∧
    unasking.result? = none ∧
      unasking.world.console.lines =
        [⟨.error, "Inner: " ++ message⟩, ⟨.error, "onNewPlayerShip: " ++ message⟩] := by
  have hfound (press : Lua.FunctionId) := (failures_are_reported.1 (World.provoked press)).found
    (Engine.engine 20 20) .outside (.playerShip 0) ⟨"onNewPlayerShip", ⟨⟨0⟩, press⟩, [.ofNat 0]⟩ rfl
  rw [hfound, hfound]
  decide +kernel

end ScenarioHost
