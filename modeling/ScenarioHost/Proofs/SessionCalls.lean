import ScenarioHost.Reference
import ScenarioHost.Proofs.Encoding
import ScenarioHost.Proofs.Handles
import ScenarioHost.Proofs.Numerals

/-!
Calls that write to the session. Such a call converts all its arguments and looks for the session
before it writes, so that one that fails has written nothing; else it makes the one change that it is
for.
-/
namespace ScenarioHost

open Conversion (argument_bind given mismatch toCallback toOptional toSingle toText)
open Lua (Evaluator Heap Spot Value)

/-! Values as arguments. -/

inductive Reads : Value → String → Prop where
  | string (text : String) : Reads (.string (.ofText text)) text
  | number (x : Float) : Reads (.number x) (generalText x)

/-- What a function asks of an argument. -/
inductive ParameterType where
  | text
  | function
  | optionalNumber
deriving DecidableEq

namespace ParameterType

def name : ParameterType → String
  | text => "string"
  | function => "function"
  | optionalNumber => "number?"

def Fits (v : Value) : ParameterType → Prop
  | text => ∃ text, Reads v text
  | function => ∃ f, v = .function f
  | optionalNumber => v = .nil ∨ ∃ x, v.toNumber? = some x

end ParameterType

def Fit (parameters : List ParameterType) (args : List Value) : Prop :=
  ∀ p ∈ parameters.zipIdx, p.1.Fits (.arg args p.2)

namespace Conversion

variable {h : Heap} {v : Value}

theorem text_of_number (x : Float) : Lua.stringOfNumber x = .ofText (generalText x) := by
  -- Octets and characters are the same in what a number is written with.
  have hascii : (generalText x).toList.all (fun c => decide (c.toNat < 0x80)) = true :=
    List.all_eq_true.mpr fun c hc => decide_eq_true (Ascii.generalText x c hc)
  rw [ByteString.ofText, if_pos hascii]
  rfl

theorem to_text_ok_iff {text : String} : toText h v = .ok text ↔ Reads v text := by
  -- a value is read as the text it has in the language, where that is a text at all
  have hbytes (bytes : ByteString) (hv : v.toString? = some bytes) :
      toText h v = .ok text ↔ bytes = .ofText text := by
    rw [← ByteString.toText_eq_ok_iff, toText, hv]
    dsimp only
    cases bytes.toText? with
    | error e => exact iff_of_false nofun nofun
    | ok read => simp only [Except.ok.injEq]
  have hother (hv : v.toString? = none) : ¬ toText h v = .ok text := by
    rw [toText, hv]
    exact nofun
  cases v with
  | string bytes =>
    rw [hbytes bytes rfl]
    constructor
    · rintro rfl
      exact .string text
    · rintro ⟨⟩
      rfl
  | number x =>
    rw [hbytes _ rfl, text_of_number]
    constructor
    · intro heq
      obtain rfl := ByteString.ofText_inj.mp heq
      exact .number x
    · rintro ⟨⟩
      rfl
  | _ => exact iff_of_false (hother rfl) nofun

theorem to_callback_ok_iff {env : EnvironmentId} {c : Callback} :
    toCallback env h v = .ok c ↔ ∃ f, v = .function f ∧ c = ⟨env, f⟩ := by
  cases v with
  | function f =>
    constructor
    · rintro ⟨⟩
      exact ⟨f, rfl, rfl⟩
    · rintro ⟨f', ⟨⟩, rfl⟩
      rfl
  | _ => exact iff_of_false nofun nofun

/-- Seconds that may be left out. -/
theorem to_seconds_ok_iff {timeout : Option Single} :
    toOptional (toSingle h) v = .ok timeout ↔
      (v = .nil ∧ timeout = none) ∨ ∃ x, v.toNumber? = some x ∧ timeout = some (.ofDouble x) := by
  by_cases hnil : v = .nil
  · subst hnil
    constructor
    · rintro ⟨⟩
      exact Or.inl ⟨rfl, rfl⟩
    · rintro (⟨-, rfl⟩ | ⟨x, hx, -⟩)
      · rfl
      · cases hx
  · rw [toOptional, if_neg (mt v.isNil_iff.mp hnil), or_iff_right fun h => hnil h.1, toSingle]
    cases v.toNumber? with
    | none => exact iff_of_false nofun nofun
    | some x =>
      constructor
      · rintro ⟨⟩
        exact ⟨x, rfl, rfl⟩
      · rintro ⟨x', ⟨⟩, rfl⟩
        rfl

structure Realizes {α : Type} (t : ParameterType) (convert : Heap → Value → Except HostError α)
    (R : Value → α → Prop) : Prop where
  fits (v : Value) : t.Fits v ↔ ∃ a, R v a
  ok (h : Heap) (v : Value) (a : α) : convert h v = .ok a ↔ R v a

theorem realizes_text : Realizes .text toText Reads :=
  ⟨fun _ => Iff.rfl, fun _ _ _ => to_text_ok_iff⟩

theorem realizes_function (env : EnvironmentId) :
    Realizes .function (toCallback env) fun v c => ∃ f, v = .function f ∧ c = ⟨env, f⟩ where
  fits _ := ⟨fun ⟨f, hf⟩ => ⟨⟨env, f⟩, f, hf, rfl⟩, fun ⟨_, f, hf, _⟩ => ⟨f, hf⟩⟩
  ok _ _ _ := to_callback_ok_iff

theorem realizes_seconds :
    Realizes .optionalNumber (fun h => toOptional (toSingle h)) fun v timeout =>
      (v = .nil ∧ timeout = none) ∨
        ∃ x, v.toNumber? = some x ∧ timeout = some (Single.ofDouble x) where
  fits _ := by
    constructor
    · rintro (hnil | ⟨x, hx⟩)
      · exact ⟨none, Or.inl ⟨hnil, rfl⟩⟩
      · exact ⟨_, Or.inr ⟨x, hx, rfl⟩⟩
    · rintro ⟨_, ⟨hnil, -⟩ | ⟨x, hx, -⟩⟩
      · exact Or.inl hnil
      · exact Or.inr ⟨x, hx⟩
  ok _ _ _ := to_seconds_ok_iff

theorem Realizes.given_cases {α : Type} {t : ParameterType}
    {convert : Heap → Value → Except HostError α} {R : Value → α → Prop}
    (hr : Realizes t convert R) (args : List Value) (n : Nat) (h : Heap) :
    (¬ t.Fits (.arg args (n - 1)) ∧ ∃ e, given convert args n h = .error e) ∨
      (t.Fits (.arg args (n - 1)) ∧ ∃ a, given convert args n h = .ok a ∧ R (.arg args (n - 1)) a) := by
  unfold given
  rw [hr.fits]
  cases hv : convert h (.arg args (n - 1)) with
  | error e =>
    refine Or.inl ⟨?_, _, rfl⟩
    rintro ⟨a, ha⟩
    rw [(hr.ok h _ a).mpr ha] at hv
    cases hv
  | ok a =>
    have ha := (hr.ok h _ a).mp hv
    exact Or.inr ⟨⟨a, ha⟩, a, rfl, ha⟩

end Conversion

/-! The functions. -/

def HostFunction.sessionParameters? : HostFunction → Option (List ParameterType)
  | .onNewPlayerShip => some [.function]
  | .globalMessage => some [.text, .optionalNumber]
  | .victory => some [.text]
  | .setBanner => some [.text]
  | .addGmFunction => some [.text, .function]
  | .clearGmFunctions => some []
  | .setCommsMessage => some [.text]
  | .addCommsReply => some [.text, .function]
  | .commsSwitchToGm => some []
  | _ => none

/-- They are the documented ones. -/
theorem session_parameters_documented :
    ∀ b ∈ Environments.hostFunctions, ∀ parameters ∈ b.2.sessionParameters?,
      ∃ entry ∈ Reference.entries, entry.name = b.1 ∧
        entry.parameters.map Prod.snd = parameters.map ParameterType.name := by
  decide

/-- The change that a call makes of a world with a session: one part of the session, and for a victory
a line of the journal. -/
inductive Writes (env : EnvironmentId) (args : List Value) (w : World) (s : Session) :
    HostFunction → World → Prop where
  | onNewPlayerShip {f : Lua.FunctionId} (hf : Value.arg args 0 = .function f) :
    Writes env args w s .onNewPlayerShip
      { w with session := some { s with playerShipHook := some ⟨env, f⟩ } }
  | globalMessage {text : String} (htext : Reads (.arg args 0) text)
      (htimeout : Value.arg args 1 = .nil) :
    Writes env args w s .globalMessage
      { w with session := some { s with globalMessage := some ⟨text, w.config.messageTimeout⟩ } }
  | timedMessage {text : String} {x : Float} (htext : Reads (.arg args 0) text)
      (htimeout : (Value.arg args 1).toNumber? = some x) :
    Writes env args w s .globalMessage
      { w with session := some { s with globalMessage := some ⟨text, .ofDouble x⟩ } }
  | victory {faction : String} (hfaction : Reads (.arg args 0) faction) :
    Writes env args w s .victory
      { w with
        session := some { s with victory := some faction, paused := true }
        journal := ⟨.info, .session, "Scenario ended, victory for " ++ faction⟩ :: w.journal }
  | setBanner {text : String} (htext : Reads (.arg args 0) text) :
    Writes env args w s .setBanner { w with session := some { s with banner := text } }
  | addGmFunction {label : String} {f : Lua.FunctionId} (hlabel : Reads (.arg args 0) label)
      (hf : Value.arg args 1 = .function f) :
    Writes env args w s .addGmFunction
      { w with session := some { s with buttons := s.buttons ++ [⟨label, ⟨env, f⟩⟩] } }
  | clearGmFunctions :
    Writes env args w s .clearGmFunctions { w with session := some { s with buttons := [] } }
  | setCommsMessage {text : String} (htext : Reads (.arg args 0) text) :
    Writes env args w s .setCommsMessage
      { w with session := some { s with comms := { s.comms with message := some text } } }
  | addCommsReply {label : String} {f : Lua.FunctionId} (hlabel : Reads (.arg args 0) label)
      (hf : Value.arg args 1 = .function f) :
    Writes env args w s .addCommsReply
      { w with session := some { s with
        comms := { s.comms with replies := s.comms.replies ++ [⟨label, ⟨env, f⟩⟩] } } }
  | commsSwitchToGm :
    Writes env args w s .commsSwitchToGm
      { w with session := some { s with comms := { s.comms with gmRequested := true } } }

def SessionOp.journal : SessionOp → List JournalLine
  | .victory faction => [⟨.info, .session, "Scenario ended, victory for " ++ faction⟩]
  | _ => []

def World.written (w : World) (op : SessionOp) : World :=
  { w with session := w.session.map op.apply, journal := op.journal ++ w.journal }

theorem World.written_of_some {w : World} {s : Session} (hs : w.session = some s) (op : SessionOp) :
    w.written op = { w with session := some (op.apply s), journal := op.journal ++ w.journal } := by
  rw [written, hs]
  rfl

namespace Interface

def asked (env : EnvironmentId) (args : List Value) (w : World) :
    HostFunction → Option (Except HostError SessionOp)
  | .globalMessage => some do
    let text ← given toText args 1 (w.heap env)
    let timeout ← given (fun h => toOptional (toSingle h)) args 2 (w.heap env)
    return .message text (timeout.getD w.config.messageTimeout)
  | .victory => some do return .victory (← given toText args 1 (w.heap env))
  | f => requested env args (w.heap env) f

def write (op : SessionOp) : Act HostError (List Value) := do
  if ← Act.read fun w => w.session.isNone then Act.raise Scripts.sessionEnded
  else
    Act.update fun w => w.written op
    return []

/-- A call finds out what it asks for and then writes. -/
theorem callHost_asked (run : Evaluator) (s : Spot) {args : List Value} {w : World}
    {f : HostFunction} {request : Except HostError SessionOp}
    (hf : asked s.env args w f = some request) :
    callHost run s f args w = (Act.ofExcept request >>= write) w := by
  -- by how many arguments are converted before the session is looked for
  cases f with
  | clearGmFunctions | commsSwitchToGm =>
    cases hf
    rfl
  | onNewPlayerShip | victory | setBanner | setCommsMessage =>
    cases hf
    exact argument_bind fun _ => rfl
  | globalMessage | addGmFunction | addCommsReply =>
    cases hf
    exact argument_bind fun _ => argument_bind fun _ => rfl
  | _ => cases hf

def Decided (env : EnvironmentId) (args : List Value) (w : World) (f : HostFunction)
    (parameters : List ParameterType) (request : Except HostError SessionOp) : Prop :=
  (¬ Fit parameters args ∧ ∃ e, request = .error e) ∨
    (Fit parameters args ∧ ∃ op, request = .ok op ∧
      ∀ s, w.session = some s → Writes env args w s f (w.written op))

section Shapes

variable {env : EnvironmentId} {args : List Value} {w : World} {f : HostFunction}

theorem fit_one {t : ParameterType} : Fit [t] args ↔ t.Fits (.arg args 0) := by
  simp only [Fit, List.zipIdx_cons, List.zipIdx_nil, List.forall_mem_cons, List.not_mem_nil,
    false_implies, implies_true, and_true]

theorem fit_two {t t' : ParameterType} :
    Fit [t, t'] args ↔ t.Fits (.arg args 0) ∧ t'.Fits (.arg args 1) := by
  simp only [Fit, List.zipIdx_cons, List.zipIdx_nil, List.forall_mem_cons, List.not_mem_nil,
    false_implies, implies_true, and_true, Nat.zero_add]

theorem writes_written {op : SessionOp}
    (hwrites : ∀ s, Writes env args w s f
      { w with session := some (op.apply s), journal := op.journal ++ w.journal })
    (s : Session) (hs : w.session = some s) : Writes env args w s f (w.written op) := by
  rw [World.written_of_some hs]
  exact hwrites s

theorem decided_none {op : SessionOp}
    (hwrites : ∀ s, Writes env args w s f
      { w with session := some (op.apply s), journal := op.journal ++ w.journal }) :
    Decided env args w f [] (.ok op) :=
  Or.inr ⟨nofun, op, rfl, writes_written hwrites⟩

variable {α β : Type} {t t' : ParameterType} {convert : Heap → Value → Except HostError α}
  {convert' : Heap → Value → Except HostError β} {R : Value → α → Prop} {R' : Value → β → Prop}

theorem decided_one (hr : Conversion.Realizes t convert R) {k : α → SessionOp}
    (hwrites : ∀ a, R (.arg args 0) a → ∀ s, Writes env args w s f
      { w with session := some ((k a).apply s), journal := (k a).journal ++ w.journal }) :
    Decided env args w f [t] (do return k (← given convert args 1 (w.heap env))) := by
  unfold Decided
  rw [fit_one]
  rcases hr.given_cases args 1 (w.heap env) with ⟨hmisfit, e, he⟩ | ⟨hfits, a, ha, hR⟩
  · rw [he]
    exact Or.inl ⟨hmisfit, e, rfl⟩
  · rw [ha]
    exact Or.inr ⟨hfits, k a, rfl, writes_written (hwrites a hR)⟩

theorem decided_two (hr : Conversion.Realizes t convert R) (hr' : Conversion.Realizes t' convert' R')
    {k : α → β → SessionOp}
    (hwrites : ∀ a, R (.arg args 0) a → ∀ b, R' (.arg args 1) b → ∀ s, Writes env args w s f
      { w with session := some ((k a b).apply s), journal := (k a b).journal ++ w.journal }) :
    Decided env args w f [t, t'] (do
      let a ← given convert args 1 (w.heap env)
      let b ← given convert' args 2 (w.heap env)
      return k a b) := by
  unfold Decided
  rw [fit_two]
  rcases hr.given_cases args 1 (w.heap env) with ⟨hmisfit, e, he⟩ | ⟨hfits, a, ha, hR⟩
  · rw [he]
    exact Or.inl ⟨fun h => hmisfit h.1, e, rfl⟩
  · rw [ha]
    rcases hr'.given_cases args 2 (w.heap env) with ⟨hmisfit, e, he⟩ | ⟨hfits', b, hb, hR'⟩
    · rw [he]
      exact Or.inl ⟨fun h => hmisfit h.2, e, rfl⟩
    · rw [hb]
      exact Or.inr ⟨⟨hfits, hfits'⟩, k a b, rfl, writes_written (hwrites a hR b hR')⟩

end Shapes

/-- Each of the functions asks for its own change. -/
theorem asked_decided {f : HostFunction} {parameters : List ParameterType}
    (hf : f.sessionParameters? = some parameters) (env : EnvironmentId) (args : List Value)
    (w : World) :
    ∃ request, asked env args w f = some request ∧ Decided env args w f parameters request := by
  -- The conversions tell when the arguments fit; what is left is the change that is asked for.
  open Conversion in
  cases f with
  | onNewPlayerShip =>
    cases hf
    refine ⟨_, rfl, decided_one (realizes_function env) fun c hc s => ?_⟩
    obtain ⟨f, hf, rfl⟩ := hc
    exact .onNewPlayerShip hf
  | globalMessage =>
    cases hf
    refine ⟨_, rfl, decided_two realizes_text realizes_seconds fun text htext timeout ht s => ?_⟩
    rcases ht with ⟨hnil, rfl⟩ | ⟨x, hx, rfl⟩
    · exact .globalMessage htext hnil
    · exact .timedMessage htext hx
  | victory =>
    cases hf
    exact ⟨_, rfl, decided_one realizes_text fun faction hfaction s => .victory hfaction⟩
  | setBanner =>
    cases hf
    exact ⟨_, rfl, decided_one realizes_text fun text htext s => .setBanner htext⟩
  | addGmFunction =>
    cases hf
    refine ⟨_, rfl, decided_two realizes_text (realizes_function env) fun label hl c hc s => ?_⟩
    obtain ⟨f, hf, rfl⟩ := hc
    exact .addGmFunction hl hf
  | clearGmFunctions =>
    cases hf
    exact ⟨_, rfl, decided_none fun s => .clearGmFunctions⟩
  | setCommsMessage =>
    cases hf
    exact ⟨_, rfl, decided_one realizes_text fun text htext s => .setCommsMessage htext⟩
  | addCommsReply =>
    cases hf
    refine ⟨_, rfl, decided_two realizes_text (realizes_function env) fun label hl c hc s => ?_⟩
    obtain ⟨f, hf, rfl⟩ := hc
    exact .addCommsReply hl hf
  | commsSwitchToGm =>
    cases hf
    exact ⟨_, rfl, decided_none fun s => .commsSwitchToGm⟩
  | _ => cases hf

theorem write_apply (op : SessionOp) (w : World) :
    write op w =
      if w.session.isNone then .raised Scripts.sessionEnded w else .done [] (w.written op) := by
  unfold write
  rw [Act.bind_apply]
  simp only [Act.read]
  cases w.session.isNone <;> rfl

def Refused (w : World) (parameters : List ParameterType) (args : List Value) : Prop :=
  w.session = none ∨ ¬ Fit parameters args

/-- A refused call changes nothing, and any other one makes its change. -/
theorem callHost_session {f : HostFunction} {parameters : List ParameterType}
    (hf : f.sessionParameters? = some parameters) (run : Evaluator) (s : Spot) (args : List Value)
    (w : World) :
    (Refused w parameters args ∧ ∃ e, callHost run s f args w = .raised e w) ∨
      (¬ Refused w parameters args ∧ ∃ session w', w.session = some session ∧
        Writes s.env args w session f w' ∧ callHost run s f args w = .done [] w') := by
  obtain ⟨request, hasked, hdecided⟩ := asked_decided hf s.env args w
  rw [callHost_asked run s hasked]
  rcases hdecided with ⟨hmisfit, e, rfl⟩ | ⟨hfit, op, rfl, hwrites⟩
  · exact Or.inl ⟨Or.inr hmisfit, e, rfl⟩
  · -- all is converted, so it only matters whether there is a session
    have hwrite : (Act.ofExcept (.ok op) >>= write) w = write op w := rfl
    rw [hwrite, write_apply]
    cases hs : w.session with
    | none => exact Or.inl ⟨Or.inl hs, _, rfl⟩
    | some session =>
      have hgranted : ¬ Refused w parameters args := by
        rintro (hnone | hmisfit)
        · rw [hs] at hnone
          cases hnone
        · exact hmisfit hfit
      exact Or.inr ⟨hgranted, session, _, rfl, hwrites session hs, rfl⟩

end Interface

open Interface (Refused fit_two)

/-- A script's call that writes to the session raises an error exactly if there is no session any more
or an argument does not fit. Then nothing has changed but for the error object in the environment of
the script; otherwise the one change of the function has been made. The arguments are those that the
documentation of the function lists. -/
theorem session_calls_are_atomic {f : HostFunction} {parameters : List ParameterType}
    (hf : f.sessionParameters? = some parameters) (limit : Nat) (run : Evaluator) (s : Spot)
    (args : List Value) (w : World) :
    let call := Engine.callBuiltin limit run s (.host f) args w
    ((∃ v w', call = .raised v w') ↔ Refused w parameters args) ∧
      (∀ v w', call = .raised v w' → ∃ cause, w' = w.withError s.env cause ∧
        w' = { w with environments := w'.environments }) ∧
      (¬ Refused w parameters args → ∃ session w', w.session = some session ∧
        Writes s.env args w session f w' ∧ call = .done [] w') ∧
      ∀ name, (name, f) ∈ Environments.hostFunctions → ∃ entry ∈ Reference.entries,
        entry.name = name ∧ entry.parameters.map Prod.snd = parameters.map ParameterType.name := by
  intro call
  have hcall : call = Boundary.inScript s.env (Interface.callHost run s f args) w := rfl
  have hdocumented (name : String) (hname : (name, f) ∈ Environments.hostFunctions) :=
    session_parameters_documented (name, f) hname parameters hf
  rcases Interface.callHost_session hf run s args w with
    ⟨hrefused, e, he⟩ | ⟨hgranted, session, w', hs, hwrites, hdone⟩
  · have hraised := hcall.trans (Boundary.in_script_raised he)
    refine ⟨iff_of_true ⟨_, _, hraised⟩ hrefused, fun v w' h => ?_, fun h => absurd hrefused h,
      hdocumented⟩
    obtain ⟨-, rfl⟩ := Outcome.raised.inj (hraised.symm.trans h)
    exact ⟨e, rfl, rfl⟩
  · have hcalled : call = .done [] w' := by
      rw [hcall, Boundary.inScript, Act.bind_apply, Act.attempt_apply, hdone]
      rfl
    have hkept (v : Value) (w' : World) : call ≠ .raised v w' := by
      rw [hcalled]
      exact nofun
    refine ⟨iff_of_false (fun ⟨v, w', h⟩ => hkept v w' h) hgranted,
      fun v w' h => absurd h (hkept v w'), fun _ => ⟨session, w', hs, hwrites, hcalled⟩, hdocumented⟩

/-- A number counts as the label of a button, and what follows the callback does not count. Without a
callback there is no button. -/
theorem button_labelled_by_number :
    let w := World.new Config.default default
    let call := Engine.callBuiltin 20 (Engine.engine 20 20) ⟨⟨0⟩, .outside, none⟩ (.host .addGmFunction)
    (∃ session w', w.session = some session ∧
      Writes ⟨0⟩ [.ofNat 7, .function ⟨3⟩, .nil] w session .addGmFunction w' ∧
      call [.ofNat 7, .function ⟨3⟩, .nil] w = .done [] w') ∧
    ∃ v w', call [.ofNat 7] w = .raised v w' := by
  intro w call
  obtain ⟨-, -, hwrites, -⟩ := session_calls_are_atomic (f := .addGmFunction) rfl 20
    (Engine.engine 20 20) ⟨⟨0⟩, .outside, none⟩ [.ofNat 7, .function ⟨3⟩, .nil] w
  obtain ⟨hraises, -, -, -⟩ := session_calls_are_atomic (f := .addGmFunction) rfl 20
    (Engine.engine 20 20) ⟨⟨0⟩, .outside, none⟩ [.ofNat 7] w
  have hfit : Fit [.text, .function] [.ofNat 7, .function ⟨3⟩, .nil] :=
    fit_two.mpr ⟨⟨_, .number _⟩, ⟨3⟩, rfl⟩
  have hmisfit : ¬ Fit [.text, .function] [.ofNat 7] := by
    intro hfit
    obtain ⟨-, f, hf⟩ := fit_two.mp hfit
    cases hf
  constructor
  · refine hwrites ?_
    rintro (hnone | hnot)
    · cases hnone
    · exact hnot hfit
  · exact hraises.mpr (Or.inr hmisfit)

end ScenarioHost
