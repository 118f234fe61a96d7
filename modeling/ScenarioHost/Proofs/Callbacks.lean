import ScenarioHost.Proofs.Lifetimes

/-!
Callbacks follow their environments. In every world that a run comes by, a callback whose
environment was destroyed is refused without running anything, unless one of that environment is in
progress; and one whose environment is held by its owner is never refused.
-/
namespace ScenarioHost

open Lua (Evaluator Heap Kind Site Value)

/-! What is done to environments is never undone. -/

theorem later_adopted (w : World) (e script : EnvironmentId) : Later w (w.adopted e script) where
  size := Nat.le_of_eq (w.size_adopted e script).symm
  gone x _ ho := fun ho' => ho ((w.owned_adopted e x script).mp ho')

/-! Runs of a host. -/

namespace World

theorem userdata_bindAll (functions : List (String × Builtin)) (t : Lua.TableId) (h : Heap) :
    (Lua.Library.bindAll h t functions).userdata = h.userdata := by
  induction functions generalizing h with
  | nil => rfl
  | cons f functions ih => exact ih (Lua.Library.bindBuiltin t h f)

variable (w : World) (e x s : EnvironmentId) (functions : List (String × ControlFunction))

theorem led_controlled (h : (Host.controlled w e functions).Led x) : w.Led x := by
  obtain ⟨y, u, hu⟩ := h
  have huserdata : ((Host.controlled w e functions).heap y).userdata = (w.heap y).userdata :=
    w.part_modifyEnvironment e y (·.heap.userdata) _ fun z => userdata_bindAll ..
  refine ⟨y, u, ?_⟩
  simpa only [Conversion.payload?, Heap.userdata?, huserdata] using hu

theorem referred_controlled (h : (Host.controlled w e functions).Referred x) : w.Referred x :=
  h.imp_right (w.led_controlled e x functions)

theorem drives_controlled (hne : x ≠ e) (h : (Host.controlled w e functions).Drives x) :
    w.Drives x := by
  unfold Drives heap Host.controlled at h
  rwa [Recounts.environment_of_ne w hne] at h

theorem counts_driving (y : Environment) :
    (Host.driving functions y).owned = y.owned ∧ (Host.driving functions y).holds = y.holds ∧
      (Host.driving functions y).calls = y.calls := by
  unfold Host.driving
  exact ⟨rfl, rfl, rfl⟩

theorem idle_controlled (h : w.Idle x) : (Host.controlled w e functions).Idle x :=
  ⟨(w.part_modifyEnvironment e x (·.holds) _ fun y => (counts_driving functions y).2.1).trans h.1,
    (w.part_modifyEnvironment e x (·.calls) _ fun y => (counts_driving functions y).2.2).trans h.2⟩

theorem owned_controlled : (Host.controlled w e functions).Owned x ↔ w.Owned x := by
  unfold Owned Host.controlled
  rw [w.part_modifyEnvironment e x (·.owned) _ fun y => (counts_driving functions y).1]

theorem allocated_controlled : (Host.controlled w e functions).Allocated x ↔ w.Allocated x := by
  rw [Allocated, Host.controlled, size_modifyEnvironment, Allocated]

theorem later_controlled : Later w (Host.controlled w e functions) where
  size := Nat.le_of_eq (w.size_modifyEnvironment e _).symm
  gone x _ ho := fun ho' => ho ((w.owned_controlled e x functions).mp ho')

theorem alike_lending : Alike w (Host.lending w e) := .of_same rfl fun _ hx => hx

theorem alike_equipped (b : Host.Belongings) : Alike w (Host.equipped w b) :=
  .of_same rfl fun _ hx => hx

end World

theorem Host.lasting_later : Host.Lasting Later where
  refl := .refl
  trans := .trans
  effect he := he.onward.toLater
  enter _ := recounts_enter.later ..
  leave e w := recounts_leave.later w e
  hold _ := recounts_hold.later ..
  unhold e w := recounts_unhold.later w e
  extended w := w.onward_extended.toLater
  adopted e script w := later_adopted w e script
  destroy e w := (w.onward_destroy e).toLater
  controlled e functions w := w.later_controlled e functions
  lending e w := (w.alike_lending e).onward.toLater
  adding _ _ := ⟨Nat.le_refl _, fun _ _ ho => ho⟩
  endSession w := w.onward_clearScripts.toLater.trans w.alike_endSession.onward.toLater
  equipped w b := (w.alike_equipped b).onward.toLater

theorem Outcome.Upholds.world_later {ε α : Type} {a : Agent} {Q : α → Prop} {w : World}
    {o : Outcome ε α} (h : o.Upholds (Reaches a) (Passes a) Q w) : Later w o.world :=
  Host.lasting_later.upholds h

namespace Host

/-- Between the steps of a host nothing is at work, and neither the session nor a handle leads to
what the host holds. -/
structure Ready (held : List EnvironmentId) (w : World) : Prop where
  orderly : Orderly w
  idle (e : EnvironmentId) : w.Idle e
  held (e : EnvironmentId) : e ∈ held → w.Allocated e ∧ ¬ w.Referred e

namespace Ready

variable {held : List EnvironmentId} {w w' : World} (h : Ready held w)

include h

theorem quiet (a : Agent) : Quiet a w := by
  cases a with
  | host => exact fun e _ => h.idle e
  | code e => exact fun _ x _ => h.idle x

theorem onward (hw : Orderly w') (ho : Onward w w') : Ready held w' where
  orderly := hw
  idle e := ho.idle (h.idle e)
  held e he :=
    ⟨ho.allocated (h.held e he).1, fun hr => (h.held e he).2 (ho.referred e (h.held e he).1 hr)⟩

theorem reaches {a : Agent} (hr : Reaches a w w') : Ready held w' := by
  obtain ⟨hw, ho⟩ := hr.orderly h.orderly (h.quiet a)
  exact h.onward hw ho

theorem created (hr : Reaches (.code w.nextEnvironment) w.extended w') :
    Ready (w.nextEnvironment :: held) w' := by
  obtain ⟨hw, ho⟩ := hr.orderly (w.orderly_extended h.orderly) w.quiet_extended
  have hready : Ready held w' := h.onward hw (w.onward_extended.trans ho)
  refine ⟨hw, hready.idle, fun e he => ?_⟩
  rcases List.mem_cons.mp he with rfl | he
  · exact ⟨ho.allocated w.next_allocated, hr.not_referred h.orderly⟩
  · exact hready.held e he

theorem dropped (e : EnvironmentId) : Ready (held.filter (· ≠ e)) (w.destroy e) where
  orderly := w.orderly_destroy e h.orderly fun _ => h.idle e
  idle x := (w.onward_destroy e).idle (h.idle x)
  held x hx := by
    obtain ⟨halloc, hnot⟩ := h.held x (List.mem_of_mem_filter hx)
    exact ⟨(w.onward_destroy e).allocated halloc, fun hr => hnot (w.referred_destroy e x hr)⟩

/-- Scripts of a held environment may well have functions of the host's own: no handle leads to
it. -/
theorem controlled {e : EnvironmentId} (he : e ∈ held)
    (functions : List (String × ControlFunction)) : Ready held (controlled w e functions) where
  orderly := by
    refine ⟨fun x hr => ?_, fun x hl => ?_, fun x _ => ?_, fun x _ _ => ?_⟩
    · exact (w.allocated_controlled e x functions).mpr
        (h.orderly.referred x (w.referred_controlled e x functions hr))
    · have hled := w.led_controlled e x functions hl
      have hne : x ≠ e := fun hxe => (h.held e he).2 (.inr (hxe ▸ hled))
      exact fun hd => h.orderly.led x hled (w.drives_controlled e x functions hne hd)
    · exact (w.idle_controlled e x functions (h.idle x)).1
    · exact w.idle_controlled e x functions (h.idle x)
  idle x := w.idle_controlled e x functions (h.idle x)
  held x hx := ⟨(w.allocated_controlled e x functions).mpr (h.held x hx).1,
    fun hr => (h.held x hx).2 (w.referred_controlled e x functions hr)⟩

theorem lent (e : EnvironmentId) : Ready (held.filter (· ≠ e)) (lending w e) where
  orderly := (w.alike_lending e).orderly h.orderly
  idle := h.idle
  held x hx := h.held x (List.mem_of_mem_filter hx)

/-- The session gets an environment to which nothing leads yet. -/
theorem added {e : EnvironmentId} (he : e ∈ held) :
    Ready (held.filter (· ≠ e)) (adding w e) where
  orderly := by
    refine ⟨fun x hr => ?_, h.orderly.led, h.orderly.unheld, h.orderly.idle⟩
    rcases hr with hx | hl
    · rcases w.mem_scripts_addScript x e hx with hx | rfl
      · exact h.orderly.referred x (.inl hx)
      · exact (h.held x he).1
    · exact h.orderly.referred x (.inr hl)
  idle := h.idle
  held x hx := by
    obtain ⟨hmem, hne⟩ := List.mem_filter.mp hx
    obtain ⟨halloc, hnot⟩ := h.held x hmem
    refine ⟨halloc, fun hr => hnot (hr.imp_left fun hscript => ?_)⟩
    exact (w.mem_scripts_addScript x e hscript).resolve_right (of_decide_eq_true hne)

theorem ended : Ready held w.endSession := by
  have hcleared := h.onward (w.orderly_clearScripts h.orderly (h.quiet .host)) w.onward_clearScripts
  exact hcleared.onward (w.alike_endSession.orderly hcleared.orderly) w.alike_endSession.onward

end Ready

theorem Advances.ready {held held' : List EnvironmentId} {w w' : World}
    (h : Advances held w held' w') (hw : Ready held w) : Ready held' w' := by
  induction h with
  | refl => exact hw
  | trans _ _ first second => exact second (first hw)
  | act _ hr => exact hw.reaches hr
  | create hr => exact hw.created hr
  | drop => exact hw.dropped _
  | define _ functions he => exact hw.controlled he functions
  | lend => exact hw.lent _
  | give w he =>
    exact kept_by_giving (T := fun _ w' => Ready _ w') (w := w) (hw.added he) (hw.dropped _)
  | endSession => exact hw.ended
  | equip held w b =>
    exact hw.onward ((w.alike_equipped b).orderly hw.orderly) (w.alike_equipped b).onward

theorem Sights.orderly {held : List EnvironmentId} {w w' : World} (h : Sights held w w')
    (hw : Ready held w) : Orderly w' := by
  induction h with
  | here => exact hw.orderly
  | later ha _ ih => exact ih (ha.ready hw)
  | @act held a w w' _ hp => exact hp.orderly hw.orderly (hw.quiet a)
  | create hp => exact hp.orderly (World.orderly_extended _ hw.orderly) (World.quiet_extended _)

theorem Advanced.orderly {held : List EnvironmentId} {w : World}
    {o : Outcome Empty (List EnvironmentId)} (h : Advanced held w o) (hw : Ready held w) :
    Orderly o.world := by
  cases o with
  | done held' w' => exact (Advances.ready h hw).orderly
  | raised impossible => exact impossible.elim
  | starved => exact Sights.orderly h hw

theorem ready_new (config : Config) (library : Library) : Ready [] (World.new config library) := by
  have hempty (e : EnvironmentId) : (World.new config library).environment e = default := rfl
  have hled (e : EnvironmentId) : ¬ (World.new config library).Led e := by
    rintro ⟨y, u, hu⟩
    rw [World.heap, hempty] at hu
    cases hu
  refine ⟨⟨fun e hr => ?_, fun e hl => absurd hl (hled e), fun _ _ => rfl, fun _ _ _ => ⟨rfl, rfl⟩⟩,
    fun e => ⟨rfl, rfl⟩, fun e he => absurd he List.not_mem_nil⟩
  exact absurd hr (not_or_intro List.not_mem_nil (hled e))

end Host

/-! Environments that are gone. -/

namespace World

def Dead (w : World) (e : EnvironmentId) : Prop := w.Destroyed e ∧ w.Idle e

variable {w w' : World} {e : EnvironmentId}

theorem Dead.not_alive (h : w.Dead e) : w.isAlive e = false := by
  obtain ⟨⟨_, hgone⟩, hholds, hcalls⟩ := h
  rw [w.isAlive_eq, Environment.valid, Environment.present, hholds, hcalls,
    Bool.eq_false_iff.mpr hgone]
  rfl

theorem Dead.of_later (h : w.Dead e) (hl : Later w w') (hidle : w.Idle e → w'.Idle e) :
    w'.Dead e := ⟨hl.destroyed h.1, hidle h.2⟩

theorem Dead.onward (h : w.Dead e) (ho : Onward w w') : w'.Dead e := h.of_later ho.toLater ho.idle

/-- In an environment that is gone no work begins. -/
theorem Dead.begin {f : Environment → Environment} (hf : Recounts f) {x : EnvironmentId}
    (h : w.Dead e) (hx : x ≠ e) : (w.modifyEnvironment x f).Dead e := by
  refine h.of_later (hf.later w x) fun hidle => ?_
  rwa [Idle, Recounts.environment_of_ne w hx.symm]

/-- And where there is none, none ends. -/
theorem Dead.end_ {f : Environment → Environment} (hf : Recounts f) (x : EnvironmentId)
    (h : w.Dead e) (hidle : ∀ y, y.holds = 0 → y.calls = 0 → (f y).holds = 0 ∧ (f y).calls = 0) :
    (w.modifyEnvironment x f).Dead e := by
  refine h.of_later (hf.later w x) fun hnone => ?_
  rw [Idle, environment_modifyEnvironment]
  split
  · rename_i hx
    exact hx.1 ▸ hidle _ hnone.1 hnone.2
  · exact hnone

theorem Owned.alive (h : w.Owned e) : w.isAlive e = true := by
  have howned : (w.environment e).owned = true := h
  rw [w.isAlive_eq, Environment.valid, Environment.present, howned]
  rfl

end World

/-- Environments that are gone are so for good. -/
theorem Host.lasting_dead : Host.Lasting fun w w' => ∀ e, w.Dead e → w'.Dead e where
  refl _ _ h := h
  trans first second e h := second e (first e h)
  effect he _ h := h.onward he.onward
  enter {x w} halive e h := by
    -- only a callback that is valid is entered, and this one is not
    refine h.begin recounts_enter ?_
    rintro rfl
    exact absurd halive (Bool.eq_false_iff.mp h.not_alive)
  leave x w e h := by
    refine h.end_ recounts_leave x fun y hholds hcalls => ⟨hholds, ?_⟩
    simp only [hcalls]
  hold {x w} hpresent e h := by
    refine h.begin recounts_hold ?_
    rintro rfl
    -- what is visited is there, and so it is alive
    have hnone := h.not_alive
    rw [w.isAlive_eq, Environment.valid, ← w.isPresent_eq, hpresent] at hnone
    exact absurd hnone (by simp)
  unhold x w e h := by
    refine h.end_ recounts_unhold x fun y hholds hcalls => ⟨?_, hcalls⟩
    simp only [hholds]
  extended w _ h := h.onward w.onward_extended
  adopted e script w x h := by
    refine h.of_later (later_adopted w e script) fun hidle => ?_
    exact ⟨(w.part_adopted e x script (·.holds) fun _ _ => rfl).trans hidle.1,
      (w.part_adopted e x script (·.calls) fun _ _ => rfl).trans hidle.2⟩
  destroy e w _ h := h.onward (w.onward_destroy e)
  controlled e functions w x h :=
    h.of_later (w.later_controlled e functions) (w.idle_controlled e x functions)
  lending e w _ h := h.onward (w.alike_lending e).onward
  adding _ _ _ h := h
  endSession w _ h := (h.onward w.onward_clearScripts).onward w.alike_endSession.onward
  equipped w b _ h := h.onward (w.alike_equipped b).onward

/-- An environment that was let go is gone when no callback of it is in progress. -/
theorem Orderly.dead {w : World} (hw : Orderly w) {e : EnvironmentId} (h : w.Destroyed e)
    (hcalls : (w.environment e).calls = 0) : w.Dead e := by
  refine ⟨h, ?_, hcalls⟩
  by_cases hdrives : w.Drives e
  · exact hw.unheld e hdrives
  · exact (hw.idle e hdrives h.2).1

/-! What becomes of an invocation. -/

namespace Callbacks

variable (run : Evaluator) (site : Site) {w : World}

theorem invoke_of_not_alive {c : Callback} (args : List Value)
    (h : w.isAlive c.environment = false) :
    invoke run site c args w = .raised .invalidHandle w := by
  rw [invoke_apply, h]
  rfl

theorem report_of_not_alive (label : String) {c : Callback} (args : List Value)
    (h : w.isAlive c.environment = false) :
    report run site label c args w =
      .raised .invalidHandle (w.addError (label ++ ": " ++ ScriptError.invalidHandle.message)) := by
  rw [report_apply, invoke_of_not_alive run site args h]

theorem runtime_of_invoke {c : Callback} {args : List Value} (h : w.isAlive c.environment = true)
    {error : ScriptError} {w' : World} (hrun : invoke run site c args w = .raised error w') :
    ∃ message, error = .runtime message := by
  rw [invoke_apply, if_pos h] at hrun
  -- every error of the call is reported as one of the run
  cases hcall : Boundary.call run c.environment site (.function c.function) args
      (w.enter c.environment) with
  | done values w₁ =>
    rw [hcall] at hrun
    cases hrun
  | raised cause w₁ =>
    rw [hcall] at hrun
    exact ⟨cause.message, (Outcome.raised.inj hrun).1.symm⟩
  | starved =>
    rw [hcall] at hrun
    cases hrun

theorem runtime_of_report {label : String} {c : Callback} {args : List Value}
    (h : w.isAlive c.environment = true) {error : ScriptError} {w' : World}
    (hrun : report run site label c args w = .raised error w') :
    ∃ message, error = .runtime message := by
  rw [report_apply] at hrun
  cases hinvoke : invoke run site c args w with
  | done values w₁ =>
    rw [hinvoke] at hrun
    cases hrun
  | raised cause w₁ =>
    rw [hinvoke] at hrun
    obtain ⟨rfl, _⟩ := Outcome.raised.inj hrun
    exact runtime_of_invoke run site h hinvoke
  | starved =>
    rw [hinvoke] at hrun
    cases hrun

theorem selectReply_beginReply (i source target : Nat) :
    selectReply run site i source target (w.modifySession Session.beginReply) =
      .done false (w.modifySession Session.beginReply) := by
  have hnone : (w.modifySession Session.beginReply).session.bind (·.reply? i) = none := by
    unfold World.modifySession
    cases w.session <;> rfl
  unfold selectReply
  rw [Act.bind_apply]
  simp only [Act.read, hnone]
  rfl

end Callbacks

namespace World

/-- Callbacks of an environment are refused without running anything, whoever invokes them. A reply
is none any more once it was selected. -/
structure Refuses (w : World) (e : EnvironmentId) : Prop where
  invoke (run : Evaluator) (site : Site) (c : Callback) (args : List Value) :
    c.environment = e → Callbacks.invoke run site c args w = .raised .invalidHandle w
  button (run : Evaluator) (site : Site) (i : Nat) (b : Choice) :
    w.session.bind (·.button? i) = some b → b.callback.environment = e →
      Callbacks.runButton run site i w =
        .raised .invalidHandle (w.addError (b.label ++ ": " ++ ScriptError.invalidHandle.message))
  ship (run : Evaluator) (site : Site) (ship : Nat) (c : Callback) :
    w.session.bind (·.playerShipHook) = some c → c.environment = e →
      Callbacks.firePlayerShip run site ship w =
        .raised .invalidHandle
          (w.addError ("onNewPlayerShip: " ++ ScriptError.invalidHandle.message))
  reply (run : Evaluator) (site : Site) (i source target : Nat) (r : Choice) :
    w.session.bind (·.reply? i) = some r → r.callback.environment = e →
      Callbacks.selectReply run site i source target w =
        .raised .invalidHandle ((w.modifySession Session.beginReply).addError
          (r.label ++ ": " ++ ScriptError.invalidHandle.message))
  again (run : Evaluator) (site : Site) (i source target : Nat) (text : String) :
    Callbacks.selectReply run site i source target
        ((w.modifySession Session.beginReply).addError text) =
      .done false ((w.modifySession Session.beginReply).addError text)

/-- An invocation of a callback of an environment never fails by itself but for what it runs. -/
structure Answers (w : World) (e : EnvironmentId) : Prop where
  invoke (run : Evaluator) (site : Site) (c : Callback) (args : List Value) (error : ScriptError)
    (w' : World) : c.environment = e →
      Callbacks.invoke run site c args w = .raised error w' → ∃ message, error = .runtime message
  button (run : Evaluator) (site : Site) (i : Nat) (b : Choice) (error : ScriptError)
    (w' : World) : w.session.bind (·.button? i) = some b → b.callback.environment = e →
      Callbacks.runButton run site i w = .raised error w' → ∃ message, error = .runtime message
  ship (run : Evaluator) (site : Site) (ship : Nat) (c : Callback) (error : ScriptError)
    (w' : World) : w.session.bind (·.playerShipHook) = some c → c.environment = e →
      Callbacks.firePlayerShip run site ship w = .raised error w' →
        ∃ message, error = .runtime message
  reply (run : Evaluator) (site : Site) (i source target : Nat) (r : Choice)
    (error : ScriptError) (w' : World) : w.session.bind (·.reply? i) = some r →
      r.callback.environment = e →
      Callbacks.selectReply run site i source target w = .raised error w' →
        ∃ message, error = .runtime message

variable {w : World} {e : EnvironmentId}

theorem refuses_of_not_alive (h : w.isAlive e = false) : w.Refuses e where
  invoke run site c args hc := Callbacks.invoke_of_not_alive run site args (hc ▸ h)
  button run site i b hb hc := by
    unfold Callbacks.runButton
    rw [Act.bind_apply]
    simp only [Act.read, hb]
    exact Callbacks.report_of_not_alive run site b.label [] (hc ▸ h)
  ship run site ship c hs hc := by
    unfold Callbacks.firePlayerShip
    rw [Act.bind_apply]
    simp only [Act.read, hs]
    exact Callbacks.report_of_not_alive run site "onNewPlayerShip" _ (hc ▸ h)
  reply run site i source target r hr hc := by
    unfold Callbacks.selectReply
    rw [Act.bind_apply]
    simp only [Act.read, hr]
    -- that a reply begins is of no account to environments
    have halive : (w.modifySession Session.beginReply).isAlive r.callback.environment = false :=
      hc ▸ h
    exact Callbacks.report_of_not_alive run site r.label _ halive
  again run site i source target text :=
    Callbacks.selectReply_beginReply run site (w := w.addError text) i source target

theorem answers_of_alive (h : w.isAlive e = true) : w.Answers e where
  invoke run site c args error w' hc := Callbacks.runtime_of_invoke run site (hc ▸ h)
  button run site i b error w' hb hc hrun := by
    unfold Callbacks.runButton at hrun
    rw [Act.bind_apply] at hrun
    simp only [Act.read, hb] at hrun
    exact Callbacks.runtime_of_report run site (hc ▸ h) hrun
  ship run site ship c error w' hs hc hrun := by
    unfold Callbacks.firePlayerShip at hrun
    rw [Act.bind_apply] at hrun
    simp only [Act.read, hs] at hrun
    exact Callbacks.runtime_of_report run site (hc ▸ h) hrun
  reply run site i source target r error w' hr hc hrun := by
    unfold Callbacks.selectReply at hrun
    rw [Act.bind_apply] at hrun
    simp only [Act.read, hr] at hrun
    have halive : (w.modifySession Session.beginReply).isAlive r.callback.environment = true :=
      hc ▸ h
    exact Callbacks.runtime_of_report run site halive hrun

end World

namespace World

variable (w : World) {x : EnvironmentId}

theorem isAlive_destroy {e : EnvironmentId} (hx : x ≠ e) :
    (w.destroy e).isAlive x = w.isAlive x := by
  rw [isAlive_eq, isAlive_eq, destroy, Recounts.environment_of_ne w hx]

theorem isAlive_destroys {ids : List EnvironmentId} (hx : x ∉ ids) :
    (ids.foldl destroy w).isAlive x = w.isAlive x := by
  induction ids generalizing w with
  | nil => rfl
  | cons e ids ih =>
    have hne : x ≠ e := List.ne_of_not_mem_cons hx
    rw [List.foldl_cons, ih (w.destroy e) (List.not_mem_of_not_mem_cons hx), w.isAlive_destroy hne]

theorem isAlive_clearScripts (hx : x ∉ w.scripts) : w.clearScripts.isAlive x = w.isAlive x := by
  unfold clearScripts
  unfold scripts at hx
  split
  · rfl
  · rename_i s hs
    rw [hs] at hx
    exact isAlive_destroys { w with session := some s.dropScripts } hx

theorem destroyed_destroy {e : EnvironmentId} (h : w.Allocated e) : (w.destroy e).Destroyed e :=
  ⟨(w.onward_destroy e).allocated h, fun ho => ((w.owned_destroy e e).mp ho).2 rfl⟩

theorem destroyed_letGo {e : EnvironmentId} (h : w.Allocated e) (he : e ∈ w.lent) :
    (w.letGo e).Destroyed e := by
  unfold letGo
  rw [if_pos he]
  exact w.destroyed_destroy h

theorem isAlive_letGo {e : EnvironmentId} (hx : x ≠ e) : (w.letGo e).isAlive x = w.isAlive x := by
  unfold letGo
  split
  · exact w.isAlive_destroy hx
  · rfl

theorem destroyed_clearScripts (halloc : w.Allocated x) (hx : x ∈ w.scripts) :
    w.clearScripts.Destroyed x :=
  ⟨w.onward_clearScripts.allocated halloc, fun ho => ((w.owned_clearScripts x).mp ho).2 hx⟩

end World

/-- An environment whose making failed is destroyed. -/
theorem Environments.Made.destroyed {w : World} {α : Type} {message : String} {w' : World}
    (h : Made w.nextEnvironment w.extended (.raised message w' : Outcome String α)) :
    w'.Destroyed w.nextEnvironment := by
  obtain ⟨text, w₀, hr, rfl⟩ := h
  have hlater := Host.lasting_later.reaches hr
  exact (w₀.addError text).destroyed_destroy (hlater.allocated w.next_allocated)

/-- What becomes of invocations of callbacks in a world, whoever makes them and however scripts are
run, and of the validity of callbacks when environments are destroyed. -/
structure CallbackLaw (w : World) : Prop where
  /-- Besides the owner of an environment, its callbacks in progress keep its callbacks valid. -/
  valid (e : EnvironmentId) : w.isAlive e = true ↔ w.Owned e ∨ 0 < (w.environment e).calls
  refused (e : EnvironmentId) : w.Destroyed e → (w.environment e).calls = 0 →
    w.Dead e ∧ w.Refuses e
  answered (e : EnvironmentId) : w.Owned e → w.Answers e
  others (e x : EnvironmentId) : x ≠ e →
    (w.destroy e).isAlive x = w.isAlive x ∧ (w.letGo e).isAlive x = w.isAlive x
  others_cleared (x : EnvironmentId) : x ∉ w.scripts →
    w.clearScripts.isAlive x = w.isAlive x ∧ w.endSession.isAlive x = w.isAlive x

theorem Orderly.callback_law {w : World} (hw : Orderly w) : CallbackLaw w where
  valid _ := hw.alive_iff
  refused _ h hcalls :=
    ⟨hw.dead h hcalls, World.refuses_of_not_alive (hw.dead h hcalls).not_alive⟩
  answered _ h := World.answers_of_alive h.alive
  others _ _ hx := ⟨w.isAlive_destroy hx, w.isAlive_letGo hx⟩
  others_cleared _ hx := ⟨w.isAlive_clearScripts hx, w.isAlive_clearScripts hx⟩

/-- Callbacks are valid just as long as their environment has an owner, or one of them is in
progress. That holds at every moment of every run; between the steps of a host none is in progress.
An environment is destroyed for all that comes after, be it in the midst of a script, and so it is
refused for all that comes after it was idle once. Letting one go, releasing those of the session,
ending the session and failing to make one all destroy. -/
theorem callbacks_follow_environments (stop : (k : Kind) → Lua.Task k → World → Bool)
    (limit fuel : Nat) :
    (∀ config library steps,
      CallbackLaw (Host.performAll (Engine.stopped stop limit fuel) [] steps
        (World.new config library)).world) ∧
    (∀ config library steps held w,
      Host.performAll (Engine.stopped stop limit fuel) [] steps (World.new config library) =
        .done held w → ∀ e, w.Idle e) ∧
    (∀ (w : World) e,
      (∀ k (t : Lua.Task k),
        (w.Destroyed e → ((Engine.stopped stop limit fuel) k t w).world.Destroyed e) ∧
          (w.Dead e → ((Engine.stopped stop limit fuel) k t w).world.Dead e)) ∧
      ∀ held steps,
        (w.Destroyed e →
          (Host.performAll (Engine.stopped stop limit fuel) held steps w).world.Destroyed e) ∧
        (w.Dead e →
          (Host.performAll (Engine.stopped stop limit fuel) held steps w).world.Dead e)) ∧
    (∀ (w : World) e, w.Allocated e → (w.destroy e).Destroyed e ∧
      (e ∈ w.lent → (w.letGo e).Destroyed e) ∧
      (e ∈ w.scripts → w.clearScripts.Destroyed e ∧ w.endSession.Destroyed e)) ∧
    ∀ site (w : World) message w',
      Environments.create (Engine.stopped stop limit fuel) site w = .raised message w' →
        w'.Destroyed w.nextEnvironment := by
  have hlawful := Engine.lawful_stopped stop limit fuel
  refine ⟨?_, ?_, ?_, ?_, ?_⟩
  · intro config library steps
    have hrun := Host.advanced_performAll hlawful steps [] (World.new config library)
    exact (hrun.orderly (Host.ready_new config library)).callback_law
  · intro config library steps held w hdone
    have hrun := Host.advanced_performAll hlawful steps [] (World.new config library)
    rw [hdone] at hrun
    exact (Host.Advances.ready hrun (Host.ready_new config library)).idle
  · -- a law of the evaluator holds in every world, so also in the midst of a run
    intro w e
    constructor
    · intro k t
      have hrun := (hlawful k t).upholds w
      exact ⟨hrun.world_later.destroyed, Host.lasting_dead.upholds hrun e⟩
    · intro held steps
      have hrun := Host.advanced_performAll hlawful steps held w
      exact ⟨(Host.lasting_later.advanced hrun).destroyed, Host.lasting_dead.advanced hrun e⟩
  · intro w e halloc
    refine ⟨w.destroyed_destroy halloc, w.destroyed_letGo halloc, fun hscript => ?_⟩
    -- the session that ends releases its scripts first
    have hcleared := w.destroyed_clearScripts halloc hscript
    exact ⟨hcleared, w.alike_endSession.onward.toLater.destroyed hcleared⟩
  · intro site w message w' hcreate
    have hmade := (Environments.made_create hlawful site w).1
    rw [hcreate] at hmade
    exact hmade.destroyed

/-- A run in which a callback lets its own environment go and then presses a button of that
environment. -/
abbrev World.lettingGo : World :=
  let source := "addGMFunction('A', function() host_let_go(0) host_run_gm(1) end) " ++
    "addGMFunction('B', function() setBanner('ran') end)"
  (Host.performAll (Engine.stopped (fun _ _ _ => false) 40 40) []
    [.create, .define ⟨0⟩ [("host_let_go", .letGo), ("host_run_gm", .runGm)],
      .ask ⟨0⟩ (.evaluate "buttons" (.ofText source)), .lend ⟨0⟩, .runButton 0]
    (World.new { Config.default with bootstrap := [] } default)).world

theorem World.lettingGo_leaves :
    lettingGo.session.map (·.banner) = some "ran" ∧ lettingGo.console.lines = [] ∧
      lettingGo.Allocated ⟨0⟩ ∧ ¬ lettingGo.Owned ⟨0⟩ ∧ (lettingGo.environment ⟨0⟩).calls = 0 ∧
      (lettingGo.session.bind (·.button? 1)).map (fun b => (b.label, b.callback.environment)) =
        some ("B", ⟨0⟩) := by
  decide +kernel

/-- The callback of the second button runs although its environment was destroyed before. -/
theorem callback_runs_after_letting_go :
    World.lettingGo.session.map (·.banner) = some "ran" ∧ World.lettingGo.console.lines = [] ∧
      ¬ World.lettingGo.Owned ⟨0⟩ := by
  obtain ⟨hbanner, hlines, _, howned, _⟩ := World.lettingGo_leaves
  exact ⟨hbanner, hlines, howned⟩

/-- Once the callback that let the environment go has ended, the second button is refused, and
callbacks of that environment are for good. -/
theorem callback_refused_after_drop :
    (∀ (run : Evaluator) site,
      Callbacks.runButton run site 1 World.lettingGo = .raised .invalidHandle
        (World.lettingGo.addError ("B: " ++ ScriptError.invalidHandle.message))) ∧
    ∀ stop limit fuel held steps, (Host.performAll (Engine.stopped stop limit fuel) held steps
      World.lettingGo).world.Dead ⟨0⟩ := by
  obtain ⟨_, _, halloc, howned, hcalls, hbutton⟩ := World.lettingGo_leaves
  obtain ⟨b, hb, hkind⟩ := Option.map_eq_some_iff.mp hbutton
  obtain ⟨hlabel, henv⟩ := Prod.mk.inj hkind
  -- the run is one of those that the law is about
  have hlaw : CallbackLaw World.lettingGo :=
    (callbacks_follow_environments (fun _ _ _ => false) 40 40).1 _ _ _
  obtain ⟨hdead, hrefuses⟩ := hlaw.refused ⟨0⟩ ⟨halloc, howned⟩ hcalls
  constructor
  · intro run site
    have hpressed := hrefuses.button run site 1 b hb henv
    rwa [hlabel] at hpressed
  · intro stop limit fuel held steps
    have hlasts := (callbacks_follow_environments stop limit fuel).2.2.1 World.lettingGo ⟨0⟩
    exact (hlasts.2 held steps).2 hdead

end ScenarioHost
