import ScenarioHost.Host.Interface
import ScenarioHost.Proofs.Loaders

/-!
What scripts can do to the world. `Reaches a w w'` says that an agent, code of an environment or
the host at the service of such code, can take the world from `w` to `w'`; `Passes a w w'` that
`w'` is the world at some moment on the way. Engines stay within these relations, so that what all
runs have in common is proved by induction on them.
-/
namespace ScenarioHost

inductive SessionOp where
  | setting (key value : String)
  | victory (faction : String)
  | banner (text : String)
  | message (text : String) (timeout : Single)
  | advance (delta : Single)
  | button (label : String) (callback : Callback)
  | clearButtons
  | playerShipHook (callback : Callback)
  | commsMessage (text : String)
  | reply (label : String) (callback : Callback)
  | requestGm
  | resetComms
  | beginReply

def SessionOp.apply : SessionOp → Session → Session
  | .setting key value => fun s => s.setSetting key value
  | .victory faction => fun s => s.declareVictory faction
  | .banner text => fun s => s.setBanner text
  | .message text timeout => fun s => s.showMessage text timeout
  | .advance delta => fun s => s.advance delta
  | .button label callback => fun s => s.addButton label callback
  | .clearButtons => Session.clearButtons
  | .playerShipHook callback => fun s => s.setPlayerShipHook callback
  | .commsMessage text => fun s => s.setCommsMessage text
  | .reply label callback => fun s => s.addReply label callback
  | .requestGm => Session.requestGm
  | .resetComms => Session.resetComms
  | .beginReply => Session.beginReply

/-- How a heap changes under the code of its environment, which gets hold of no new functions that
drive the session and makes no handles of its own. -/
structure Lua.Heap.Evolves (h h' : Lua.Heap) : Prop where
  control (f : Lua.FunctionId) (c : ControlFunction) :
    h'.function? f = some (.builtin (.control c)) ↔ h.function? f = some (.builtin (.control c))
  handle (u : Lua.UserdataId) (s : EnvironmentId) :
    Conversion.payload? h' (.userdata u) = some (.script s) ↔
      Conversion.payload? h (.userdata u) = some (.script s)

namespace World

def Drives (w : World) (e : EnvironmentId) : Prop :=
  ∃ f c, (w.heap e).function? f = some (.builtin (.control c))

def HandleIn (w : World) (e s : EnvironmentId) : Prop :=
  ∃ u, Conversion.payload? (w.heap e) (.userdata u) = some (.script s)

def nextEnvironment (w : World) : EnvironmentId := ⟨w.environments.size⟩

def extended (w : World) : World :=
  { w with environments := w.environments.push Environments.initial }

def adopted (w : World) (e script : EnvironmentId) : World :=
  (w.modifySession fun s => s.addScript script).modifyHeap e fun h =>
    h.addUserdata ⟨.script script, h.scriptMeta⟩

end World

inductive Agent where
  | host
  | code (e : EnvironmentId)

inductive Effect : Agent → World → World → Prop where
  | session (a : Agent) (w : World) (op : SessionOp) : Effect a w (w.modifySession op.apply)
  | journal (a : Agent) (w : World) (line : JournalLine) : Effect a w (w.log line)
  | print (a : Agent) (w : World) (message : String) : Effect a w (w.addLog message)
  | complain (a : Agent) (w : World) (message : String) : Effect a w (w.addError message)
  | clearScripts (w : World) : Effect .host w w.clearScripts
  | letGo (w : World) (e : EnvironmentId) : Effect .host w (w.letGo e)
  | heap (e : EnvironmentId) (w : World) (f : Lua.Heap → Lua.Heap)
      (h : (w.heap e).Evolves (f (w.heap e))) : Effect (.code e) w (w.modifyHeap e f)
  | entityTable (e : EnvironmentId) (w : World) (t : Lua.TableId) :
      Effect (.code e) w (w.modifyEnvironment e fun x => { x with entityFunctions := some t })
  | draw (e : EnvironmentId) (w : World) (seed : UInt64) :
      Effect (.code e) w { w with seed := seed }
  | entity (e : EnvironmentId) (w : World) :
      Effect (.code e) w { w with entities := w.entities.create.2 }
  | stream (e : EnvironmentId) (w : World) : Effect (.code e) w w.streamed
  | overlay (e : EnvironmentId) (w : World) (name : String) :
      Effect (.code e) w (w.loadOverlay name)

inductive Reaches : Agent → World → World → Prop where
  | refl (a : Agent) (w : World) : Reaches a w w
  | trans {a : Agent} {w w' w'' : World} : Reaches a w w' → Reaches a w' w'' → Reaches a w w''
  | effect {a : Agent} {w w' : World} : Effect a w w' → Reaches a w w'
  /-- Code that has the functions for it makes the host act. -/
  | drive {e : EnvironmentId} {w w' : World} : w.Drives e → Reaches .host w w' →
      Reaches (.code e) w w'
  /-- A callback of an environment is invoked. -/
  | invoke {e : EnvironmentId} {w w' : World} : w.isAlive e → Reaches (.code e) (w.enter e) w' →
      Reaches .host w (w'.leave e)
  /-- A sub-script is reached by a handle. -/
  | visit {e s : EnvironmentId} {w w' : World} : w.HandleIn e s → w.isPresent s →
      Reaches (.code s) (w.hold s) w' → Reaches (.code e) w (w'.unhold s)
  /-- A sub-script is made. -/
  | adopt {e : EnvironmentId} {w w' : World} :
      Reaches (.code w.nextEnvironment) w.extended w' →
      Reaches (.code e) w ((w'.modifySession fun s => s.addScript w.nextEnvironment).modifyHeap e
        fun h => h.addUserdata ⟨.script w.nextEnvironment, h.scriptMeta⟩)
  /-- The making of an environment fails. -/
  | abandon {a : Agent} {w w' : World} (message : String) :
      Reaches (.code w.nextEnvironment) w.extended w' →
      Reaches a w ((w'.addError message).destroy w.nextEnvironment)

inductive Passes : Agent → World → World → Prop where
  | here (a : Agent) (w : World) : Passes a w w
  | later {a : Agent} {w w' w'' : World} : Reaches a w w' → Passes a w' w'' → Passes a w w''
  | drive {e : EnvironmentId} {w w' : World} : w.Drives e → Passes .host w w' →
      Passes (.code e) w w'
  | invoke {e : EnvironmentId} {w w' : World} : w.isAlive e → Passes (.code e) (w.enter e) w' →
      Passes .host w w'
  | visit {e s : EnvironmentId} {w w' : World} : w.HandleIn e s → w.isPresent s →
      Passes (.code s) (w.hold s) w' → Passes (.code e) w w'
  | create {a : Agent} {w w' : World} : Passes (.code w.nextEnvironment) w.extended w' →
      Passes a w w'

instance (a : Agent) : Progress (Reaches a) (Passes a) where
  refl := .refl a
  trans := .trans
  here := .here a
  later := .later

/-- The release of the session's scripts keeps what letting one environment go keeps. -/
theorem World.kept_by_clearScripts {T : World → World → Prop} (refl : ∀ w, T w w)
    (trans : ∀ {w w' w''}, T w w' → T w' w'' → T w w'') (destroy : ∀ e w, T w (w.destroy e))
    (dropScripts : ∀ (w : World) s, T w { w with session := some (Session.dropScripts s) })
    (w : World) : T w w.clearScripts := by
  have hdestroys (ids : List EnvironmentId) (w : World) : T w (ids.foldl World.destroy w) := by
    induction ids generalizing w with
    | nil => exact refl w
    | cons e ids ih => exact trans (destroy e w) (ih (w.destroy e))
  unfold clearScripts
  split
  · exact refl w
  · exact trans (dropScripts w _) (hdestroys ..)

/-- The release of the session's scripts changes nothing else than the session and environments. -/
theorem World.same_clearScripts {α : Type} (g : World → α) (destroy : ∀ e w, g (w.destroy e) = g w)
    (dropScripts : ∀ (w : World) s, g { w with session := some (Session.dropScripts s) } = g w)
    (w : World) : g w.clearScripts = g w :=
  kept_by_clearScripts (T := fun w w' => g w' = g w) (fun _ => rfl)
    (fun first second => second.trans first) destroy dropScripts w

/-- Letting a lent environment go keeps what letting one go keeps. -/
theorem World.kept_by_letGo {T : World → World → Prop} (refl : ∀ w, T w w)
    (destroy : ∀ e w, T w (w.destroy e)) (w : World) (e : EnvironmentId) : T w (w.letGo e) := by
  unfold letGo
  split
  · exact destroy e w
  · exact refl w

structure Lasting (T : World → World → Prop) : Prop where
  refl (w : World) : T w w
  trans {w w' w'' : World} : T w w' → T w' w'' → T w w''
  effect {a : Agent} {w w' : World} : Effect a w w' → T w w'
  enter {e : EnvironmentId} {w : World} : w.isAlive e → T w (w.enter e)
  leave (e : EnvironmentId) (w : World) : T w (w.leave e)
  hold {e : EnvironmentId} {w : World} : w.isPresent e → T w (w.hold e)
  unhold (e : EnvironmentId) (w : World) : T w (w.unhold e)
  extended (w : World) : T w w.extended
  adopted (e script : EnvironmentId) (w : World) : T w (w.adopted e script)
  destroy (e : EnvironmentId) (w : World) : T w (w.destroy e)

namespace Lasting

variable {T : World → World → Prop} (h : Lasting T) {a : Agent} {w w' : World}

include h

theorem reaches (hr : Reaches a w w') : T w w' := by
  induction hr with
  | refl a w => exact h.refl w
  | trans _ _ first second => exact h.trans first second
  | effect he => exact h.effect he
  | drive _ _ ih => exact ih
  | @invoke e w w' halive _ ih => exact h.trans (h.trans (h.enter halive) ih) (h.leave e w')
  | @visit e s w w' _ hpresent _ ih =>
    exact h.trans (h.trans (h.hold hpresent) ih) (h.unhold s w')
  | @adopt e w w' _ ih =>
    exact h.trans (h.trans (h.extended w) ih) (h.adopted e w.nextEnvironment w')
  | @abandon a w w' message _ ih =>
    have hcomplained := h.effect (.complain a w' message)
    exact h.trans (h.trans (h.trans (h.extended w) ih) hcomplained) (h.destroy ..)

theorem passes (hp : Passes a w w') : T w w' := by
  induction hp with
  | here a w => exact h.refl w
  | later hr _ ih => exact h.trans (h.reaches hr) ih
  | drive _ _ ih => exact ih
  | invoke halive _ ih => exact h.trans (h.enter halive) ih
  | visit _ hpresent _ ih => exact h.trans (h.hold hpresent) ih
  | @create a w w' _ ih => exact h.trans (h.extended w) ih

/-- However an action ends or gives up that an agent carries out. -/
theorem upholds {ε α : Type} {Q : α → Prop} {o : Outcome ε α}
    (ho : o.Upholds (Reaches a) (Passes a) Q w) : T w o.world := by
  cases o with
  | done x w' => exact h.reaches ho.1
  | raised e w' => exact h.reaches ho
  | starved => exact h.passes ho

end Lasting

abbrev Act.By {ε α : Type} (a : Agent) (Q : α → Prop) (x : Act ε α) : Prop :=
  x.Keeps (Reaches a) (Passes a) Q

abbrev Act.Within {ε α : Type} (e : EnvironmentId) (x : Act ε α) : Prop :=
  x.By (.code e) fun _ => True

end ScenarioHost
