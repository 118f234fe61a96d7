import ScenarioHost.Proofs.Laws
import ScenarioHost.Proofs.Operations

/-!
Regimes. A regime gives every agent a law, and says of each thing that agents do to the world, or
see of it, that it is lawful. Everything that evaluators do is made of these, so what obeys every
regime is shown once, by induction on the evaluator, and each property of all runs is a regime of
its own. Operations count as things of their own, so that a law may tell what is done as a part of
them; where it need not, a charter gives the regime.
-/
namespace ScenarioHost

open Callbacks (Invocation)
open Headless (Attempt)
open Loading (Loader)
open Lua (Evaluator Site TableId)

structure Lua.Heap.Grows (h h' : Lua.Heap) : Prop extends h.Evolves h' where
  tables : h.tables.size ≤ h'.tables.size

namespace Lua

namespace Heap.Evolves

variable {h h' h'' : Heap}

theorem refl (h : Heap) : h.Evolves h := ⟨fun _ _ => Iff.rfl, fun _ _ => Iff.rfl⟩

theorem trans (first : h.Evolves h') (second : h'.Evolves h'') : h.Evolves h'' :=
  ⟨fun f c => (second.control f c).trans (first.control f c),
    fun u s => (second.handle u s).trans (first.handle u s)⟩

/-- Tables, variables and metatables are of no account. -/
theorem of_eq (hf : h'.functions = h.functions) (hu : h'.userdata = h.userdata) :
    h.Evolves h' := by
  constructor
  · intro f c
    simp only [Heap.function?, hf]
  · intro u s
    simp only [Conversion.payload?, Heap.userdata?, hu]

theorem add_function (h : Heap) (f : Function) (hf : ∀ c, f ≠ .builtin (.control c)) :
    h.Evolves (h.addFunction f) := by
  constructor
  · intro g c
    simp only [Heap.function?, Heap.addFunction, Array.getElem?_push]
    split
    · rename_i heq
      have hnone : h.functions[g.index]? = none := by simp [heq]
      simp [hnone, hf c]
    · rfl
  · exact fun _ _ => Iff.rfl

theorem add_userdata (h : Heap) (x : Userdata) (hx : ∀ s, x.payload ≠ .script s) :
    h.Evolves (h.addUserdata x) := by
  constructor
  · exact fun _ _ => Iff.rfl
  · intro u s
    simp only [Conversion.payload?, Heap.userdata?, Heap.addUserdata, Array.getElem?_push]
    split
    · rename_i heq
      have hnone : h.userdata[u.index]? = none := by simp [heq]
      simp [hnone, hx s]
    · rfl

/-- Replacing a function of a script by another one. -/
theorem replace_closure (h : Heap) (f : FunctionId) (x y : Function)
    (hx : h.function? f = some x) (hxc : ∀ c, x ≠ .builtin (.control c))
    (hyc : ∀ c, y ≠ .builtin (.control c)) :
    h.Evolves { h with functions := h.functions.setIfInBounds f.index y } := by
  constructor
  · intro g c
    simp only [Heap.function?] at hx ⊢
    rw [Array.getElem?_setIfInBounds]
    split
    · rename_i heq
      rw [← heq, hx]
      split <;> simp [hxc c, hyc c]
    · rfl
  · exact fun _ _ => Iff.rfl

end Heap.Evolves

namespace Heap.Grows

variable {h h' h'' : Heap}

theorem refl (h : Heap) : h.Grows h := ⟨.refl h, Nat.le_refl _⟩

theorem trans (first : h.Grows h') (second : h'.Grows h'') : h.Grows h'' :=
  ⟨first.toEvolves.trans second.toEvolves, first.tables.trans second.tables⟩

theorem of_eq (hf : h'.functions = h.functions) (hu : h'.userdata = h.userdata)
    (ht : h.tables.size ≤ h'.tables.size) : h.Grows h' := ⟨.of_eq hf hu, ht⟩

/-- Variables are of no account. -/
theorem of_cells (h : Heap) (cells : Array Value) : h.Grows { h with cells := cells } :=
  .of_eq rfl rfl (Nat.le_refl _)

/-- What a table holds is of no account. -/
theorem of_table (h : Heap) (t : TableId) (f : Table → Table) :
    h.Grows { h with tables := h.tables.modify t.index f } :=
  .of_eq rfl rfl (Nat.le_of_eq Array.size_modify.symm)

theorem raw_set (h : Heap) (t : TableId) (k v : Value) : h.Grows (h.rawSet t k v) := of_table h t _

theorem add_table (h : Heap) (t : Table) : h.Grows (h.addTable t) := by
  refine .of_eq rfl rfl ?_
  rw [Heap.addTable, Array.size_push]
  exact Nat.le_succ _

theorem add_function (h : Heap) (f : Function) (hf : ∀ c, f ≠ .builtin (.control c)) :
    h.Grows (h.addFunction f) := ⟨.add_function h f hf, Nat.le_refl _⟩

theorem add_userdata (h : Heap) (x : Userdata) (hx : ∀ s, x.payload ≠ .script s) :
    h.Grows (h.addUserdata x) := ⟨.add_userdata h x hx, Nat.le_refl _⟩

/-- Replacing a function of a script by another one. -/
theorem replace_closure (h : Heap) (f : FunctionId) (x y : Function) (hx : h.function? f = some x)
    (hxc : ∀ c, x ≠ .builtin (.control c)) (hyc : ∀ c, y ≠ .builtin (.control c)) :
    h.Grows { h with functions := h.functions.setIfInBounds f.index y } :=
  ⟨.replace_closure h f x y hx hxc hyc, Nat.le_refl _⟩

end Heap.Grows

end Lua

structure Interior where
  heap : Lua.Heap
  globals : TableId
  entityFunctions : Option TableId

namespace Environment

def interior (x : Environment) : Interior := ⟨x.heap, x.globals, x.entityFunctions⟩

def withInterior (x : Environment) (i : Interior) : Environment :=
  { x with heap := i.heap, globals := i.globals, entityFunctions := i.entityFunctions }

end Environment

namespace World

def interior (w : World) (e : EnvironmentId) : Interior := (w.environment e).interior

def withInterior (w : World) (e : EnvironmentId) (i : Interior) : World :=
  w.modifyEnvironment e fun x => x.withInterior i

theorem environment_withInterior (w : World) {b e : EnvironmentId} (i : Interior) (h : b ≠ e) :
    (w.withInterior b i).environment e = w.environment e := by
  have hindex : b.index ≠ e.index := fun heq => h (congrArg EnvironmentId.mk heq)
  unfold environment withInterior modifyEnvironment
  simp only [Array.getD_eq_getD_getElem?, Array.getElem?_modify, if_neg hindex]

/-- Whether an environment is there has nothing to do with what it consists of for its scripts. -/
theorem isPresent_withInterior (w : World) (b : EnvironmentId) (i : Interior) (e : EnvironmentId) :
    (w.withInterior b i).isPresent e = w.isPresent e := by
  unfold isPresent withInterior modifyEnvironment
  rw [Array.getElem?_modify]
  split <;> cases w.environments[e.index]? <;> rfl

theorem isAlive_withInterior (w : World) (b : EnvironmentId) (i : Interior) (e : EnvironmentId) :
    (w.withInterior b i).isAlive e = w.isAlive e := by
  unfold isAlive withInterior modifyEnvironment
  rw [Array.getElem?_modify]
  split <;> cases w.environments[e.index]? <;> rfl

def Discreet {α : Type} (g : World → α) : Prop := ∀ w b i, g (w.withInterior b i) = g w

def SeenFrom {α : Type} (e : EnvironmentId) (g : World → α) : Prop :=
  ∀ w b i, b ≠ e → g (w.withInterior b i) = g w

theorem seen_environment {α : Type} (e : EnvironmentId) (f : Environment → α) :
    SeenFrom e fun w => f (w.environment e) := by
  intro w b i h
  exact congrArg f (environment_withInterior w i h)

theorem seen_heap {α : Type} (e : EnvironmentId) (f : Lua.Heap → α) :
    SeenFrom e fun w => f (w.heap e) := seen_environment e fun x => f x.heap

end World

def SessionOp.Scripted : SessionOp → Prop
  | .setting .. | .advance _ | .resetComms | .beginReply => False
  | _ => True

/-- Operations on the session that an agent can carry out by itself; the host also lets time pass at
the service of scripts. -/
def SessionOp.OpenTo (op : SessionOp) : Agent → Prop
  | .host => op.Scripted ∨ ∃ delta, op = .advance delta
  | .code _ => op.Scripted

inductive Affair where
  | session (op : SessionOp)
  /-- Translations are asked for. -/
  | overlay

def SessionOp.functions : SessionOp → List Builtin
  | .playerShipHook _ => [.host .onNewPlayerShip]
  | .message .. => [.host .globalMessage]
  | .victory _ => [.host .victory]
  | .banner _ => [.host .setBanner]
  | .button .. => [.host .addGmFunction]
  | .clearButtons => [.host .clearGmFunctions]
  | .commsMessage _ => [.host .setCommsMessage]
  | .reply .. => [.host .addCommsReply]
  | .requestGm => [.host .commsSwitchToGm]
  | .beginReply => [.control .selectReply]
  | .advance _ => [.control .advanceTime]
  | _ => []

def Affair.functions : Affair → List Builtin
  | .session op => op.functions
  | .overlay => [.host .requireModule, .handle .run]

/-- A change of the world, made in some world, that looks into no environment. Of the affairs there
are only those that are permitted. -/
inductive Deed (Permits : Affair → Prop) : Agent → World → (World → World) → Prop where
  | session {a : Agent} (w : World) (op : SessionOp) (h : op.OpenTo a)
      (hop : Permits (.session op)) : Deed Permits a w fun w => w.modifySession op.apply
  | journal (a : Agent) (w : World) (line : JournalLine) : Deed Permits a w fun w => w.log line
  | print (a : Agent) (w : World) (message : String) : Deed Permits a w fun w => w.addLog message
  | clearScripts (w : World) : Deed Permits .host w World.clearScripts
  | letGo (w : World) (e : EnvironmentId) : Deed Permits .host w fun w => w.letGo e
  | entity (e : EnvironmentId) (w : World) :
      Deed Permits (.code e) w fun w' => { w' with entities := w.entities.create.2 }

inductive Part : Agent → World → (World → World) → Prop where
  | complain (a : Agent) (w : World) (message : String) : Part a w fun w => w.addError message
  | stream (e : EnvironmentId) (w : World) : Part (.code e) w World.streamed
  | overlay (e : EnvironmentId) (w : World) (name : String) :
      Part (.code e) w fun w => w.loadOverlay (Loading.overlayName w name)
  | beginReply (w : World) : Part .host w fun w => w.modifySession Session.beginReply

inductive Change (e : EnvironmentId) (w : World) : (World → World) → Prop where
  | heap (f : Lua.Heap → Lua.Heap) (h : (w.heap e).Grows (f (w.heap e))) :
      Change e w fun w => w.modifyHeap e f
  | entityTable (t : TableId) :
      Change e w fun w => w.modifyEnvironment e fun x => { x with entityFunctions := some t }

structure Rules where
  law (a : Agent) : Law
  /-- Agents whose own code is carried out. That of others is halted where it would begin. -/
  Free : Agent → Prop
  free_host : Free .host
  /-- Affairs that are left to the functions for them. Other ones are halted where such a function
  would be called. -/
  Permits : Affair → Prop := fun _ => True
  /-- What follows a look at the world may depend on what is seen. -/
  look {a : Agent} {ε α β : Type} {w : World} {Q : α → Prop} {g : World → β} {f f' : β → Act ε α}
    (hg : World.Discreet g) (h : (law a).Holds w Q (f (g w)) (f' (g w))) :
    (law a).Holds w Q (Act.read g >>= f) (Act.read g >>= f')
  view {e : EnvironmentId} {ε α β : Type} {w : World} {Q : α → Prop} {g : World → β}
    {f f' : β → Act ε α} (he : Free (.code e)) (hg : World.SeenFrom e g)
    (h : (law (.code e)).Holds w Q (f (g w)) (f' (g w))) :
    (law (.code e)).Holds w Q (Act.read g >>= f) (Act.read g >>= f')
  deed {a : Agent} {ε : Type} {w : World} {f : World → World} (h : Deed Permits a w f) :
    (law a).Holds w (fun _ => True) (Act.update f : Act ε Unit) (Act.update f)
  change {e : EnvironmentId} {ε : Type} {w : World} {f : World → World} (he : Free (.code e))
    (h : Change e w f) :
    (law (.code e)).Holds w (fun _ => True) (Act.update f : Act ε Unit) (Act.update f)
  draw (e : EnvironmentId) {ε : Type} (w : World) :
    (law (.code e)).Holds w (fun _ => True) (Act.draw : Act ε Nat) Act.draw
  /-- Code that has the functions for it makes the host act. -/
  drive {e : EnvironmentId} {ε α : Type} {w : World} {Q : α → Prop} {x y : Act ε α}
    (hw : w.Drives e) (h : (law .host).Holds w Q x y) : (law (.code e)).Holds w Q x y
  /-- A callback of an environment is invoked. -/
  invoke {e : EnvironmentId} {ε α : Type} {w : World} {Q : α → Prop} {x y : Act ε α}
    (hw : w.isAlive e) (h : (law (.code e)).Holds (w.enter e) Q x y) :
    (law .host).Holds w Q (Act.between (·.enter e) (·.leave e) x)
      (Act.between (·.enter e) (·.leave e) y)
  /-- A sub-script is reached by a handle. -/
  visit {e s : EnvironmentId} {ε α : Type} {w : World} {Q : α → Prop} {x y : Act ε α}
    (he : w.HandleIn e s) (hs : w.isPresent s) (h : (law (.code s)).Holds (w.hold s) Q x y) :
    (law (.code e)).Holds w Q (Act.between (·.hold s) (·.unhold s) x)
      (Act.between (·.hold s) (·.unhold s) y)

/-- Rules for operations as well. An operation is lawful under the evaluators that are carried,
where what is run inside it is lawful. -/
structure Regime extends Rules where
  Carries : Evaluator → Prop
  load {run run' : Evaluator} {e : EnvironmentId} {site : Site} {path : String}
    (hrun : Carries run) (h : ∀ source, (law (.code e)).Admits (fun _ => True)
      (Loading.runSource run e site path source) (Loading.runSource run' e site path source))
    {l : Loader} (hl : l ≠ .plain → Permits .overlay) :
    (law (.code e)).Admits (fun _ => True) (l.perform run e site path) (l.perform run' e site path)
  invocation {run run' : Evaluator} {site : Site} (hrun : Carries run)
    (h : ∀ c args, (law .host).Admits (fun _ => True) (Callbacks.invoke run site c args)
      (Callbacks.invoke run' site c args)) {v : Invocation}
    (hv : v.IsReply → Permits (.session .beginReply)) :
    (law .host).Admits (fun _ => True) (v.perform run site) (v.perform run' site)
  /-- A failure is written to the console. -/
  attempt {run run' : Evaluator} {e : EnvironmentId} {site : Site} {ε : Type} {t : Attempt}
    (hrun : Carries run) (h : (law (.code e)).Admits (fun _ => True) (t.perform run e site)
      (t.perform run' e site)) :
    (law (.code e)).Admits (fun _ => True) (Headless.checked (t.perform run e site) : Act ε Bool)
      (Headless.checked (t.perform run' e site))
  /-- A sub-script is made. -/
  adopt {run run' : Evaluator} {e : EnvironmentId} {site : Site} {w : World}
    (hrun : Carries run) (he : Free (.code e)) (hw : w.session.isSome)
    (h : (law (.code w.nextEnvironment)).Holds w.extended (fun _ => True)
      (Environments.booting run site w.nextEnvironment)
      (Environments.booting run' site w.nextEnvironment)) :
    (law (.code e)).Holds w (fun _ => True) (Scripts.adopting e (Environments.create run site))
      (Scripts.adopting e (Environments.create run' site))

structure Charter extends Rules where
  part {a : Agent} {ε : Type} {w : World} {f : World → World} (h : Part a w f) :
    (law a).Holds w (fun _ => True) (Act.update f : Act ε Unit) (Act.update f)
  /-- A sub-script is made. -/
  adopt {e : EnvironmentId} {w : World} {x y : EnvironmentId → Act (String × String) Unit}
    (he : Free (.code e)) (hw : w.session.isSome)
    (h : (law (.code w.nextEnvironment)).Holds w.extended (fun _ => True) (x w.nextEnvironment)
      (y w.nextEnvironment)) :
    (law (.code e)).Holds w (fun _ => True) (Scripts.adopting e (Environments.making x))
      (Scripts.adopting e (Environments.making y))

namespace Charter

variable (C : Charter) {run run' : Evaluator} {e : EnvironmentId} {site : Site}

theorem law_part {a : Agent} {ε : Type} {f : World → World} (h : ∀ w, Part a w f) :
    (C.law a).Admits (fun _ => True) (Act.update f : Act ε Unit) (Act.update f) :=
  ⟨fun w => C.part (h w)⟩

theorem law_load {path : String}
    (h : ∀ source, (C.law (.code e)).Admits (fun _ => True)
      (Loading.runSource run e site path source) (Loading.runSource run' e site path source))
    (l : Loader) : (C.law (.code e)).Admits (fun _ => True) (l.perform run e site path)
      (l.perform run' e site path) := by
  have hasks {ε : Type} : (C.law (.code e)).Admits (fun _ => True)
      (Loading.loadOverlay path : Act ε Unit) (Loading.loadOverlay path) :=
    C.law_part fun w => .overlay e w path
  have hreads {ε : Type} : (C.law (.code e)).Admits (fun _ => True)
      (Act.update World.streamed : Act ε Unit) (Act.update World.streamed) :=
    C.law_part fun w => .stream e w
  have hplain : (C.law (.code e)).Admits (fun _ => True) (Loading.runFile run e site path)
      (Loading.runFile run' e site path) := by
    constructor
    intro w
    rw [Loading.run_file_eq, Loading.run_file_eq]
    refine C.look (fun _ _ _ => rfl) ?_
    cases w.library.source? (ModuleName.normalize path) with
    | none => exact (C.law _).raise _
    | some source => exact Law.bind_admits (hreads.holds w) fun _ _ => (h source).map_error
  cases l with
  | plain => exact hplain
  | localized => exact hasks.bind fun _ _ => hplain.discard
  | required =>
    constructor
    intro w
    change (C.law _).Holds w _ (Loading.requireModule run e site path)
      (Loading.requireModule run' e site path)
    rw [Loading.require_module_eq, Loading.require_module_eq]
    refine C.look (fun _ _ _ => rfl) ?_
    cases w.library.source? (ModuleName.normalize path) with
    | none => exact (C.law _).raise _
    | some source =>
      exact Law.bind_admits (hasks.holds w) fun _ _ => hreads.bind fun _ _ => (h source).map_error

theorem law_report {label : String} {c : Callback} {args : List Lua.Value}
    (h : (C.law .host).Admits (fun _ => True) (Callbacks.invoke run site c args)
      (Callbacks.invoke run' site c args)) :
    (C.law .host).Admits (fun _ => True) (Callbacks.report run site label c args)
      (Callbacks.report run' site label c args) := by
  unfold Callbacks.report
  refine h.settle.bind fun r _ => ?_
  split
  · exact .pure trivial
  · exact (C.law_part fun w => .complain _ w _).bind fun _ _ => .raise _

theorem law_invocation
    (h : ∀ c args, (C.law .host).Admits (fun _ => True) (Callbacks.invoke run site c args)
      (Callbacks.invoke run' site c args)) (v : Invocation) :
    (C.law .host).Admits (fun _ => True) (v.perform run site) (v.perform run' site) := by
  constructor
  intro w
  cases v with
  | button i =>
    refine C.look (fun _ _ _ => rfl) ?_
    split
    · exact (C.law _).pure trivial
    · exact (C.law_report (h _ _)).holds w
  | playerShip ship =>
    refine C.look (fun _ _ _ => rfl) ?_
    split
    · exact (C.law _).pure trivial
    · exact (C.law_report (h _ _)).holds w
  | reply i source target =>
    refine C.look (fun _ _ _ => rfl) ?_
    split
    · exact (C.law _).pure trivial
    · refine Law.bind_admits (C.part (.beginReply w)) fun _ _ => ?_
      exact C.law_report (h _ _)

theorem law_checked {ε α : Type} {x y : Act String α}
    (h : (C.law (.code e)).Admits (fun _ => True) x y) :
    (C.law (.code e)).Admits (fun _ => True) (Headless.checked x : Act ε Bool)
      (Headless.checked y) := by
  unfold Headless.checked
  refine h.settle.bind fun r _ => ?_
  split
  · exact .pure trivial
  · exact (C.law_part fun w => .complain _ w _).bind fun _ _ => .pure trivial

def regime : Regime where
  toRules := C.toRules
  Carries _ := True
  load _ h l _ := C.law_load h l
  invocation _ h v _ := C.law_invocation h v
  attempt _ := C.law_checked
  adopt _ he hw h := by
    rw [Environments.create_eq, Environments.create_eq]
    exact C.adopt he hw h

end Charter

namespace Regime

variable (R : Regime)

def bound (a : Agent) : Law := (R.law a).given (R.Free a)

abbrev By {ε α : Type} (a : Agent) (Q : α → Prop) (x y : Act ε α) : Prop := (R.bound a).Admits Q x y

abbrev Beside {ε α : Type} (e : EnvironmentId) (x y : Act ε α) : Prop :=
  R.By (.code e) (fun _ => True) x y

abbrev Within {ε α : Type} (e : EnvironmentId) (x : Act ε α) : Prop := R.Beside e x x

variable {R} {ε α β : Type} {a : Agent} {e : EnvironmentId} {Q : α → Prop}

theorem by_of_law {x y : Act ε α} (h : (R.law a).Admits Q x y) : R.By a Q x y :=
  Law.admits_given_iff.mpr fun _ => h

theorem By.law {x y : Act ε α} (h : R.By a Q x y) (ha : R.Free a) : (R.law a).Admits Q x y :=
  Law.admits_given_iff.mp h ha

section Looks

variable {g : World → β} (hg : World.Discreet g)

include hg

theorem law_look : (R.law a).Admits (fun _ => True) (Act.read g : Act ε β) (Act.read g) := by
  have h (w : World) : (R.law a).Holds w (fun _ => True) (Act.read g >>= fun v => (pure v : Act ε β))
      (Act.read g >>= fun v => pure v) := R.look hg ((R.law a).pure trivial)
  -- the rule is stated for what is done with the value, which may be nothing
  simp only [bind_pure] at h
  exact ⟨h⟩

theorem by_look : R.By a (fun _ => True) (Act.read g : Act ε β) (Act.read g) :=
  by_of_law (law_look hg)

/-- Looking at the world, in which something is known of what is seen. -/
theorem look_bound {w : World} {f f' : β → Act ε α}
    (h : (R.bound a).Holds w Q (f (g w)) (f' (g w))) :
    (R.bound a).Holds w Q (Act.read g >>= f) (Act.read g >>= f') :=
  fun ha => R.look hg (h ha)

end Looks

theorem view_bound {g : World → β} (hg : World.SeenFrom e g) {w : World} {f f' : β → Act ε α}
    (h : (R.bound (.code e)).Holds w Q (f (g w)) (f' (g w))) :
    (R.bound (.code e)).Holds w Q (Act.read g >>= f) (Act.read g >>= f') :=
  fun he => R.view he hg (h he)

theorem within_view {g : World → β} (hg : World.SeenFrom e g) :
    R.Within e (Act.read g : Act ε β) := by
  have h (w : World) : (R.bound (.code e)).Holds w (fun _ => True)
      (Act.read g >>= fun v => (pure v : Act ε β)) (Act.read g >>= fun v => pure v) :=
    view_bound hg ((R.bound _).pure trivial)
  simp only [bind_pure] at h
  exact ⟨h⟩

theorem law_deed {f : World → World} (h : ∀ w, Deed R.Permits a w f) :
    (R.law a).Admits (fun _ => True) (Act.update f : Act ε Unit) (Act.update f) :=
  ⟨fun w => R.deed (h w)⟩

theorem by_deed {f : World → World} (h : ∀ w, Deed R.Permits a w f) :
    R.By a (fun _ => True) (Act.update f : Act ε Unit) (Act.update f) := by_of_law (law_deed h)

theorem change_bound {w : World} {f : World → World} (h : Change e w f) :
    (R.bound (.code e)).Holds w (fun _ => True) (Act.update f : Act ε Unit) (Act.update f) :=
  fun he => R.change he h

theorem within_change {f : World → World} (h : ∀ w, Change e w f) :
    R.Within e (Act.update f : Act ε Unit) := ⟨fun w => change_bound (h w)⟩

end Regime

section Code

variable {R : Regime} {ε α : Type} {a : Agent} {e : EnvironmentId} {Q : α → Prop}

/-- What is known of a heap may be used where it was looked at. -/
theorem Regime.look_heap {β : Type} {w : World} {g : Lua.Heap → β} {f f' : β → Act ε α}
    (h : (R.bound (.code e)).Holds w Q (f (g (w.heap e))) (f' (g (w.heap e)))) :
    (R.bound (.code e)).Holds w Q (Act.readHeap e g >>= f) (Act.readHeap e g >>= f') :=
  Regime.view_bound (World.seen_heap e g) h

namespace Lua

theorem within_raise (s : Spot) (message : ByteString) :
    R.Within e (s.raise message : Act Value α) := by
  unfold Spot.raise
  split <;> exact .raise _

theorem within_attempt {ε' : Type} {x y : Act ε α} (h : R.Beside e x y) :
    R.Beside e (x.attempt : Act ε' (Except ε α)) y.attempt := h.settle

theorem within_read_heap (f : Heap → α) : R.Within e (Act.readHeap e f : Act ε α) :=
  Regime.within_view (World.seen_heap e f)

theorem within_update_heap (f : Heap → Heap) (hf : ∀ h : Heap, h.Grows (f h)) :
    R.Within e (Act.updateHeap e f : Act ε Unit) :=
  Regime.within_change fun w => .heap f (hf (w.heap e))

def Flow.In (e : EnvironmentId) : Flow → Prop
  | .next frame => frame.env = e
  | .jumped _ frame => frame.env = e
  | _ => True

def Kind.Stays (e : EnvironmentId) : (k : Kind) → k.Result → Prop
  | .flow, result => Flow.In e result
  | _, _ => True

end Lua

end Code

structure Regime.Lawful (R : Regime) (run run' : Evaluator) : Prop where
  carried : R.Carries run
  tasks (k : Lua.Kind) (t : Lua.Task k) :
    R.By (.code t.env) (k.Stays t.env) (run k t) (run' k t)
  halted (k : Lua.Kind) (t : Lua.Task k) : ¬ R.Free (.code t.env) → run k t = Act.starve

namespace Regime.Lawful

open Lua

variable {R : Regime} {run run' : Evaluator} (h : R.Lawful run run')

include h

theorem call (env : EnvironmentId) (site : Site) (f : Value) (args : List Value) :
    R.Beside env (run .values (.call env site f args)) (run' .values (.call env site f args)) :=
  h.tasks .values (.call env site f args)

theorem expr (fr : Frame) (e : Expr) :
    R.Beside fr.env (run .values (.expr fr e)) (run' .values (.expr fr e)) :=
  h.tasks .values (.expr fr e)

theorem stat (fr : Frame) (s : Stat) :
    R.By (.code fr.env) (Flow.In fr.env) (run .flow (.stat fr s)) (run' .flow (.stat fr s)) :=
  h.tasks .flow (.stat fr s)

theorem block (fr : Frame) (body : List Stat) :
    R.By (.code fr.env) (Flow.In fr.env) (run .flow (.block fr body))
      (run' .flow (.block fr body)) := h.tasks .flow (.block fr body)

theorem load (env : EnvironmentId) (name source : ByteString) :
    R.Beside env (run .loaded (.load env name source)) (run' .loaded (.load env name source)) :=
  h.tasks .loaded (.load env name source)

end Regime.Lawful

end ScenarioHost
