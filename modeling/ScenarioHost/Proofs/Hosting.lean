import ScenarioHost.Proofs.Runs

/-!
Whole runs of a host under a regime. What a regime says of single actions extends to runs when it
covers the steps that only a host takes: having code run, making environments and holding them, and
changing what is its own.
-/
namespace ScenarioHost

open Host (HostStep)
open Lua (Evaluator)

/-- A law of hosts, which covers what a regime says of agents and what only a host does. `D` is
known of the environments that the host holds, `O` of the steps that it takes. -/
structure Regime.Hosting (R : Regime) (L : Law) (D : World → EnvironmentId → Prop)
    (O : HostStep → Prop) : Prop where
  permits (affair : Affair) : R.Permits affair
  serve {ε α : Type} {w : World} {Q : α → Prop} {x y : Act ε α}
    (h : (R.law .host).Holds w Q x y) : L.Holds w Q x y
  /-- The host has code of an environment run. -/
  command {e : EnvironmentId} {ε α : Type} {w : World} {Q : α → Prop} {x y : Act ε α}
    (he : R.Free (.code e)) (hd : D w e) (h : (R.law (.code e)).Holds w Q x y) : L.Holds w Q x y
  /-- The host changes the session by itself. -/
  session {ε : Type} (w : World) {op : SessionOp} (hop : O (.session op)) :
    L.Holds w (fun _ => True) (Act.update fun w => w.modifySession op.apply : Act ε Unit)
      (Act.update fun w => w.modifySession op.apply)
  /-- The host lets time pass while it has code run. -/
  advance (e : EnvironmentId) {ε : Type} (w : World) (delta : Single) :
    (R.law (.code e)).Holds w (fun _ => True)
      (Act.update fun w => w.modifySession fun s => s.advance delta : Act ε Unit)
      (Act.update fun w => w.modifySession fun s => s.advance delta)
  make {run run' : Evaluator} {w : World} (hrun : R.Carries run)
    (h : (R.law (.code w.nextEnvironment)).Holds w.extended (fun _ => True)
      (Environments.booting run .outside w.nextEnvironment)
      (Environments.booting run' .outside w.nextEnvironment)) :
    L.Holds w (fun _ => True) (Environments.create run .outside)
      (Environments.create run' .outside)
  destroy {e : EnvironmentId} {ε : Type} {w : World} (hd : D w e) :
    L.Holds w (fun _ => True) (Act.update (·.destroy e) : Act ε Unit) (Act.update (·.destroy e))
  controls {e : EnvironmentId} (functions : List (String × ControlFunction)) {ε : Type}
    (he : R.Free (.code e)) (w : World) :
    L.Holds w (fun _ => True) (Act.update fun w => Host.controlled w e functions : Act ε Unit)
      (Act.update fun w => Host.controlled w e functions)
  lend {e : EnvironmentId} {ε : Type} {w : World} (hd : D w e) :
    L.Holds w (fun _ => True) (Act.update fun w => Host.lending w e : Act ε Unit)
      (Act.update fun w => Host.lending w e)
  give {e : EnvironmentId} {ε : Type} {w : World} (he : O (.give e)) (hd : D w e) :
    L.Holds w (fun _ => True) (Act.update fun w => Host.giving w e : Act ε Unit)
      (Act.update fun w => Host.giving w e)
  endSession {ε : Type} (h : O .endSession) (w : World) :
    L.Holds w (fun _ => True) (Act.update World.endSession : Act ε Unit)
      (Act.update World.endSession)
  equip {b : Host.Belongings} {ε : Type} (hb : O (.equip b)) (w : World) :
    L.Holds w (fun _ => True) (Act.update fun w => Host.equipped w b : Act ε Unit)
      (Act.update fun w => Host.equipped w b)

namespace Host

variable {R : Regime} {L : Law} {D : World → EnvironmentId → Prop} {O : HostStep → Prop}

def HostStep.Free (R : Regime) : HostStep → Prop
  | .ask e _ => R.Free (.code e)
  | .define e _ => R.Free (.code e)
  | _ => True

variable {run run' : Evaluator} (hosting : R.Hosting L D O) (h : R.Lawful run run')

include hosting h

theorem law_create : L.Admits (fun _ => True) (Environments.create run .outside)
    (Environments.create run' .outside) := by
  constructor
  intro w
  exact hosting.make h.carried ((Environments.law_booting h .outside).holds w.extended)

theorem holds_perform (held : List EnvironmentId) (s : HostStep) (hs : s.Free R) (hown : O s)
    {w : World} (hheld : ∀ e ∈ held, D w e) :
    L.Holds w (fun _ => True) (s.perform run held) (s.perform run' held) := by
  have hhost {x y : Act Empty Unit} (hx : R.By .host (fun _ => True) x y) :
      L.Admits (fun _ => True) x y :=
    ⟨fun w => hosting.serve ((hx.law R.free_host).holds w)⟩
  have hdeed {f : World → World} (hf : ∀ w, Deed R.Permits .host w f) :
      L.Admits (fun _ => True) (Act.update f : Act Empty Unit) (Act.update f) :=
    ⟨fun w => hosting.serve (R.deed (hf w))⟩
  have hinvocation (v : Callbacks.Invocation) :
      R.By .host (fun _ => True) (v.perform run .outside) (v.perform run' .outside) :=
    Callbacks.by_invocation h .outside fun _ => hosting.permits _
  -- what is done first decides; what the host holds then is its own affair
  have hfirst {x y : Act Empty Unit} {f : Unit → Act Empty (List EnvironmentId)}
      (hx : L.Admits (fun _ => True) x y) (hf : ∀ u, L.Admits (fun _ => True) (f u) (f u)) :
      L.Holds w (fun _ => True) (x >>= f) (y >>= f) := (hx.bind fun u _ => hf u).holds w
  cases s with
  | create =>
    rw [HostStep.perform, HostStep.perform]
    refine Law.bind_admits ((law_create hosting h).settle.holds w) fun r _ => ?_
    split <;> exact .pure trivial
  | ask e r =>
    have hadvance (delta : Single) : R.Within e
        (Act.update fun w => w.modifySession fun s => s.advance delta : Act Empty Unit) :=
      Regime.by_of_law ⟨fun w => hosting.advance e w delta⟩
    rw [HostStep.perform, HostStep.perform]
    split
    · rename_i he
      have hrequest := (within_request h r (hosting.permits .overlay) hadvance).law hs
      exact Law.bind_admits (hosting.command hs (hheld e he) (hrequest.holds w)) fun _ _ =>
        .pure trivial
    · exact L.pure trivial
  | drop e =>
    rw [HostStep.perform, HostStep.perform]
    split
    · rename_i he
      exact Law.bind_admits (hosting.destroy (hheld e he)) fun _ _ => .pure trivial
    · exact L.pure trivial
  | define e functions =>
    rw [HostStep.perform, HostStep.perform]
    split
    · exact hfirst ⟨hosting.controls functions hs⟩ fun _ => .pure trivial
    · exact L.pure trivial
  | lend e =>
    rw [HostStep.perform, HostStep.perform]
    split
    · rename_i he
      exact Law.bind_admits (hosting.lend (hheld e he)) fun _ _ => .pure trivial
    · exact L.pure trivial
  | give e =>
    rw [HostStep.perform, HostStep.perform]
    split
    · rename_i he
      exact Law.bind_admits (hosting.give hown (hheld e he)) fun _ _ => .pure trivial
    · exact L.pure trivial
  | invoke c args =>
    exact hfirst (hhost (by_settled (Callbacks.by_invoke h ..))) fun _ => .pure trivial
  | runButton i =>
    exact hfirst (hhost (by_settled (hinvocation (.button i)))) fun _ => .pure trivial
  | firePlayerShip ship =>
    exact hfirst (hhost (by_settled (hinvocation (.playerShip ship)))) fun _ => .pure trivial
  | selectReply i source target =>
    exact hfirst (hhost (by_settled (hinvocation (.reply i source target)))) fun _ => .pure trivial
  | session op => exact hfirst ⟨fun w => hosting.session w hown⟩ fun _ => .pure trivial
  | victory faction =>
    rw [HostStep.perform, HostStep.perform, Interface.update_declareVictory, bind_assoc]
    refine hfirst (hdeed fun w => .journal _ w _) fun _ => ?_
    have hvictory (w : World) :
        Deed R.Permits .host w fun w => w.modifySession (SessionOp.victory faction).apply :=
      .session w (.victory faction) (.inl trivial) (hosting.permits _)
    exact (hdeed hvictory).bind fun _ _ => .pure trivial
  | clearScripts => exact hfirst (hdeed fun w => .clearScripts w) fun _ => .pure trivial
  | endSession => exact hfirst ⟨hosting.endSession hown⟩ fun _ => .pure trivial
  | equip b => exact hfirst ⟨hosting.equip hown⟩ fun _ => .pure trivial

/-- Step by step, a run of a host is lawful where nothing has to be known of what it holds. -/
theorem law_performAll (hany : ∀ w e, D w e) (held : List EnvironmentId) (steps : List HostStep)
    (hsteps : ∀ s ∈ steps, s.Free R) (hown : ∀ s ∈ steps, O s) :
    L.Admits (fun _ => True) (performAll run held steps) (performAll run' held steps) := by
  induction steps generalizing held with
  | nil => exact .pure trivial
  | cons s rest ih =>
    have hfirst : L.Admits (fun _ => True) (s.perform run held) (s.perform run' held) :=
      ⟨fun w => holds_perform hosting h held s (hsteps s List.mem_cons_self)
        (hown s List.mem_cons_self) fun e _ => hany w e⟩
    exact hfirst.bind fun held' _ => ih held' (fun s hs => hsteps s (List.mem_cons_of_mem _ hs))
      fun s hs => hown s (List.mem_cons_of_mem _ hs)

end Host

/-! Courses of whole runs. -/

section Courses

variable {T M : Agent → World → World → Prop} {T' M' : World → World → Prop}
  {D : World → EnvironmentId → Prop} {O : HostStep → Prop}

structure Course.Hosts (T M : Agent → World → World → Prop) (T' M' : World → World → Prop)
    (D : World → EnvironmentId → Prop) (O : HostStep → Prop) : Prop where
  progress : Progress T' M'
  serve {w w' : World} : T .host w w' → T' w w'
  serving {w w' : World} : M .host w w' → M' w w'
  command {e : EnvironmentId} {w w' : World} : D w e → T (.code e) w w' → T' w w'
  commanding {e : EnvironmentId} {w w' : World} : D w e → M (.code e) w w' → M' w w'
  session (w : World) (op : SessionOp) : T' w (w.modifySession op.apply)
  advance (e : EnvironmentId) (w : World) (delta : Single) :
    T (.code e) w (w.modifySession fun s => s.advance delta)
  make {w w' : World} : T (.code w.nextEnvironment) w.extended w' → T' w w'
  destroy {e : EnvironmentId} {w : World} : D w e → T' w (w.destroy e)
  controlled (e : EnvironmentId) (functions : List (String × ControlFunction)) (w : World) :
    T' w (Host.controlled w e functions)
  lending {e : EnvironmentId} {w : World} : D w e → T' w (Host.lending w e)
  adding {e : EnvironmentId} {w : World} : O (.give e) → D w e → T' w (Host.adding w e)
  endSession (w : World) : T' w w.endSession
  equipped (w : World) (b : Host.Belongings) : T' w (Host.equipped w b)

theorem Course.Hosts.hosting (C : Course T M) (H : Course.Hosts T M T' M' D O) :
    C.regime.Hosting (@Law.keeping T' M' H.progress) D O where
  permits _ := trivial
  serve h := h.imp (fun _ => H.serve) (fun _ => H.serving) fun _ => id
  command _ hd h := h.imp (fun _ => H.command hd) (fun _ => H.commanding hd) fun _ => id
  session w op _ := ⟨H.session w op, trivial⟩
  advance e _ w delta := ⟨H.advance e w delta, trivial⟩
  make {run _ w} _ h := by
    change (Environments.create run .outside w).Upholds _ _ _ _
    change (Environments.booting run .outside w.nextEnvironment w.extended).Upholds _ _ _ _ at h
    rw [Environments.create_eq, Environments.making_apply]
    cases hx : Environments.booting run .outside w.nextEnvironment w.extended with
    | done _ w' =>
      rw [hx] at h
      exact ⟨H.make h.1, trivial⟩
    | raised failure w' =>
      rw [hx] at h
      exact H.serve (C.abandon (a := .host) failure.2 h)
    | starved =>
      rw [hx] at h
      exact H.serving (C.creating (a := .host) h)
  destroy hd := ⟨H.destroy hd, trivial⟩
  controls {e} functions {_} _ w := ⟨H.controlled e functions w, trivial⟩
  lend hd := ⟨H.lending hd, trivial⟩
  give he hd := ⟨Host.kept_by_giving (H.adding he hd) (H.destroy hd), trivial⟩
  endSession _ w := ⟨H.endSession w, trivial⟩
  equip {b _} _ w := ⟨H.equipped w b, trivial⟩

theorem Course.lawful (C : Course T M) (stop : (k : Lua.Kind) → Lua.Task k → World → Bool)
    (limit fuel : Nat) :
    C.regime.Lawful (Engine.stopped stop limit fuel) (Engine.engine limit fuel) :=
  Engine.stopped_lawful_engine
    ⟨fun _ _ => trivial, fun _ _ _ hfree => absurd trivial hfree,
      fun _ _ _ _ _ hfree => absurd trivial hfree,
      fun _ _ _ _ _ _ _ hpermits => absurd trivial hpermits⟩ limit fuel

theorem Course.lawful_engine (C : Course T M) (limit fuel : Nat) :
    C.regime.Lawful (Engine.engine limit fuel) (Engine.engine limit fuel) := by
  have hstopped := C.lawful (fun _ _ _ => false) limit fuel
  rwa [← Engine.engine_eq_stopped] at hstopped

theorem Course.free_step (C : Course T M) (s : HostStep) : s.Free C.regime := by
  cases s <;> exact trivial

/-- What holds of a single step of a host. -/
theorem Course.Hosts.perform (C : Course T M) (H : Course.Hosts T M T' M' D O)
    (stop : (k : Lua.Kind) → Lua.Task k → World → Bool) (limit fuel : Nat)
    (held : List EnvironmentId) (s : HostStep) (hown : O s) {w : World}
    (hheld : ∀ e ∈ held, D w e) :
    (s.perform (Engine.stopped stop limit fuel) held w).Upholds T' M' (fun _ => True) w :=
  Host.holds_perform (H.hosting C) (C.lawful stop limit fuel) held s (C.free_step s) hown hheld

end Courses

/-! Relations of a world to all that agents and a host make of it. -/

structure Enduring (T : World → World → Prop) : Prop where
  refl (w : World) : T w w
  trans {w w' w'' : World} : T w w' → T w' w'' → T w w''
  deed {a : Agent} {w : World} {f : World → World} {P : Affair → Prop} :
    Deed P a w f → T w (f w)
  part {a : Agent} {w : World} {f : World → World} : Part a w f → T w (f w)
  change {e : EnvironmentId} {w : World} {f : World → World} : Change e w f → T w (f w)
  draw (w : World) : T w w.draw.2
  session (w : World) (op : SessionOp) : T w (w.modifySession op.apply)
  enter (e : EnvironmentId) (w : World) : T w (w.enter e)
  leave (e : EnvironmentId) (w : World) : T w (w.leave e)
  hold (e : EnvironmentId) (w : World) : T w (w.hold e)
  unhold (e : EnvironmentId) (w : World) : T w (w.unhold e)
  extended (w : World) : T w w.extended
  adopted (e script : EnvironmentId) (w : World) : T w (w.adopted e script)
  destroy (e : EnvironmentId) (w : World) : T w (w.destroy e)
  controlled (e : EnvironmentId) (functions : List (String × ControlFunction)) (w : World) :
    T w (Host.controlled w e functions)
  lending (e : EnvironmentId) (w : World) : T w (Host.lending w e)
  adding (e : EnvironmentId) (w : World) : T w (Host.adding w e)
  endSession (w : World) : T w w.endSession
  equipped (w : World) (b : Host.Belongings) : T w (Host.equipped w b)

namespace Enduring

variable {T : World → World → Prop} (h : Enduring T)

include h

theorem course : Course (fun _ => T) fun _ => T where
  progress _ := ⟨h.refl, h.trans, h.refl, h.trans⟩
  deed := h.deed
  part := h.part
  change := h.change
  draw _ := h.draw
  drive _ := id
  driving _ := id
  invoke {e w w'} _ hw := h.trans (h.trans (h.enter e w) hw) (h.leave e w')
  invoking {e w _} _ hw := h.trans (h.enter e w) hw
  visit {_ s w w'} _ _ hw := h.trans (h.trans (h.hold s w) hw) (h.unhold s w')
  visiting {_ s w _} _ _ hw := h.trans (h.hold s w) hw
  adopt {e w w'} _ hw := h.trans (h.trans (h.extended w) hw) (h.adopted e w.nextEnvironment w')
  abandon {a w w'} message hw :=
    h.trans (h.trans (h.trans (h.extended w) hw) (h.part (.complain a w' message))) (h.destroy ..)
  creating hw := h.trans (h.extended _) hw

theorem hosts : Course.Hosts (fun _ => T) (fun _ => T) T T (fun _ _ => True) fun _ => True where
  progress := ⟨h.refl, h.trans, h.refl, h.trans⟩
  serve := id
  serving := id
  command _ := id
  commanding _ := id
  session := h.session
  advance _ w delta := h.session w (.advance delta)
  make hw := h.trans (h.extended _) hw
  destroy _ := h.destroy ..
  controlled := h.controlled
  lending _ := h.lending ..
  adding _ _ := h.adding ..
  endSession := h.endSession
  equipped := h.equipped

/-- From the world in which a run of a host began, to that of any moment. -/
theorem performAll (stop : (k : Lua.Kind) → Lua.Task k → World → Bool) (limit fuel : Nat)
    (held : List EnvironmentId) (steps : List HostStep) (w : World) :
    T w (Host.performAll (Engine.stopped stop limit fuel) held steps w).world := by
  have hruns : (Host.performAll (Engine.stopped stop limit fuel) held steps w).Upholds T T
      (fun _ => True) w :=
    (Host.law_performAll (h.hosts.hosting h.course) (h.course.lawful stop limit fuel)
      (fun _ _ => trivial) held steps (fun s _ => h.course.free_step s) fun _ _ => trivial).holds w
  cases hrun : Host.performAll (Engine.stopped stop limit fuel) held steps w with
  | done held' w' =>
    rw [hrun] at hruns
    exact hruns.1
  | raised impossible => exact impossible.elim
  | starved =>
    rw [hrun] at hruns
    exact hruns

end Enduring

end ScenarioHost
