import ScenarioHost.Proofs.Conduct.Engine

/-!
Courses: relations of worlds to what agents make of them. Each is a regime in which all agents are
free and the engine answers to nothing beside it. The widest course is that of the worlds that
agents can leave behind and come by.
-/
namespace ScenarioHost

open Lua (Evaluator Kind Site Task TableId Value)

structure Course (T M : Agent → World → World → Prop) : Prop where
  progress (a : Agent) : Progress (T a) (M a)
  deed {a : Agent} {w : World} {f : World → World} {P : Affair → Prop} :
    Deed P a w f → T a w (f w)
  part {a : Agent} {w : World} {f : World → World} : Part a w f → T a w (f w)
  change {e : EnvironmentId} {w : World} {f : World → World} : Change e w f → T (.code e) w (f w)
  draw (e : EnvironmentId) (w : World) : T (.code e) w w.draw.2
  drive {e : EnvironmentId} {w w' : World} : w.Drives e → T .host w w' → T (.code e) w w'
  driving {e : EnvironmentId} {w w' : World} : w.Drives e → M .host w w' → M (.code e) w w'
  invoke {e : EnvironmentId} {w w' : World} : w.isAlive e → T (.code e) (w.enter e) w' →
    T .host w (w'.leave e)
  invoking {e : EnvironmentId} {w w' : World} : w.isAlive e → M (.code e) (w.enter e) w' →
    M .host w w'
  visit {e s : EnvironmentId} {w w' : World} : w.HandleIn e s → w.isPresent s →
    T (.code s) (w.hold s) w' → T (.code e) w (w'.unhold s)
  visiting {e s : EnvironmentId} {w w' : World} : w.HandleIn e s → w.isPresent s →
    M (.code s) (w.hold s) w' → M (.code e) w w'
  adopt {e : EnvironmentId} {w w' : World} : w.session.isSome →
    T (.code w.nextEnvironment) w.extended w' → T (.code e) w (w'.adopted e w.nextEnvironment)
  abandon {a : Agent} {w w' : World} (message : String) :
    T (.code w.nextEnvironment) w.extended w' →
    T a w ((w'.addError message).destroy w.nextEnvironment)
  creating {a : Agent} {w w' : World} : M (.code w.nextEnvironment) w.extended w' → M a w w'

namespace Course

variable {T M : Agent → World → World → Prop}

def charter (C : Course T M) : Charter where
  law a := @Law.keeping (T a) (M a) (C.progress a)
  Free _ := True
  free_host := trivial
  look {_} _ _ _ _ _ _ _ _ _ h := h
  view {_} _ _ _ _ _ _ _ _ _ _ h := h
  deed h := ⟨C.deed h, trivial⟩
  part h := ⟨C.part h, trivial⟩
  change _ h := ⟨C.change h, trivial⟩
  draw e _ w := ⟨C.draw e w, trivial⟩
  drive hw h := h.imp (fun _ => C.drive hw) (fun _ => C.driving hw) fun _ => id
  invoke hw h := Act.upholds_between h (fun _ => C.invoke hw) fun _ => C.invoking hw
  visit he hs h := Act.upholds_between h (fun _ => C.visit he hs) fun _ => C.visiting he hs
  adopt {e w x y} _ hw h := by
    change (Scripts.adopting e (Environments.making x) w).Upholds _ _ _ _
    change (x w.nextEnvironment w.extended).Upholds _ _ _ _ at h
    rw [Scripts.adopting_making_apply]
    cases hx : x w.nextEnvironment w.extended with
    | done _ w' =>
      rw [hx] at h
      exact ⟨C.adopt hw h.1, trivial⟩
    | raised failure w' =>
      rw [hx] at h
      exact C.abandon failure.2 h
    | starved =>
      rw [hx] at h
      exact C.creating h

def regime (C : Course T M) : Regime := C.charter.regime

variable (C : Course T M) {ε α : Type} {a : Agent} {Q : α → Prop}

/-- What a regime of one relation says of an action. -/
theorem keeps {x y : Act ε α} (h : C.regime.By a Q x y) : x.Keeps (T a) (M a) Q :=
  ⟨fun w => h.holds w trivial⟩

theorem by_of_keeps {x : Act ε α} (y : Act ε α) (h : x.Keeps (T a) (M a) Q) : C.regime.By a Q x y :=
  ⟨fun w _ => h.upholds w⟩

end Course

theorem Deed.reaches {P : Affair → Prop} {a : Agent} {w : World} {f : World → World}
    (h : Deed P a w f) :
    Reaches a w (f w) := by
  cases h with
  | session w op => exact .effect (.session a w op)
  | journal a w line => exact .effect (.journal a w line)
  | print a w message => exact .effect (.print a w message)
  | clearScripts w => exact .effect (.clearScripts w)
  | letGo w e => exact .effect (.letGo w e)
  | entity e w => exact .effect (.entity e w)

theorem Part.reaches {a : Agent} {w : World} {f : World → World} (h : Part a w f) :
    Reaches a w (f w) := by
  cases h with
  | complain a w message => exact .effect (.complain a w message)
  | stream e w => exact .effect (.stream e w)
  | overlay e w name => exact .effect (.overlay e w _)
  | beginReply w => exact .effect (.session .host w .beginReply)

theorem Change.reaches {e : EnvironmentId} {w : World} {f : World → World} (h : Change e w f) :
    Reaches (.code e) w (f w) := by
  cases h with
  | heap f hf => exact .effect (.heap e w f hf.toEvolves)
  | entityTable t => exact .effect (.entityTable e w t)

theorem course_reaches : Course Reaches Passes where
  progress _ := inferInstance
  deed := Deed.reaches
  part := Part.reaches
  change := Change.reaches
  draw e w := .effect (.draw e w _)
  drive := .drive
  driving := .drive
  invoke := .invoke
  invoking := .invoke
  visit := .visit
  visiting := .visit
  adopt _ := .adopt
  abandon := .abandon
  creating := .create

abbrev Regime.reaching : Regime := course_reaches.regime

def Lua.Evaluator.Lawful (run : Evaluator) : Prop :=
  ∀ k (t : Task k), (run k t).By (.code t.env) (k.Stays t.env)

namespace Lua.Evaluator.Lawful

variable {run run' : Evaluator}

theorem reaching (h : run.Lawful) : Regime.reaching.Lawful run run where
  carried := trivial
  tasks k t := course_reaches.by_of_keeps _ (h k t)
  halted _ _ hfree := absurd trivial hfree

theorem of_reaching (h : Regime.reaching.Lawful run run') : run.Lawful :=
  fun k t => course_reaches.keeps (h.tasks k t)

theorem keeps_in (h : run.Lawful) (e : EnvironmentId) :
    run.KeepsIn e (Reaches (.code e)) (Passes (.code e)) := by
  rintro k t rfl
  exact (h k t).weaken fun _ _ => trivial

end Lua.Evaluator.Lawful

namespace Engine

/-- One step of the engine stays within the environment of its task, as long as the engine for
smaller tasks does. -/
theorem lawful_step {run : Evaluator} (h : run.Lawful) (limit : Nat) :
    Evaluator.Lawful (step limit run) :=
  fun k t => course_reaches.keeps ⟨fun _ =>
    bound_step h.reaching limit k t (fun _ _ => trivial) fun _ _ _ _ => trivial⟩

theorem lawful_stopped (stop : (k : Kind) → Task k → World → Bool) (limit fuel : Nat) :
    (stopped stop limit fuel).Lawful :=
  .of_reaching (stopped_lawful_engine
    ⟨fun _ _ => trivial, fun _ _ _ h => absurd trivial h, fun _ _ _ _ _ h => absurd trivial h,
      fun _ _ _ _ _ _ _ h => absurd trivial h⟩ limit fuel)

theorem lawful_engine (limit fuel : Nat) : (engine limit fuel).Lawful :=
  engine_eq_stopped limit fuel ▸ lawful_stopped _ limit fuel

end Engine

theorem Loading.within_requireModule {run : Evaluator} (h : run.Lawful) (e : EnvironmentId)
    (site : Site) (name : String) : (requireModule run e site name).Within e := by
  have hload := law_load (e := e) h.reaching site name (l := .required) fun _ => trivial
  exact course_reaches.keeps (Regime.by_of_law hload)

namespace Environments

def Made (e : EnvironmentId) (w : World) {α : Type} : Outcome String α → Prop
  | .done _ w' => Reaches (.code e) w w'
  | .raised _ w' => ∃ message w'', Reaches (.code e) w w'' ∧ w' = (w''.addError message).destroy e
  | @Outcome.starved _ _ w' => Passes (.code e) w w'

/-- A new environment is the next one; it is there before its first bootstrap module runs. -/
theorem made_create {run : Evaluator} (h : run.Lawful) (site : Site) (w : World) :
    Made w.nextEnvironment w.extended (create run site w) ∧
      ∀ e w', create run site w = .done e w' → e = w.nextEnvironment := by
  have hbooting := (law_booting (e := w.nextEnvironment) h.reaching site).holds w.extended
  change (booting run site w.nextEnvironment w.extended).Upholds _ _ _ _ at hbooting
  rw [create_eq, making_apply]
  cases hrun : booting run site w.nextEnvironment w.extended with
  | done _ w' =>
    rw [hrun] at hbooting
    refine ⟨hbooting.1, fun e w'' hdone => ?_⟩
    exact (Outcome.done.inj hdone).1.symm
  | raised failure w' =>
    rw [hrun] at hbooting
    exact ⟨⟨failure.2, w', hbooting, rfl⟩, fun e w'' hdone => by cases hdone⟩
  | starved =>
    rw [hrun] at hbooting
    exact ⟨hbooting, fun e w'' hdone => by cases hdone⟩

end Environments

end ScenarioHost
