import ScenarioHost.Proofs.Runs

/-!
Lifetimes of environments. An environment is destroyed when its owner lets it go; what keeps its
callbacks from being invalid at once are invocations of them and methods of handles at work. Scripts
that could destroy an environment in the midst of these are those that have functions of the host's
own, and none of them runs in an environment that a handle leads to. So it is only environments of
such scripts that can be gone with invocations of their callbacks still in progress.
-/
namespace ScenarioHost

open Lua (Evaluator FunctionId Heap Site Value)

namespace World

variable (w : World) (e x : EnvironmentId)

def Allocated : Prop := e.index < w.environments.size

instance : Decidable (w.Allocated e) := inferInstanceAs (Decidable (_ < _))

def Owned : Prop := (w.environment e).owned = true

instance : Decidable (w.Owned e) := inferInstanceAs (Decidable (_ = true))

def Destroyed : Prop := w.Allocated e ∧ ¬ w.Owned e

def Idle : Prop := (w.environment e).holds = 0 ∧ (w.environment e).calls = 0

def scripts : List EnvironmentId := (w.session.map Session.scripts).getD []

def Led : Prop := ∃ x, w.HandleIn x e

def Referred : Prop := e ∈ w.scripts ∨ w.Led e

theorem environment_modifyEnvironment (f : Environment → Environment) :
    (w.modifyEnvironment e f).environment x =
      if x = e ∧ w.Allocated e then f (w.environment e) else w.environment x := by
  unfold environment modifyEnvironment Allocated
  simp only [Array.getD_eq_getD_getElem?, Array.getElem?_modify]
  by_cases hx : x = e
  · subst hx
    by_cases hsize : x.index < w.environments.size
    · simp [hsize]
    · simp [hsize]
  · have hindex : e.index ≠ x.index := fun h => hx (congrArg EnvironmentId.mk h.symm)
    simp [hx, hindex]

/-- A part of environments that a change of one of them leaves alone. -/
theorem part_modifyEnvironment {α : Type} (part : Environment → α) (f : Environment → Environment)
    (hf : ∀ y, part (f y) = part y) :
    part ((w.modifyEnvironment e f).environment x) = part (w.environment x) := by
  rw [environment_modifyEnvironment]
  split
  · rename_i h
    rw [hf, h.1]
  · rfl

theorem size_modifyEnvironment (f : Environment → Environment) :
    (w.modifyEnvironment e f).environments.size = w.environments.size := Array.size_modify

theorem environment_of_not_allocated (h : ¬ w.Allocated e) : w.environment e = default := by
  unfold environment
  rw [Array.getD_eq_getD_getElem?, Array.getElem?_eq_none (Nat.le_of_not_lt h)]
  rfl

theorem not_owned_default : (default : Environment).owned = false := rfl

theorem isPresent_eq : w.isPresent e = (w.environment e).present := by
  unfold isPresent environment
  rw [Array.getD_eq_getD_getElem?]
  cases w.environments[e.index]? <;> rfl

theorem isAlive_eq : w.isAlive e = (w.environment e).valid := by
  unfold isAlive environment
  rw [Array.getD_eq_getD_getElem?]
  cases w.environments[e.index]? <;> rfl

theorem allocated_of_present {w : World} {e : EnvironmentId} (h : w.isPresent e) :
    w.Allocated e := by
  by_contra hnone
  rw [isPresent_eq, environment_of_not_allocated w e hnone] at h
  cases h

theorem allocated_of_alive {w : World} {e : EnvironmentId} (h : w.isAlive e) : w.Allocated e := by
  by_contra hnone
  rw [isAlive_eq, environment_of_not_allocated w e hnone] at h
  cases h

theorem environment_extended :
    w.extended.environment x =
      if x = w.nextEnvironment then Environments.initial else w.environment x := by
  unfold extended environment nextEnvironment
  simp only [Array.getD_eq_getD_getElem?, Array.getElem?_push]
  by_cases hx : x.index = w.environments.size
  · have heq : x = ⟨w.environments.size⟩ := congrArg EnvironmentId.mk hx
    simp [heq]
  · have hne : x ≠ ⟨w.environments.size⟩ := fun h => hx (congrArg EnvironmentId.index h)
    simp [hx, hne]

end World

/-- What all worlds of a run have in common: no handle leads to environments whose scripts can let
others go, and nothing is at work in other ones that were let go. -/
structure Orderly (w : World) : Prop where
  referred (e : EnvironmentId) : w.Referred e → w.Allocated e
  led (e : EnvironmentId) : w.Led e → ¬ w.Drives e
  unheld (e : EnvironmentId) : w.Drives e → (w.environment e).holds = 0
  idle (e : EnvironmentId) : ¬ w.Drives e → ¬ w.Owned e → w.Idle e

structure Later (w w' : World) : Prop where
  size : w.environments.size ≤ w'.environments.size
  gone (e : EnvironmentId) : w.Allocated e → ¬ w.Owned e → ¬ w'.Owned e

/-- What nobody changes for good, besides: which environments drive the session, how many
invocations and methods are at work in each, and that some are led to from nowhere. -/
structure Onward (w w' : World) : Prop extends Later w w' where
  drives (e : EnvironmentId) : w'.Drives e ↔ w.Drives e
  holds (e : EnvironmentId) : (w'.environment e).holds = (w.environment e).holds
  calls (e : EnvironmentId) : (w'.environment e).calls = (w.environment e).calls
  referred (e : EnvironmentId) : w.Allocated e → w'.Referred e → w.Referred e
  led (e : EnvironmentId) : w.Allocated e → w'.Led e → w.Led e

def Quiet : Agent → World → Prop
  | .host, w => ∀ e, ¬ w.Drives e → w.Idle e
  | .code e, w => w.Drives e → ∀ x, ¬ w.Drives x → w.Idle x

namespace Later

variable {w w' w'' : World}

theorem refl (w : World) : Later w w := ⟨Nat.le_refl _, fun _ _ h => h⟩

theorem allocated (h : Later w w') {e : EnvironmentId} (he : w.Allocated e) : w'.Allocated e :=
  Nat.lt_of_lt_of_le he h.size

theorem trans (h : Later w w') (h' : Later w' w'') : Later w w'' where
  size := Nat.le_trans h.size h'.size
  gone e he ho := h'.gone e (h.allocated he) (h.gone e he ho)

theorem destroyed (h : Later w w') {e : EnvironmentId} (he : w.Destroyed e) : w'.Destroyed e :=
  ⟨h.allocated he.1, h.gone e he.1 he.2⟩

end Later

namespace Onward

variable {w w' w'' : World}

theorem refl (w : World) : Onward w w where
  toLater := .refl w
  drives _ := Iff.rfl
  holds _ := rfl
  calls _ := rfl
  referred _ _ h := h
  led _ _ h := h

theorem trans (h : Onward w w') (h' : Onward w' w'') : Onward w w'' where
  toLater := h.toLater.trans h'.toLater
  drives e := (h'.drives e).trans (h.drives e)
  holds e := (h'.holds e).trans (h.holds e)
  calls e := (h'.calls e).trans (h.calls e)
  referred e he hr := h.referred e he (h'.referred e (h.allocated he) hr)
  led e he hl := h.led e he (h'.led e (h.allocated he) hl)

theorem idle (h : Onward w w') {e : EnvironmentId} (he : w.Idle e) : w'.Idle e :=
  ⟨(h.holds e).trans he.1, (h.calls e).trans he.2⟩

theorem quiet (h : Onward w w') {a : Agent} (ha : Quiet a w) : Quiet a w' := by
  cases a with
  | host => exact fun e he => h.idle (ha e fun hd => he ((h.drives e).mpr hd))
  | code e =>
    intro hdrives x hx
    exact h.idle (ha ((h.drives e).mp hdrives) x fun hd => hx ((h.drives x).mpr hd))

end Onward

/-- The new world is in order if what is led to anew and what was let go just now is. -/
theorem Orderly.onward {w w' : World} (h : Orderly w) (ho : Onward w w')
    (hnew : ∀ e, ¬ w.Allocated e → w'.Referred e → w'.Allocated e ∧ ¬ w'.Drives e)
    (hidle : ∀ e, ¬ w.Drives e → w.Owned e → ¬ w'.Owned e → w.Idle e) : Orderly w' where
  referred e hr := by
    by_cases he : w.Allocated e
    · exact ho.allocated he
    · exact (hnew e he hr).1
  led e hl := by
    by_cases he : w.Allocated e
    · exact fun hd => h.led e (ho.led e he hl) ((ho.drives e).mp hd)
    · exact (hnew e he (.inr hl)).2
  unheld e hd := (ho.holds e).trans (h.unheld e ((ho.drives e).mp hd))
  idle e hnot hgone := by
    have hdrives : ¬ w.Drives e := fun hd => hnot ((ho.drives e).mpr hd)
    by_cases howned : w.Owned e
    · exact ho.idle (hidle e hdrives howned hgone)
    · exact ho.idle (h.idle e hdrives howned)

structure Alike (w w' : World) : Prop where
  size : w'.environments.size = w.environments.size
  drives (e : EnvironmentId) : w'.Drives e ↔ w.Drives e
  owned (e : EnvironmentId) : w'.Owned e ↔ w.Owned e
  holds (e : EnvironmentId) : (w'.environment e).holds = (w.environment e).holds
  calls (e : EnvironmentId) : (w'.environment e).calls = (w.environment e).calls
  scripts (e : EnvironmentId) : e ∈ w'.scripts → e ∈ w.scripts
  led (e : EnvironmentId) : w'.Led e → w.Led e

namespace Alike

variable {w w' : World}

theorem referred (h : Alike w w') (e : EnvironmentId) (hr : w'.Referred e) : w.Referred e :=
  hr.imp (h.scripts e) (h.led e)

theorem onward (h : Alike w w') : Onward w w' where
  size := Nat.le_of_eq h.size.symm
  drives := h.drives
  holds := h.holds
  calls := h.calls
  gone e _ ho := fun ho' => ho ((h.owned e).mp ho')
  referred e _ := h.referred e
  led e _ := h.led e

theorem orderly (h : Alike w w') (hw : Orderly w) : Orderly w' :=
  hw.onward h.onward (fun e he hr => absurd (hw.referred e (h.referred e hr)) he)
    fun e _ ho hgone => absurd ((h.owned e).mpr ho) hgone

theorem of_same (henv : w'.environments = w.environments)
    (hscripts : ∀ e ∈ w'.scripts, e ∈ w.scripts) : Alike w w' := by
  have henvironment (e : EnvironmentId) : w'.environment e = w.environment e := by
    simp only [World.environment, henv]
  have hheap (e : EnvironmentId) : w'.heap e = w.heap e := by simp only [World.heap, henvironment]
  refine ⟨congrArg Array.size henv, fun e => ?_, fun e => ?_, fun e => ?_, fun e => ?_, hscripts,
    fun e => ?_⟩
  · simp only [World.Drives, hheap]
  · simp only [World.Owned, henvironment]
  · rw [henvironment]
  · rw [henvironment]
  · rintro ⟨x, u, hu⟩
    exact ⟨x, u, by rwa [hheap] at hu⟩

/-- A change of the heap of one environment, which gets hold of no handles or functions that would
matter. -/
theorem of_heap (w : World) (e : EnvironmentId) (f : Environment → Environment)
    (howned : ∀ y, (f y).owned = y.owned) (hholds : ∀ y, (f y).holds = y.holds)
    (hcalls : ∀ y, (f y).calls = y.calls)
    (hheap : (w.heap e).Evolves (f (w.environment e)).heap) :
    Alike w (w.modifyEnvironment e f) := by
  have hevolves (x : EnvironmentId) : (w.heap x).Evolves ((w.modifyEnvironment e f).heap x) := by
    unfold World.heap
    rw [World.environment_modifyEnvironment]
    split
    · rename_i h
      rw [h.1]
      exact hheap
    · exact .refl _
  refine ⟨w.size_modifyEnvironment e f, fun x => ?_, fun x => ?_, fun x => ?_, fun x => ?_,
    fun _ hx => hx, fun x => ?_⟩
  · constructor
    · rintro ⟨g, c, hg⟩
      exact ⟨g, c, ((hevolves x).control g c).mp hg⟩
    · rintro ⟨g, c, hg⟩
      exact ⟨g, c, ((hevolves x).control g c).mpr hg⟩
  · rw [World.Owned, w.part_modifyEnvironment e x (·.owned) f howned, World.Owned]
  · exact w.part_modifyEnvironment e x (·.holds) f hholds
  · exact w.part_modifyEnvironment e x (·.calls) f hcalls
  · rintro ⟨y, u, hu⟩
    exact ⟨y, u, ((hevolves y).handle u x).mp hu⟩

end Alike

/-! Letting environments go. -/

namespace World

variable (w : World) (e x : EnvironmentId)

theorem heap_destroy : (w.destroy e).heap x = w.heap x :=
  w.part_modifyEnvironment e x (·.heap) _ fun _ => rfl

theorem owned_destroy : (w.destroy e).Owned x ↔ w.Owned x ∧ x ≠ e := by
  unfold Owned destroy
  rw [environment_modifyEnvironment]
  by_cases hx : x = e
  · subst hx
    by_cases halloc : w.Allocated x
    · simp [halloc]
    · simp [halloc, environment_of_not_allocated, not_owned_default]
  · simp [hx]

theorem led_destroy (h : (w.destroy e).Led x) : w.Led x := by
  obtain ⟨y, u, hu⟩ := h
  exact ⟨y, u, by rwa [heap_destroy] at hu⟩

theorem referred_destroy (h : (w.destroy e).Referred x) : w.Referred x :=
  h.imp_right (w.led_destroy e x)

theorem onward_destroy : Onward w (w.destroy e) where
  size := Nat.le_of_eq (w.size_modifyEnvironment e _).symm
  drives x := by simp only [Drives, heap_destroy]
  holds x := w.part_modifyEnvironment e x (·.holds) _ fun _ => rfl
  calls x := w.part_modifyEnvironment e x (·.calls) _ fun _ => rfl
  gone x _ ho := fun ho' => ho ((w.owned_destroy e x).mp ho').1
  referred x _ := w.referred_destroy e x
  led x _ := w.led_destroy e x

/-- An environment is let go in good order if it is idle, or its scripts could do that themselves. -/
theorem orderly_destroy (hw : Orderly w) (hidle : ¬ w.Drives e → w.Idle e) :
    Orderly (w.destroy e) := by
  refine hw.onward (w.onward_destroy e) (fun x hx hr => ?_) fun x hnot howned hgone => ?_
  · exact absurd (hw.referred x (w.referred_destroy e x hr)) hx
  · have hx : x = e := by
      by_contra hne
      exact hgone ((w.owned_destroy e x).mpr ⟨howned, hne⟩)
    exact hx ▸ hidle (hx ▸ hnot)

theorem owned_destroys (ids : List EnvironmentId) :
    (ids.foldl destroy w).Owned x ↔ w.Owned x ∧ x ∉ ids := by
  induction ids generalizing w with
  | nil => simp
  | cons e ids ih =>
    rw [List.foldl_cons, ih, owned_destroy, List.mem_cons]
    tauto

theorem owned_clearScripts : w.clearScripts.Owned x ↔ w.Owned x ∧ x ∉ w.scripts := by
  unfold clearScripts scripts
  cases hs : w.session with
  | none => simp
  | some s => exact owned_destroys { w with session := some s.dropScripts } x s.scripts

theorem session_clearScripts : w.clearScripts.session = w.session.map Session.dropScripts := by
  have hdestroys (ids : List EnvironmentId) (w : World) :
      (ids.foldl destroy w).session = w.session := by
    induction ids generalizing w with
    | nil => rfl
    | cons e ids ih => exact ih (w.destroy e)
  unfold clearScripts
  cases hs : w.session with
  | none => exact hs
  | some s => exact hdestroys ..

theorem alike_dropScripts (s : Session) : Alike w { w with session := some s.dropScripts } :=
  .of_same rfl fun _ he => absurd he List.not_mem_nil

theorem referred_clearScripts (h : w.clearScripts.Referred x) : w.Referred x :=
  kept_by_clearScripts (T := fun w w' => w'.Referred x → w.Referred x) (fun _ => id)
    (fun first second h => first (second h)) (fun e w => w.referred_destroy e x)
    (fun w s => (w.alike_dropScripts s).referred x) w h

theorem onward_clearScripts : Onward w w.clearScripts :=
  kept_by_clearScripts .refl .trans (fun e w => w.onward_destroy e)
    (fun w s => (w.alike_dropScripts s).onward) w

/-- Environments that the session owns are let go in good order while only scripts are at work that
could do that themselves. -/
theorem orderly_clearScripts (hw : Orderly w) (hquiet : Quiet .host w) :
    Orderly w.clearScripts := by
  refine hw.onward w.onward_clearScripts (fun e he hr => ?_) fun e hnot _ _ => hquiet e hnot
  exact absurd (hw.referred e (w.referred_clearScripts e hr)) he

theorem alike_endSession : Alike w.clearScripts w.endSession :=
  .of_same rfl fun _ he => absurd he List.not_mem_nil

end World

/-! Entering and leaving environments. -/

structure Recounts (f : Environment → Environment) : Prop where
  heap (y : Environment) : (f y).heap = y.heap
  owned (y : Environment) : (f y).owned = y.owned

namespace Recounts

variable {f g : Environment → Environment} (hf : Recounts f) (w : World) (e x : EnvironmentId)

include hf

theorem heap_modify : (w.modifyEnvironment e f).heap x = w.heap x :=
  w.part_modifyEnvironment e x (·.heap) f hf.heap

theorem drives : (w.modifyEnvironment e f).Drives x ↔ w.Drives x := by
  simp only [World.Drives, hf.heap_modify]

theorem owned_modify : (w.modifyEnvironment e f).Owned x ↔ w.Owned x := by
  rw [World.Owned, w.part_modifyEnvironment e x (·.owned) f hf.owned, World.Owned]

theorem led (h : (w.modifyEnvironment e f).Led x) : w.Led x := by
  obtain ⟨y, u, hu⟩ := h
  exact ⟨y, u, by rwa [hf.heap_modify] at hu⟩

theorem referred (h : (w.modifyEnvironment e f).Referred x) : w.Referred x :=
  h.imp_right (hf.led w e x)

omit hf in
theorem environment_of_ne {x e : EnvironmentId} (hx : x ≠ e) :
    (w.modifyEnvironment e f).environment x = w.environment x := by
  rw [World.environment_modifyEnvironment, if_neg fun h => hx h.1]

omit hf in
theorem environment_self (he : w.Allocated e) :
    (w.modifyEnvironment e f).environment e = f (w.environment e) := by
  rw [World.environment_modifyEnvironment, if_pos ⟨rfl, he⟩]

theorem later : Later w (w.modifyEnvironment e f) where
  size := Nat.le_of_eq (w.size_modifyEnvironment e f).symm
  gone x _ ho := fun ho' => ho ((hf.owned_modify w e x).mp ho')

/-- Work begins in an environment that its owner holds, or one whose scripts could let it go. -/
theorem orderly_begin (hw : Orderly w) (howned : ¬ w.Drives e → w.Owned e)
    (hheld : w.Drives e → (f (w.environment e)).holds = 0) :
    Orderly (w.modifyEnvironment e f) where
  referred x hr := by
    rw [World.Allocated, w.size_modifyEnvironment]
    exact hw.referred x (hf.referred w e x hr)
  led x hl hd := hw.led x (hf.led w e x hl) ((hf.drives w e x).mp hd)
  unheld x hd := by
    have hdrives := (hf.drives w e x).mp hd
    rw [World.environment_modifyEnvironment]
    split
    · rename_i h
      exact hheld (h.1 ▸ hdrives)
    · exact hw.unheld x hdrives
  idle x hnot hgone := by
    have hdrives : ¬ w.Drives x := fun hd => hnot ((hf.drives w e x).mpr hd)
    have hne : x ≠ e := by
      rintro rfl
      exact hgone ((hf.owned_modify w x x).mpr (howned hdrives))
    rw [World.Idle, environment_of_ne w hne]
    exact hw.idle x hdrives fun ho => hgone ((hf.owned_modify w e x).mpr ho)

/-- Work ends in an environment; one where there was none has none. -/
theorem orderly_end (hw : Orderly w) (hholds : ∀ y, y.holds = 0 → (f y).holds = 0)
    (hcalls : ∀ y, y.calls = 0 → (f y).calls = 0) : Orderly (w.modifyEnvironment e f) where
  referred x hr := by
    rw [World.Allocated, w.size_modifyEnvironment]
    exact hw.referred x (hf.referred w e x hr)
  led x hl hd := hw.led x (hf.led w e x hl) ((hf.drives w e x).mp hd)
  unheld x hd := by
    have hx := hw.unheld x ((hf.drives w e x).mp hd)
    rw [World.environment_modifyEnvironment]
    split
    · rename_i h
      exact hholds _ (h.1 ▸ hx)
    · exact hx
  idle x hnot hgone := by
    have hx := hw.idle x (fun hd => hnot ((hf.drives w e x).mpr hd))
      fun ho => hgone ((hf.owned_modify w e x).mpr ho)
    unfold World.Idle
    rw [World.environment_modifyEnvironment]
    split
    · rename_i h
      rw [World.Idle, h.1] at hx
      exact ⟨hholds _ hx.1, hcalls _ hx.2⟩
    · exact hx

/-- What comes between the beginning and the end of some work goes on from before to after it. -/
theorem onward_between (hg : Recounts g) {w w' : World} (he : w.Allocated e)
    (hholds : ∀ y z : Environment, z.holds = (f y).holds → (g z).holds = y.holds)
    (hcalls : ∀ y z : Environment, z.calls = (f y).calls → (g z).calls = y.calls)
    (h : Onward (w.modifyEnvironment e f) w') : Onward w (w'.modifyEnvironment e g) := by
  have hsize := h.size
  rw [w.size_modifyEnvironment] at hsize
  have he' : w'.Allocated e := Nat.lt_of_lt_of_le he hsize
  have hwithin {x : EnvironmentId} (hx : w.Allocated x) : (w.modifyEnvironment e f).Allocated x := by
    rwa [World.Allocated, w.size_modifyEnvironment]
  refine ⟨⟨?_, fun x hx ho => ?_⟩, fun x => ?_, fun x => ?_, fun x => ?_, fun x hx hr => ?_,
    fun x hx hl => ?_⟩
  · rwa [w'.size_modifyEnvironment]
  · have hgone := h.gone x (hwithin hx) fun ho' => ho ((hf.owned_modify w e x).mp ho')
    exact fun ho' => hgone ((hg.owned_modify w' e x).mp ho')
  · exact (hg.drives w' e x).trans ((h.drives x).trans (hf.drives w e x))
  -- the counts are back where they were, in the environment as in all others
  · by_cases hx : x = e
    · subst hx
      have hx := h.holds x
      rw [environment_self w x he] at hx
      rw [environment_self w' x he']
      exact hholds _ _ hx
    · rw [environment_of_ne w' hx, h.holds x, environment_of_ne w hx]
  · by_cases hx : x = e
    · subst hx
      have hx := h.calls x
      rw [environment_self w x he] at hx
      rw [environment_self w' x he']
      exact hcalls _ _ hx
    · rw [environment_of_ne w' hx, h.calls x, environment_of_ne w hx]
  · exact hf.referred w e x (h.referred x (hwithin hx) (hg.referred w' e x hr))
  · exact hf.led w e x (h.led x (hwithin hx) (hg.led w' e x hl))

end Recounts

theorem recounts_enter : Recounts fun y => { y with calls := y.calls + 1 } :=
  ⟨fun _ => rfl, fun _ => rfl⟩

theorem recounts_leave : Recounts fun y => { y with calls := y.calls - 1 } :=
  ⟨fun _ => rfl, fun _ => rfl⟩

theorem recounts_hold : Recounts fun y => { y with holds := y.holds + 1 } :=
  ⟨fun _ => rfl, fun _ => rfl⟩

theorem recounts_unhold : Recounts fun y => { y with holds := y.holds - 1 } :=
  ⟨fun _ => rfl, fun _ => rfl⟩

namespace Orderly

variable {w w' : World} (hw : Orderly w) {e : EnvironmentId}

include hw

/-- In an orderly world only the owner of an environment keeps it. -/
theorem owned_of_present (h : w.isPresent e) : w.Owned e := by
  by_contra hgone
  have hholds : (w.environment e).holds = 0 := by
    by_cases hdrives : w.Drives e
    · exact hw.unheld e hdrives
    · exact (hw.idle e hdrives hgone).1
  rw [w.isPresent_eq] at h
  simp [Environment.present, hholds, World.Owned] at h hgone
  simp [h] at hgone

/-- Besides its owner, invocations in progress keep callbacks of an environment valid. -/
theorem alive_iff : w.isAlive e ↔ w.Owned e ∨ 0 < (w.environment e).calls := by
  have hpresent : w.isPresent e ↔ w.Owned e := by
    refine ⟨hw.owned_of_present, fun h => ?_⟩
    have howned : (w.environment e).owned = true := h
    rw [w.isPresent_eq, Environment.present, howned]
    rfl
  rw [w.isAlive_eq, Environment.valid, Bool.or_eq_true, decide_eq_true_iff, ← w.isPresent_eq,
    hpresent]

theorem owned_of_alive (hdrives : ¬ w.Drives e) (h : w.isAlive e) : w.Owned e := by
  by_contra hgone
  rcases hw.alive_iff.mp h with howned | hcalls
  · exact hgone howned
  · exact Nat.ne_of_gt hcalls (hw.idle e hdrives hgone).2

end Orderly

theorem World.Owned.allocated {w : World} {e : EnvironmentId} (h : w.Owned e) : w.Allocated e := by
  by_contra hnot
  rw [World.Owned, w.environment_of_not_allocated e hnot] at h
  exact absurd h (by decide)

/-! Making environments. -/

def Lua.Function.isControl : Lua.Function → Bool
  | .builtin (.control _) => true
  | _ => false

theorem initial_controls : Environments.initialHeap.1.functions.all (!·.isControl) = true := by
  decide +kernel

theorem initial_userdata : Environments.initialHeap.1.userdata = #[] := rfl

/-- A new environment has no functions that drive the session. -/
theorem initial_function (f : FunctionId) (c : ControlFunction) :
    Environments.initial.heap.function? f ≠ some (.builtin (.control c)) := by
  intro hf
  have hall := Array.all_eq_true_iff_forall_mem.mp initial_controls _ (Array.mem_of_getElem? hf)
  exact absurd hall (by simp [Lua.Function.isControl])

/-- A new environment has no handles. -/
theorem initial_payload (u : Lua.UserdataId) :
    Conversion.payload? Environments.initial.heap (.userdata u) = none := by
  have hu : Environments.initial.heap.userdata = #[] := initial_userdata
  simp [Conversion.payload?, Heap.userdata?, hu]

namespace World

variable (w : World) (e x s : EnvironmentId)

theorem next_not_allocated : ¬ w.Allocated w.nextEnvironment := Nat.lt_irrefl _

theorem next_allocated : w.extended.Allocated w.nextEnvironment := by
  unfold Allocated extended nextEnvironment
  rw [Array.size_push]
  exact Nat.lt_succ_self _

theorem not_drives_of_not_allocated (h : ¬ w.Allocated e) : ¬ w.Drives e := by
  rintro ⟨f, c, hf⟩
  rw [heap, w.environment_of_not_allocated e h] at hf
  cases hf

theorem drives_extended : w.extended.Drives x ↔ w.Drives x := by
  by_cases hx : x = w.nextEnvironment
  · subst hx
    refine iff_of_false ?_ (w.not_drives_of_not_allocated _ w.next_not_allocated)
    rintro ⟨f, c, hf⟩
    rw [heap, environment_extended, if_pos rfl] at hf
    exact initial_function f c hf
  · simp only [Drives, heap, environment_extended, if_neg hx]

theorem handleIn_extended (h : w.extended.HandleIn x s) : w.HandleIn x s := by
  obtain ⟨u, hu⟩ := h
  rw [heap, environment_extended] at hu
  split at hu
  · rw [initial_payload] at hu
    cases hu
  · exact ⟨u, hu⟩

theorem led_extended (h : w.extended.Led x) : w.Led x := by
  obtain ⟨y, hy⟩ := h
  exact ⟨y, w.handleIn_extended y x hy⟩

theorem referred_extended (h : w.extended.Referred x) : w.Referred x :=
  h.imp_right (w.led_extended x)

theorem onward_extended : Onward w w.extended where
  size := by
    unfold extended
    rw [Array.size_push]
    exact Nat.le_succ _
  drives x := w.drives_extended x
  holds x := by
    rw [environment_extended]
    split
    · rename_i hx
      rw [hx, w.environment_of_not_allocated _ w.next_not_allocated]
      rfl
    · rfl
  calls x := by
    rw [environment_extended]
    split
    · rename_i hx
      rw [hx, w.environment_of_not_allocated _ w.next_not_allocated]
      rfl
    · rfl
  gone x hx ho := by
    have hne : x ≠ w.nextEnvironment := fun h => w.next_not_allocated (h ▸ hx)
    rwa [Owned, environment_extended, if_neg hne]
  referred x _ := w.referred_extended x
  led x _ := w.led_extended x

theorem orderly_extended (hw : Orderly w) : Orderly w.extended := by
  refine hw.onward w.onward_extended (fun x hx hr => ?_) fun x _ ho hgone => ?_
  · exact absurd (hw.referred x (w.referred_extended x hr)) hx
  · have hne : x ≠ w.nextEnvironment := fun h => w.next_not_allocated (h ▸ ho.allocated)
    rw [Owned, environment_extended, if_neg hne] at hgone
    exact absurd ho hgone

/-- Code that runs in a new environment cannot get at the session to destroy others. -/
theorem quiet_extended : Quiet (.code w.nextEnvironment) w.extended := by
  intro hdrives
  rw [drives_extended] at hdrives
  exact absurd hdrives (w.not_drives_of_not_allocated _ w.next_not_allocated)

theorem mem_scripts_addScript (script : EnvironmentId)
    (h : x ∈ (w.modifySession fun s => s.addScript script).scripts) :
    x ∈ w.scripts ∨ x = script := by
  unfold scripts modifySession at *
  cases hs : w.session with
  | none =>
    rw [hs] at h
    exact absurd h List.not_mem_nil
  | some session =>
    rw [hs] at h
    rcases List.mem_append.mp h with h | h
    · exact .inl h
    · exact .inr (List.mem_singleton.mp h)

theorem heap_adopted (script : EnvironmentId) :
    (w.adopted e script).heap x = w.heap x ∨
      (w.adopted e script).heap x =
        (w.heap x).addUserdata ⟨.script script, (w.heap x).scriptMeta⟩ := by
  unfold heap adopted modifyHeap
  rw [environment_modifyEnvironment]
  split
  · rename_i h
    rw [h.1]
    exact .inr rfl
  · exact .inl rfl

theorem handleIn_adopted (script : EnvironmentId) (h : (w.adopted e script).HandleIn x s) :
    w.HandleIn x s ∨ s = script := by
  obtain ⟨u, hu⟩ := h
  rcases w.heap_adopted e x script with hheap | hheap
  · exact .inl ⟨u, hheap ▸ hu⟩
  · rw [hheap] at hu
    simp only [Conversion.payload?, Heap.userdata?, Heap.addUserdata, Array.getElem?_push] at hu
    split at hu
    · simp only [Option.map_some, Option.some.injEq, Lua.Payload.script.injEq] at hu
      exact .inr hu.symm
    · exact .inl ⟨u, hu⟩

theorem led_adopted (script : EnvironmentId) (h : (w.adopted e script).Led x) :
    w.Led x ∨ x = script := by
  obtain ⟨y, hy⟩ := h
  exact (w.handleIn_adopted e y x script hy).imp_left fun h => ⟨y, h⟩

theorem referred_adopted (script : EnvironmentId) (h : (w.adopted e script).Referred x) :
    w.Referred x ∨ x = script := by
  rcases h with h | h
  · exact (w.mem_scripts_addScript x script h).imp_left .inl
  · exact (w.led_adopted e x script h).imp_left .inr

theorem drives_adopted (script : EnvironmentId) : (w.adopted e script).Drives x ↔ w.Drives x := by
  rcases w.heap_adopted e x script with hheap | hheap
  · simp only [Drives, hheap]
  · simp only [Drives, hheap]
    rfl

theorem size_adopted (script : EnvironmentId) :
    (w.adopted e script).environments.size = w.environments.size :=
  size_modifyEnvironment _ e _

theorem part_adopted {α : Type} (script : EnvironmentId) (part : Environment → α)
    (hpart : ∀ (y : Environment) h, part { y with heap := h } = part y) :
    part ((w.adopted e script).environment x) = part (w.environment x) :=
  part_modifyEnvironment _ e x part _ fun y => hpart y _

theorem owned_adopted (script : EnvironmentId) : (w.adopted e script).Owned x ↔ w.Owned x := by
  rw [Owned, w.part_adopted e x script (·.owned) fun _ _ => rfl, Owned]

theorem orderly_adopted {script : EnvironmentId} (hw : Orderly w) (halloc : w.Allocated script)
    (hdrives : ¬ w.Drives script) : Orderly (w.adopted e script) where
  referred x hr := by
    rw [Allocated, size_adopted]
    rcases w.referred_adopted e x script hr with hr | rfl
    · exact hw.referred x hr
    · exact halloc
  led x hl := by
    rw [drives_adopted]
    rcases w.led_adopted e x script hl with hl | rfl
    · exact hw.led x hl
    · exact hdrives
  unheld x hd := by
    rw [w.part_adopted e x script (·.holds) fun _ _ => rfl]
    exact hw.unheld x ((w.drives_adopted e x script).mp hd)
  idle x hnot hgone := by
    rw [drives_adopted] at hnot
    rw [owned_adopted] at hgone
    rw [Idle, w.part_adopted e x script (·.holds) fun _ _ => rfl,
      w.part_adopted e x script (·.calls) fun _ _ => rfl]
    exact hw.idle x hnot hgone

end World

theorem Onward.adopted {w w' : World} (h : Onward w w') (e : EnvironmentId) {script : EnvironmentId}
    (hscript : ¬ w.Allocated script) : Onward w (w'.adopted e script) where
  size := by
    rw [w'.size_adopted]
    exact h.size
  drives x := (w'.drives_adopted e x script).trans (h.drives x)
  holds x := (w'.part_adopted e x script (·.holds) fun _ _ => rfl).trans (h.holds x)
  calls x := (w'.part_adopted e x script (·.calls) fun _ _ => rfl).trans (h.calls x)
  gone x hx ho := fun ho' => h.gone x hx ho ((w'.owned_adopted e x script).mp ho')
  referred x hx hr := by
    rcases w'.referred_adopted e x script hr with hr | rfl
    · exact h.referred x hx hr
    · exact absurd hx hscript
  led x hx hl := by
    rcases w'.led_adopted e x script hl with hl | rfl
    · exact h.led x hx hl
    · exact absurd hx hscript

/-! What an agent does keeps worlds orderly. -/

theorem scripts_modifySession (op : SessionOp) (w : World) :
    (w.modifySession op.apply).scripts = w.scripts := by
  unfold World.scripts World.modifySession
  cases hs : w.session with
  | none => rfl
  | some s =>
    cases op with
    | advance delta =>
      simp only [SessionOp.apply, Session.advance, Option.map_some, Option.getD_some]
      split <;> rfl
    | _ => rfl

/-- Only letting environments go matters for lifetimes. -/
theorem Effect.alike {a : Agent} {w w' : World} (h : Effect a w w') :
    Alike w w' ∨ a = .host ∧ (w' = w.clearScripts ∨ ∃ e, w' = w.letGo e) := by
  cases h with
  | clearScripts => exact .inr ⟨rfl, .inl rfl⟩
  | letGo _ e => exact .inr ⟨rfl, .inr ⟨e, rfl⟩⟩
  | session _ _ op => exact .inl (.of_same rfl fun e he => scripts_modifySession op w ▸ he)
  | heap e _ f hf => exact .inl (.of_heap w e _ (fun _ => rfl) (fun _ => rfl) (fun _ => rfl) hf)
  | entityTable e _ t =>
    exact .inl (.of_heap w e _ (fun _ => rfl) (fun _ => rfl) (fun _ => rfl) (.refl _))
  | _ => exact .inl (.of_same rfl fun _ he => he)

theorem World.onward_letGo (w : World) (e : EnvironmentId) : Onward w (w.letGo e) :=
  kept_by_letGo .refl (fun e w => w.onward_destroy e) w e

theorem Effect.onward {a : Agent} {w w' : World} (h : Effect a w w') : Onward w w' := by
  rcases h.alike with halike | ⟨rfl, rfl | ⟨e, rfl⟩⟩
  · exact halike.onward
  · exact w.onward_clearScripts
  · exact w.onward_letGo e

theorem Effect.orderly {a : Agent} {w w' : World} (h : Effect a w w') (hw : Orderly w)
    (ha : Quiet a w) : Orderly w' := by
  rcases h.alike with halike | ⟨rfl, rfl | ⟨e, rfl⟩⟩
  · exact halike.orderly hw
  · exact w.orderly_clearScripts hw ha
  · unfold World.letGo
    split
    · exact w.orderly_destroy e hw (ha e)
    · exact hw

section Bracketing

variable {w w' : World} {e s : EnvironmentId} (hw : Orderly w)

include hw

theorem orderly_enter (halive : w.isAlive e) : Orderly (w.enter e) :=
  recounts_enter.orderly_begin w e hw (fun hdrives => hw.owned_of_alive hdrives halive) (hw.unheld e)

omit hw in
theorem onward_leave (halive : w.isAlive e) (h : Onward (w.enter e) w') :
    Onward w (w'.leave e) := by
  refine recounts_enter.onward_between e recounts_leave (World.allocated_of_alive halive) ?_ ?_ h
  · exact fun y z hz => hz
  · intro y z hz
    simp only at hz ⊢
    omega

omit hw in
/-- Code of an environment that is entered can do what the host could before. -/
theorem quiet_enter (hquiet : Quiet .host w) : Quiet (.code e) (w.enter e) := by
  intro hdrives x hx
  have hne : x ≠ e := fun h => hx (h ▸ hdrives)
  rw [World.Idle, World.enter, Recounts.environment_of_ne w hne]
  exact hquiet x fun hd => hx ((recounts_enter.drives w e x).mpr hd)

theorem orderly_hold (hhandle : w.HandleIn e s) (hpresent : w.isPresent s) :
    Orderly (w.hold s) :=
  recounts_hold.orderly_begin w s hw (fun _ => hw.owned_of_present hpresent) fun hdrives =>
    absurd hdrives (hw.led s ⟨e, hhandle⟩)

omit hw in
theorem onward_unhold (hpresent : w.isPresent s) (h : Onward (w.hold s) w') :
    Onward w (w'.unhold s) := by
  refine recounts_hold.onward_between s recounts_unhold (World.allocated_of_present hpresent) ?_ ?_ h
  · intro y z hz
    simp only at hz ⊢
    omega
  · exact fun y z hz => hz

/-- Code that is reached by a handle does not drive the session. -/
theorem quiet_hold (hhandle : w.HandleIn e s) : Quiet (.code s) (w.hold s) := fun hdrives =>
  absurd ((recounts_hold.drives w s s).mp hdrives) (hw.led s ⟨e, hhandle⟩)

end Bracketing

theorem World.idle_next (w : World) : w.Idle w.nextEnvironment := by
  rw [World.Idle, w.environment_of_not_allocated _ w.next_not_allocated]
  exact ⟨rfl, rfl⟩

/-- An environment that is given up again takes nothing with it: nothing was at work in it before it
was made. -/
theorem World.orderly_abandoned {w w' : World} (message : String) (hw' : Orderly w')
    (ho : Onward w.extended w') :
    Orderly ((w'.addError message).destroy w.nextEnvironment) ∧
      Onward w ((w'.addError message).destroy w.nextEnvironment) := by
  have hto := w.onward_extended.trans ho
  have halike : Alike w' (w'.addError message) := .of_same rfl fun _ he => he
  have hgone := (w'.addError message).onward_destroy w.nextEnvironment
  refine ⟨World.orderly_destroy _ _ (halike.orderly hw') fun _ => ?_,
    (hto.trans halike.onward).trans hgone⟩
  exact halike.onward.idle (hto.idle w.idle_next)

/-- What an agent leaves behind is orderly, and goes on from before. The induction carries both:
that an environment is at work when it is left again is known from its counts on the way. -/
theorem Reaches.orderly {a : Agent} {w w' : World} (h : Reaches a w w') (hw : Orderly w)
    (ha : Quiet a w) : Orderly w' ∧ Onward w w' := by
  induction h with
  | refl a w => exact ⟨hw, .refl w⟩
  | trans _ _ first second =>
    obtain ⟨hw', ho⟩ := first hw ha
    obtain ⟨hw'', ho'⟩ := second hw' (ho.quiet ha)
    exact ⟨hw'', ho.trans ho'⟩
  | effect he => exact ⟨he.orderly hw ha, he.onward⟩
  | drive hdrives _ ih => exact ih hw (ha hdrives)
  | invoke halive _ ih =>
    obtain ⟨hw', ho⟩ := ih (orderly_enter hw halive) (quiet_enter ha)
    refine ⟨recounts_leave.orderly_end _ _ hw' (fun _ h => h) ?_, onward_leave halive ho⟩
    intro y hcalls
    simp only [hcalls]
  | visit hhandle hpresent _ ih =>
    obtain ⟨hw', ho⟩ := ih (orderly_hold hw hhandle hpresent) (quiet_hold hw hhandle)
    refine ⟨recounts_unhold.orderly_end _ _ hw' ?_ (fun _ h => h), onward_unhold hpresent ho⟩
    intro y hholds
    simp only [hholds]
  | @adopt e w w' _ ih =>
    obtain ⟨hw', ho⟩ := ih (w.orderly_extended hw) w.quiet_extended
    -- nobody gave the new environment functions to drive the session with
    have hnext : ¬ w'.Drives w.nextEnvironment := fun hd =>
      w.not_drives_of_not_allocated _ w.next_not_allocated
        ((w.drives_extended _).mp ((ho.drives _).mp hd))
    refine ⟨w'.orderly_adopted e hw' (ho.allocated w.next_allocated) hnext, ?_⟩
    exact (w.onward_extended.trans ho).adopted e w.next_not_allocated
  | @abandon a w w' message _ ih =>
    obtain ⟨hw', ho⟩ := ih (w.orderly_extended hw) w.quiet_extended
    exact World.orderly_abandoned message hw' ho

/-- Code that runs in a new environment brings about nothing that leads to it. -/
theorem Reaches.not_referred {w w' : World} (h : Reaches (.code w.nextEnvironment) w.extended w')
    (hw : Orderly w) : ¬ w'.Referred w.nextEnvironment := by
  intro hreferred
  obtain ⟨_, ho⟩ := h.orderly (w.orderly_extended hw) w.quiet_extended
  -- whatever leads to the new environment already led to it before there was one
  have hbefore : w.Referred w.nextEnvironment :=
    w.referred_extended _ (ho.referred _ w.next_allocated hreferred)
  exact w.next_not_allocated (hw.referred _ hbefore)

/-- The worlds that an agent comes by are orderly. -/
theorem Passes.orderly {a : Agent} {w w' : World} (h : Passes a w w') (hw : Orderly w)
    (ha : Quiet a w) : Orderly w' := by
  induction h with
  | here => exact hw
  | later hr _ ih =>
    obtain ⟨hw', ho⟩ := hr.orderly hw ha
    exact ih hw' (ho.quiet ha)
  | drive hdrives _ ih => exact ih hw (ha hdrives)
  | invoke halive _ ih => exact ih (orderly_enter hw halive) (quiet_enter ha)
  | visit hhandle hpresent _ ih =>
    exact ih (orderly_hold hw hhandle hpresent) (quiet_hold hw hhandle)
  | create _ ih => exact ih (World.orderly_extended _ hw) (World.quiet_extended _)

end ScenarioHost
