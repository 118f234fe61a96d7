import ScenarioHost.Proofs.Callbacks
import ScenarioHost.Proofs.Hosting

/-!
Chronicles of sub-scripts. What happens to the sub-scripts of a session is written down as it
happens: one is made whenever a script gets a handle to it, and all are released at once. Which
ones the session owns, which handles there are, and whether they lead anywhere, is read off the
chronicle.
-/
namespace ScenarioHost

open Lua (Heap UserdataId)

inductive ScriptEvent where
  /-- A sub-script was made, and a script of an environment got the handle to it. -/
  | made (holder : EnvironmentId) (handle : UserdataId) (script : EnvironmentId)
  /-- The session released its sub-scripts. -/
  | released
  /-- The session ended, and its sub-scripts with it. -/
  | ended
  /-- The host let go an environment of its own. -/
  | dropped (e : EnvironmentId)
  /-- The host left an environment of its own to functions that let it go. -/
  | lent (e : EnvironmentId)
  /-- One of these functions let it go. -/
  | letGo (e : EnvironmentId)

namespace ScriptEvent

def ByScripts : ScriptEvent → Prop
  | .made .. => True
  | .released => True
  | .letGo _ => True
  | _ => False

def Releases : ScriptEvent → Prop
  | .released => True
  | .ended => True
  | _ => False

def made? : ScriptEvent → Option EnvironmentId
  | .made _ _ s => some s
  | _ => none

def apply (scripts : List EnvironmentId) : ScriptEvent → List EnvironmentId
  | .made _ _ s => scripts ++ [s]
  | .released => []
  | .ended => []
  | _ => scripts

def replay (l : List ScriptEvent) (scripts : List EnvironmentId) : List EnvironmentId :=
  l.foldl apply scripts

def allMade (l : List ScriptEvent) : List EnvironmentId := l.filterMap made?

variable {l l' : List ScriptEvent} {scripts : List EnvironmentId} {s e : EnvironmentId}
  {u : UserdataId}

theorem replay_append : replay (l ++ l') scripts = replay l' (replay l scripts) :=
  List.foldl_append

theorem allMade_append : allMade (l ++ l') = allMade l ++ allMade l' := List.filterMap_append

theorem mem_allMade : s ∈ allMade l ↔ ∃ e u, .made e u s ∈ l := by
  unfold allMade
  rw [List.mem_filterMap]
  constructor
  · rintro ⟨i, hi, hmade⟩
    cases i with
    | made e u s' =>
      obtain rfl : s' = s := Option.some.inj hmade
      exact ⟨e, u, hi⟩
    | _ => cases hmade
  · rintro ⟨e, u, hi⟩
    exact ⟨.made e u s, hi, rfl⟩

/-- Where nothing is released, all that is made is added. -/
theorem replay_unreleased (h : ∀ i ∈ l, ¬ i.Releases) :
    replay l scripts = scripts ++ allMade l := by
  induction l generalizing scripts with
  | nil => exact (List.append_nil scripts).symm
  | cons i l ih =>
    have hrest := @ih (apply scripts i) fun j hj => h j (List.mem_cons_of_mem i hj)
    have hfirst := h i List.mem_cons_self
    change replay l (apply scripts i) = _
    rw [hrest]
    cases i with
    | made _ _ s => exact List.append_assoc scripts [s] _
    | released => exact absurd trivial hfirst
    | ended => exact absurd trivial hfirst
    | _ => rfl

/-- What was made before a release is forgotten. -/
theorem replay_released {i : ScriptEvent} (hi : i.Releases) :
    replay (l ++ i :: l') scripts = replay l' [] := by
  rw [replay_append]
  cases i with
  | released => rfl
  | ended => rfl
  | _ => exact hi.elim

/-- A session owns what it owned before or what was made. -/
theorem mem_replay (h : s ∈ replay l scripts) : s ∈ scripts ∨ s ∈ allMade l := by
  induction l generalizing scripts with
  | nil => exact .inl h
  | cons i l ih =>
    have hcons : allMade (i :: l) = allMade [i] ++ allMade l := allMade_append (l := [i])
    rw [hcons, List.mem_append]
    rcases ih h with hs | hs
    · cases i with
      | made e u s' => exact (List.mem_append.mp hs).imp_right .inl
      | released => exact absurd hs List.not_mem_nil
      | ended => exact absurd hs List.not_mem_nil
      | _ => exact .inl hs
    · exact .inr (.inr hs)

/-- A sub-script that is made once belongs to the session until the next release. -/
theorem mem_replay_iff (hnodup : (allMade (l ++ .made e u s :: l')).Nodup) :
    s ∈ replay (l ++ .made e u s :: l') scripts ↔ ∀ i ∈ l', ¬ i.Releases := by
  have hlist : l ++ .made e u s :: l' = l ++ [.made e u s] ++ l' := by simp
  have honce : s ∉ allMade l' := by
    rw [hlist, allMade_append, allMade_append] at hnodup
    have hdisjoint := (List.nodup_append.mp hnodup).2.2
    intro hmade
    have hmem : s ∈ allMade l ++ allMade [.made e u s] :=
      List.mem_append_right _ List.mem_cons_self
    exact hdisjoint s hmem s hmade rfl
  constructor
  · intro hmem i hi hreleases
    -- what is left after a release was made after it
    obtain ⟨before, after, rfl⟩ := List.append_of_mem hi
    have hsplit : l ++ .made e u s :: (before ++ i :: after) =
        (l ++ .made e u s :: before) ++ i :: after := by simp
    rw [hsplit, replay_released hreleases] at hmem
    rcases mem_replay hmem with hs | hs
    · exact absurd hs List.not_mem_nil
    · have hlater : i :: after = [i] ++ after := rfl
      rw [hlater, allMade_append, allMade_append] at honce
      exact honce (List.mem_append_right _ (List.mem_append_right _ hs))
  · intro hkept
    rw [hlist, replay_append, replay_append, replay_unreleased hkept]
    exact List.mem_append_left _ (List.mem_append_right _ List.mem_cons_self)

end ScriptEvent

open ScriptEvent (replay allMade allMade_append mem_allMade replay_append)

/-! Sub-scripts of worlds. -/

namespace World

def Leads (w : World) (e : EnvironmentId) (u : UserdataId) (s : EnvironmentId) : Prop :=
  Conversion.payload? (w.heap e) (.userdata u) = some (.script s)

/-- The sub-scripts to which handles lead are there as long as the session owns them, and no
function of the host's can let them go. -/
structure Accounted (w : World) : Prop where
  referred (s : EnvironmentId) : w.Referred s → w.Allocated s ∧ (w.Owned s ↔ s ∈ w.scripts)
  lent (s : EnvironmentId) : s ∈ w.lent → w.Allocated s ∧ ¬ w.Referred s

variable (w : World) (e x s : EnvironmentId) (u : UserdataId)

theorem Leads.allocated {w : World} {e s : EnvironmentId} {u : UserdataId} (h : w.Leads e u s) :
    w.Allocated e := by
  by_contra hnot
  rw [Leads, heap, w.environment_of_not_allocated e hnot] at h
  cases h

theorem scripts_clearScripts : w.clearScripts.scripts = [] := by
  unfold scripts
  rw [session_clearScripts]
  cases w.session <;> rfl

theorem lent_clearScripts : w.clearScripts.lent = w.lent :=
  same_clearScripts (·.lent) (fun _ _ => rfl) (fun _ _ => rfl) w

theorem leads_destroy : (w.destroy e).Leads x u s ↔ w.Leads x u s := by
  rw [Leads, heap_destroy, Leads]

theorem leads_clearScripts : w.clearScripts.Leads x u s ↔ w.Leads x u s :=
  kept_by_clearScripts (T := fun w w' => w'.Leads x u s ↔ w.Leads x u s) (fun _ => Iff.rfl)
    (fun first second => second.trans first) (fun e w => w.leads_destroy e x s u)
    (fun _ _ => Iff.rfl) w

theorem leads_extended : w.extended.Leads x u s ↔ w.Leads x u s := by
  by_cases hx : x = w.nextEnvironment
  · refine iff_of_false (fun h => ?_) fun h => w.next_not_allocated (hx ▸ h.allocated)
    rw [Leads, heap, environment_extended, if_pos hx, initial_payload] at h
    cases h
  · rw [Leads, heap, environment_extended, if_neg hx, Leads, heap]

theorem owned_extended {x : EnvironmentId} (hx : w.Allocated x) :
    w.extended.Owned x ↔ w.Owned x := by
  have hne : x ≠ w.nextEnvironment := fun h => w.next_not_allocated (h ▸ hx)
  rw [Owned, environment_extended, if_neg hne, Owned]

theorem allocated_extended {x : EnvironmentId} (hx : w.Allocated x) : w.extended.Allocated x :=
  w.onward_extended.toLater.allocated hx

/-- The handle of a new sub-script is a new one. -/
theorem leads_adopted (he : w.Allocated e) (script : EnvironmentId) :
    (w.adopted e script).Leads x u s ↔
      w.Leads x u s ∨ x = e ∧ u = (w.heap e).nextUserdata ∧ s = script := by
  by_cases hx : x = e
  · subst hx
    have hheap : (w.adopted x script).heap x =
        (w.heap x).addUserdata ⟨.script script, (w.heap x).scriptMeta⟩ :=
      congrArg Environment.heap (Recounts.environment_self (w.modifySession _) x he)
    simp only [Leads, hheap, Conversion.payload?, Heap.userdata?, Heap.addUserdata,
      Array.getElem?_push, Heap.nextUserdata, true_and]
    by_cases hu : u.index = (w.heap x).userdata.size
    · have heq : u = ⟨(w.heap x).userdata.size⟩ := congrArg UserdataId.mk hu
      simp [heq, eq_comm]
    · have hne : u ≠ ⟨(w.heap x).userdata.size⟩ := fun h => hu (congrArg UserdataId.index h)
      simp [hu, hne]
  · have hheap : (w.adopted e script).heap x = w.heap x :=
      congrArg Environment.heap (Recounts.environment_of_ne (w.modifySession _) hx)
    rw [Leads, hheap, Leads]
    exact ⟨.inl, fun h => h.resolve_right fun h => hx h.1⟩

theorem scripts_adopted {w : World} (hw : w.session.isSome) (e script : EnvironmentId) :
    (w.adopted e script).scripts = w.scripts ++ [script] := by
  obtain ⟨session, hsession⟩ := Option.isSome_iff_exists.mp hw
  have hscripts : w.scripts = session.scripts := by
    unfold scripts
    rw [hsession]
    rfl
  have hadopted : (w.adopted e script).session = some (session.addScript script) := by
    unfold adopted modifyHeap modifyEnvironment modifySession
    rw [hsession]
    rfl
  rw [hscripts]
  unfold scripts
  rw [hadopted]
  rfl

end World

/-! What is no event. -/

structure Uneventful (w w' : World) : Prop where
  size : w'.environments.size = w.environments.size
  owned (e : EnvironmentId) : w'.Owned e ↔ w.Owned e
  leads (e : EnvironmentId) (u : UserdataId) (s : EnvironmentId) : w'.Leads e u s ↔ w.Leads e u s
  scripts : w'.scripts = w.scripts
  session : w'.session.isSome = w.session.isSome
  lent : w'.lent = w.lent

namespace Uneventful

variable {w w' : World}

theorem of_same (henv : w'.environments = w.environments) (hscripts : w'.scripts = w.scripts)
    (hsession : w'.session.isSome = w.session.isSome) (hlent : w'.lent = w.lent) :
    Uneventful w w' := by
  have henvironment (e : EnvironmentId) : w'.environment e = w.environment e := by
    simp only [World.environment, henv]
  refine ⟨congrArg Array.size henv, fun e => ?_, fun e u s => ?_, hscripts, hsession, hlent⟩
  · rw [World.Owned, henvironment, World.Owned]
  · rw [World.Leads, World.heap, henvironment, World.Leads, World.heap]

theorem of_modify (w : World) (e : EnvironmentId) (f : Environment → Environment)
    (howned : ∀ y, (f y).owned = y.owned)
    (hleads : ∀ u s, Conversion.payload? (f (w.environment e)).heap (.userdata u) =
      some (.script s) ↔ w.Leads e u s) : Uneventful w (w.modifyEnvironment e f) where
  size := w.size_modifyEnvironment e f
  owned x := by rw [World.Owned, w.part_modifyEnvironment e x (·.owned) f howned, World.Owned]
  leads x u s := by
    rw [World.Leads, World.heap, World.environment_modifyEnvironment]
    split
    · rename_i h
      rw [h.1]
      exact hleads u s
    · exact Iff.rfl
  scripts := rfl
  session := rfl
  lent := rfl

theorem of_recounts {f : Environment → Environment} (hf : Recounts f) (w : World)
    (e : EnvironmentId) : Uneventful w (w.modifyEnvironment e f) := by
  refine .of_modify w e f hf.owned fun u s => ?_
  rw [hf.heap]
  exact Iff.rfl

/-- Scripts get functions of the host's own, and no handles. -/
theorem controlled (w : World) (e : EnvironmentId) (functions : List (String × ControlFunction)) :
    Uneventful w (Host.controlled w e functions) := by
  refine .of_modify w e (Host.driving functions) (fun y => (World.counts_driving functions y).1)
    fun u s => ?_
  have huserdata : (Host.driving functions (w.environment e)).heap.userdata = (w.heap e).userdata :=
    World.userdata_bindAll ..
  simp only [World.Leads, Conversion.payload?, Heap.userdata?, huserdata]

end Uneventful

/-- What happened to sub-scripts from one world to another one. -/
inductive Chronicle : World → List ScriptEvent → World → Prop where
  | nil (w : World) : Chronicle w [] w
  | trans {w w' w'' : World} {l l' : List ScriptEvent} : Chronicle w l w' → Chronicle w' l' w'' →
      Chronicle w (l ++ l') w''
  | uneventful {w w' : World} : Uneventful w w' → Chronicle w [] w'
  | released (w : World) : Chronicle w [.released] w.clearScripts
  | ended (w : World) : Chronicle w [.ended] w.endSession
  | dropped {w : World} {e : EnvironmentId} : ¬ w.Referred e →
      Chronicle w [.dropped e] (w.destroy e)
  | lent {w : World} {e : EnvironmentId} : w.Allocated e → ¬ w.Referred e →
      Chronicle w [.lent e] (Host.lending w e)
  | letGo {w : World} {e : EnvironmentId} : e ∈ w.lent → Chronicle w [.letGo e] (w.destroy e)
  /-- An environment is there before its making is at an end. -/
  | begun {w w' : World} {l : List ScriptEvent} : Chronicle w.extended l w' → Chronicle w l w'
  /-- Its making came to an end, and a script got a handle to it. -/
  | made {w w' : World} {l : List ScriptEvent} {e : EnvironmentId} : w.session.isSome →
      w.Allocated e → (∀ i ∈ l, i.ByScripts) → Chronicle w.extended l w' →
      Chronicle w (l ++ [.made e (w'.heap e).nextUserdata w.nextEnvironment])
        (w'.adopted e w.nextEnvironment)
  /-- Its making failed, which is none of the events. -/
  | failed {w w' : World} {l : List ScriptEvent} (message : String) : (∀ i ∈ l, i.ByScripts) →
      Chronicle w.extended l w' →
      Chronicle w l ((w'.addError message).destroy w.nextEnvironment)

namespace Chronicle

variable {w w' : World} {l : List ScriptEvent}

theorem size (h : Chronicle w l w') : w.environments.size ≤ w'.environments.size := by
  induction h with
  | nil w => exact Nat.le_refl _
  | trans _ _ first second => exact Nat.le_trans first second
  | uneventful h => exact Nat.le_of_eq h.size.symm
  | released w => exact w.onward_clearScripts.size
  | ended w => exact w.onward_clearScripts.size
  | dropped _ => exact Nat.le_of_eq (World.size_modifyEnvironment ..).symm
  | lent _ _ => exact Nat.le_refl _
  | letGo _ => exact Nat.le_of_eq (World.size_modifyEnvironment ..).symm
  | begun _ ih => exact Nat.le_trans (World.onward_extended _).size ih
  | made _ _ _ _ ih =>
    rw [World.size_adopted]
    exact Nat.le_trans (World.onward_extended _).size ih
  | failed message _ _ ih =>
    rw [World.destroy, World.size_modifyEnvironment]
    exact Nat.le_trans (World.onward_extended _).size ih

theorem allocated (h : Chronicle w l w') {e : EnvironmentId} (he : w.Allocated e) :
    w'.Allocated e := Nat.lt_of_lt_of_le he h.size

/-- Scripts do not end the session. -/
theorem session (h : Chronicle w l w') (hl : ∀ i ∈ l, i.ByScripts) (hw : w.session.isSome) :
    w'.session.isSome := by
  induction h with
  | nil w => exact hw
  | trans _ _ first second =>
    exact second (fun i hi => hl i (List.mem_append_right _ hi))
      (first (fun i hi => hl i (List.mem_append_left _ hi)) hw)
  | uneventful h => exact h.session.trans hw
  | released w =>
    rw [World.session_clearScripts, Option.isSome_map]
    exact hw
  | ended w => exact (hl _ List.mem_cons_self).elim
  | dropped _ => exact hw
  | lent _ _ => exact hw
  | letGo _ => exact hw
  | begun _ ih => exact ih hl hw
  | made _ _ hinner _ ih => exact Option.isSome_map.trans (ih hinner hw)
  | failed message hinner _ ih => exact ih hinner hw

/-- Nor do they get environments that they could let go. -/
theorem lent_by_scripts (h : Chronicle w l w') (hl : ∀ i ∈ l, i.ByScripts) : w'.lent = w.lent := by
  induction h with
  | nil w => rfl
  | trans _ _ first second =>
    exact (second fun i hi => hl i (List.mem_append_right _ hi)).trans
      (first fun i hi => hl i (List.mem_append_left _ hi))
  | uneventful h => exact h.lent
  | released w => exact w.lent_clearScripts
  | letGo _ => rfl
  | begun _ ih => exact ih hl
  | made _ _ hinner _ ih => exact ih hinner
  | failed message hinner _ ih => exact ih hinner
  | _ => exact (hl _ List.mem_cons_self).elim

/-- The session owns what the chronicle says. -/
theorem scripts (h : Chronicle w l w') : w'.scripts = replay l w.scripts := by
  induction h with
  | nil w => rfl
  | trans _ _ first second => rw [replay_append, ← first, second]
  | uneventful h => exact h.scripts
  | released w => exact w.scripts_clearScripts
  | ended w => rfl
  | dropped _ => rfl
  | lent _ _ => rfl
  | letGo _ => rfl
  | begun _ ih => exact ih
  | @made w w' l e hsession _ hinner h ih =>
    have hscripts : w.extended.scripts = w.scripts := rfl
    rw [World.scripts_adopted (h.session hinner hsession), ih, replay_append, hscripts]
    rfl
  | failed message _ _ ih => exact ih

/-- What is made was not there before. -/
theorem range_of_made (h : Chronicle w l w') {s : EnvironmentId} (hs : s ∈ allMade l) :
    w.environments.size ≤ s.index ∧ w'.Allocated s := by
  have hextended (w : World) : w.environments.size ≤ w.extended.environments.size :=
    w.onward_extended.size
  induction h with
  | trans first second ihfirst ihsecond =>
    rw [allMade_append] at hs
    rcases List.mem_append.mp hs with hs | hs
    · obtain ⟨hleast, hmost⟩ := ihfirst hs
      exact ⟨hleast, second.allocated hmost⟩
    · obtain ⟨hleast, hmost⟩ := ihsecond hs
      exact ⟨Nat.le_trans first.size hleast, hmost⟩
  | @begun w _ _ _ ih => exact ⟨Nat.le_trans (hextended w) (ih hs).1, (ih hs).2⟩
  | @made w w' l e _ _ _ h ih =>
    rw [World.Allocated, World.size_adopted]
    rw [allMade_append] at hs
    rcases List.mem_append.mp hs with hs | hs
    · exact ⟨Nat.le_trans (hextended w) (ih hs).1, (ih hs).2⟩
    · obtain rfl : s = w.nextEnvironment := List.mem_singleton.mp hs
      exact ⟨Nat.le_refl _, h.allocated w.next_allocated⟩
  | @failed w w' l message _ _ ih =>
    rw [World.Allocated, World.destroy, World.size_modifyEnvironment]
    exact ⟨Nat.le_trans (hextended w) (ih hs).1, (ih hs).2⟩
  | _ => exact absurd hs List.not_mem_nil

/-- Nothing is made twice. -/
theorem nodup (h : Chronicle w l w') : (allMade l).Nodup := by
  induction h with
  | trans first second ihfirst ihsecond =>
    rw [allMade_append]
    refine List.nodup_append.mpr ⟨ihfirst, ihsecond, fun s hs s' hs' heq => ?_⟩
    -- what is made later is not among what is there already
    have hbefore := (first.range_of_made hs).2
    have hafter := (second.range_of_made hs').1
    exact absurd hbefore (Nat.not_lt_of_le (heq ▸ hafter))
  | begun _ ih => exact ih
  | @made w w' l e _ _ _ h ih =>
    rw [allMade_append]
    refine List.nodup_append.mpr ⟨ih, List.nodup_singleton _, fun s hs s' hs' heq => ?_⟩
    have hafter := (h.range_of_made hs).1
    rw [heq, List.mem_singleton.mp hs'] at hafter
    exact absurd w.next_allocated (Nat.not_lt_of_le hafter)
  | failed message _ _ ih => exact ih
  | _ => exact List.nodup_nil

/-- There are the handles that there were and those that were made. -/
theorem leads (h : Chronicle w l w') (e : EnvironmentId) (u : UserdataId) (s : EnvironmentId) :
    w'.Leads e u s ↔ w.Leads e u s ∨ .made e u s ∈ l := by
  induction h with
  | nil w => simp
  | trans _ _ first second => rw [second, first, List.mem_append, or_assoc]
  | uneventful h => simp [h.leads]
  | released w => simp [w.leads_clearScripts]
  | ended w =>
    have hcleared : w.endSession.Leads e u s ↔ w.clearScripts.Leads e u s := Iff.rfl
    simp [hcleared, w.leads_clearScripts]
  | dropped _ => simp [World.leads_destroy]
  | @lent w x _ _ =>
    have hlending : (Host.lending w x).Leads e u s ↔ w.Leads e u s := Iff.rfl
    simp [hlending]
  | letGo _ => simp [World.leads_destroy]
  | begun _ ih => rw [ih, World.leads_extended]
  | @made w w' l x _ hx _ h ih =>
    rw [w'.leads_adopted x e s u (h.allocated (w.allocated_extended hx)), ih, w.leads_extended]
    simp [or_assoc]
  | @failed w w' l message _ _ ih =>
    have hcomplained : (w'.addError message).Leads e u s ↔ w'.Leads e u s := Iff.rfl
    rw [World.leads_destroy, hcomplained, ih, w.leads_extended]

/-- Scripts let go nothing but sub-scripts and what was left to them. -/
theorem owned (h : Chronicle w l w') (hl : ∀ i ∈ l, i.ByScripts) {s : EnvironmentId}
    (hs : w.Allocated s) (hfree : s ∉ w.scripts) (hlent : s ∉ w.lent) :
    w'.Owned s ↔ w.Owned s := by
  induction h with
  | nil w => exact Iff.rfl
  | trans first second ihfirst ihsecond =>
    have hbefore := fun i hi => hl i (List.mem_append_left _ hi)
    refine (ihsecond (fun i hi => hl i (List.mem_append_right _ hi)) (first.allocated hs)
      (fun hmem => ?_) ?_).trans (ihfirst hbefore hs hfree hlent)
    · -- it cannot have become a sub-script since: those are new
      rw [first.scripts] at hmem
      rcases ScriptEvent.mem_replay hmem with hmem | hmem
      · exact hfree hmem
      · exact absurd hs (Nat.not_lt_of_le (first.range_of_made hmem).1)
    · rwa [first.lent_by_scripts hbefore]
  | uneventful h => exact h.owned s
  | released w =>
    rw [w.owned_clearScripts]
    exact and_iff_left hfree
  | ended w => exact (hl _ List.mem_cons_self).elim
  | dropped _ => exact (hl _ List.mem_cons_self).elim
  | lent _ _ => exact (hl _ List.mem_cons_self).elim
  | @letGo w e he =>
    rw [w.owned_destroy]
    exact and_iff_left fun h => hlent (h ▸ he)
  | @begun w _ _ _ ih =>
    exact (ih hl (w.allocated_extended hs) hfree hlent).trans (w.owned_extended hs)
  | @made w w' l e _ _ hinner _ ih =>
    rw [World.owned_adopted]
    exact (ih hinner (w.allocated_extended hs) hfree hlent).trans (w.owned_extended hs)
  | @failed w w' l message hinner _ ih =>
    -- what is given up is the environment that was being made
    have hne : s ≠ w.nextEnvironment := fun h => w.next_not_allocated (h ▸ hs)
    have hcomplained : (w'.addError message).Owned s ↔ w'.Owned s := Iff.rfl
    rw [World.owned_destroy, and_iff_left hne, hcomplained]
    exact (ih hinner (w.allocated_extended hs) hfree hlent).trans (w.owned_extended hs)

theorem not_referred_next (hw : w.Accounted) (h : Chronicle w.extended l w') :
    ¬ w'.Referred w.nextEnvironment := by
  have hunmade : w.nextEnvironment ∉ allMade l := fun hmade =>
    absurd w.next_allocated (Nat.not_lt_of_le (h.range_of_made hmade).1)
  have hbefore : ¬ w.Referred w.nextEnvironment := fun hr =>
    w.next_not_allocated (hw.referred _ hr).1
  rintro (hscript | ⟨x, u, hlead⟩)
  · rw [h.scripts] at hscript
    rcases ScriptEvent.mem_replay hscript with hscript | hmade
    · exact hbefore (.inl hscript)
    · exact hunmade hmade
  · rcases (h.leads x u _).mp hlead with hlead | hmade
    · exact hbefore (.inr ⟨x, u, (w.leads_extended x _ u).mp hlead⟩)
    · exact hunmade (mem_allMade.mpr ⟨x, u, hmade⟩)

theorem accounted_extended (hw : w.Accounted) : w.extended.Accounted where
  referred s hs := by
    obtain ⟨halloc, howned⟩ := hw.referred s (w.referred_extended s hs)
    exact ⟨w.allocated_extended halloc, (w.owned_extended halloc).trans howned⟩
  lent s hs := by
    obtain ⟨halloc, hfree⟩ := hw.lent s hs
    exact ⟨w.allocated_extended halloc, fun hr => hfree (w.referred_extended s hr)⟩

/-- An environment that nothing leads to is let go at no cost to sub-scripts. -/
theorem accounted_destroy (hw : w.Accounted) {e : EnvironmentId} (hfree : ¬ w.Referred e) :
    (w.destroy e).Accounted where
  referred s hs := by
    have hbefore := w.referred_destroy e s hs
    have hne : s ≠ e := fun h => hfree (h ▸ hbefore)
    obtain ⟨halloc, howned⟩ := hw.referred s hbefore
    refine ⟨(w.onward_destroy e).toLater.allocated halloc, ?_⟩
    rw [w.owned_destroy, and_iff_left hne]
    exact howned
  lent s hs := by
    obtain ⟨halloc, hfree⟩ := hw.lent s hs
    exact ⟨(w.onward_destroy e).toLater.allocated halloc,
      fun hr => hfree (w.referred_destroy e s hr)⟩

theorem accounted_clearScripts (hw : w.Accounted) : w.clearScripts.Accounted where
  referred s hs := by
    obtain ⟨halloc, howned⟩ := hw.referred s (w.referred_clearScripts s hs)
    refine ⟨w.onward_clearScripts.toLater.allocated halloc, ?_⟩
    rw [w.owned_clearScripts, howned, w.scripts_clearScripts]
    exact ⟨fun h => absurd h.1 h.2, fun h => absurd h List.not_mem_nil⟩
  lent s hs := by
    rw [w.lent_clearScripts] at hs
    obtain ⟨halloc, hfree⟩ := hw.lent s hs
    exact ⟨w.onward_clearScripts.toLater.allocated halloc,
      fun hr => hfree (w.referred_clearScripts s hr)⟩

theorem accounted_uneventful (h : Uneventful w w') (hw : w.Accounted) : w'.Accounted := by
  have hreferred {s : EnvironmentId} (hs : w'.Referred s) : w.Referred s := by
    rcases hs with hs | ⟨x, u, hs⟩
    · exact .inl (h.scripts ▸ hs)
    · exact .inr ⟨x, u, (h.leads x u s).mp hs⟩
  refine ⟨fun s hs => ?_, fun s hs => ?_⟩
  · obtain ⟨halloc, howned⟩ := hw.referred s (hreferred hs)
    rw [h.scripts]
    exact ⟨Nat.lt_of_lt_of_eq halloc h.size.symm, (h.owned s).trans howned⟩
  · rw [h.lent] at hs
    obtain ⟨halloc, hfree⟩ := hw.lent s hs
    exact ⟨Nat.lt_of_lt_of_eq halloc h.size.symm, fun hr => hfree (hreferred hr)⟩

/-- The session owns a new sub-script from now on; nobody let it go while it was made. -/
theorem accounted_made {e : EnvironmentId} (hw : w.Accounted) (hsession : w.session.isSome)
    (hl : ∀ i ∈ l, i.ByScripts) (h : Chronicle w.extended l w') (hw' : w'.Accounted) :
    (w'.adopted e w.nextEnvironment).Accounted := by
  have hunlent : w.nextEnvironment ∉ w.lent := fun hs => w.next_not_allocated (hw.lent _ hs).1
  refine ⟨fun s hs => ?_, fun s hs => ?_⟩
  · rw [World.owned_adopted, World.scripts_adopted (h.session hl hsession), List.mem_append,
      World.Allocated, World.size_adopted]
    by_cases hnext : s = w.nextEnvironment
    · subst hnext
      have hfree : w.nextEnvironment ∉ w.extended.scripts := fun hmem =>
        w.next_not_allocated (hw.referred _ (.inl hmem)).1
      have howned : w.extended.Owned w.nextEnvironment := by
        rw [World.Owned, World.environment_extended, if_pos rfl]
        rfl
      exact ⟨h.allocated w.next_allocated,
        iff_of_true ((h.owned hl w.next_allocated hfree hunlent).mpr howned)
          (.inr List.mem_cons_self)⟩
    · have hreferred : w'.Referred s := (w'.referred_adopted e s _ hs).resolve_right hnext
      obtain ⟨halloc, howned⟩ := hw'.referred s hreferred
      refine ⟨halloc, howned.trans ⟨.inl, fun h => h.resolve_right fun h => ?_⟩⟩
      exact hnext (List.mem_singleton.mp h)
  · obtain ⟨halloc, hfree⟩ := hw'.lent s hs
    have hbefore : s ∈ w.extended.lent := h.lent_by_scripts hl ▸ hs
    refine ⟨Nat.lt_of_lt_of_eq halloc (World.size_adopted ..).symm, fun hr => ?_⟩
    rcases w'.referred_adopted e s _ hr with hr | rfl
    · exact hfree hr
    · exact hunlent hbefore

/-- The account stays right. -/
theorem accounted (h : Chronicle w l w') (hw : w.Accounted) : w'.Accounted := by
  -- on the chronicle; while a script is made the account is that of the world with room for it
  induction h with
  | nil w => exact hw
  | trans _ _ first second => exact second (first hw)
  | uneventful h => exact accounted_uneventful h hw
  | released w => exact accounted_clearScripts hw
  | ended w =>
    have hcleared := accounted_clearScripts hw
    refine ⟨fun s hs => ?_, fun s hs => ?_⟩
    · obtain ⟨halloc, howned⟩ := hcleared.referred s (w.alike_endSession.referred s hs)
      rw [w.alike_endSession.owned, howned, w.scripts_clearScripts]
      exact ⟨halloc, Iff.rfl⟩
    · obtain ⟨halloc, hfree⟩ := hcleared.lent s hs
      exact ⟨halloc, fun hr => hfree (w.alike_endSession.referred s hr)⟩
  | dropped hfree => exact accounted_destroy hw hfree
  | @lent w e halloc hfree =>
    refine ⟨hw.referred, fun s hs => ?_⟩
    rcases List.mem_cons.mp hs with rfl | hs
    · exact ⟨halloc, hfree⟩
    · exact hw.lent s hs
  | letGo he => exact accounted_destroy hw (hw.lent _ he).2
  | begun _ ih => exact ih (accounted_extended hw)
  | made hsession _ hinner h ih =>
    exact accounted_made hw hsession hinner h (ih (accounted_extended hw))
  | @failed w w' l message hinner h ih =>
    have hcomplained : Uneventful w' (w'.addError message) := .of_same rfl rfl rfl rfl
    have hunreferred : ¬ w'.Referred w.nextEnvironment := not_referred_next hw h
    exact accounted_destroy (accounted_uneventful hcomplained (ih (accounted_extended hw)))
      hunreferred

end Chronicle

end ScenarioHost
