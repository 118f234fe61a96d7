import ScenarioHost.Proofs.Chronicle
import ScenarioHost.Proofs.Handles
import ScenarioHost.Proofs.NameTables
import ScenarioHost.Proofs.Propagation

/-!
Sub-scripts of runs. Every run has a chronicle: a call of `Script` that gives a handle adds to it,
one that fails does not. The session owns what was made since the last release, and a handle is of
use until the next one.
-/
namespace ScenarioHost

open Engine (depthLimit engine stopped)
open Host (HostStep)
open Lua (Evaluator Kind Site Spot UserdataId Value)
open ScriptEvent (allMade replay)

/-! Chronicles of agents and hosts. -/

namespace Chronicle

variable {w w' w'' : World} {l : List ScriptEvent}

theorem after (h : Uneventful w w') (h' : Chronicle w' l w'') : Chronicle w l w'' :=
  (uneventful h).trans h'

theorem before (h : Chronicle w l w') (h' : Uneventful w' w'') : Chronicle w l w'' := by
  rw [← List.append_nil l]
  exact h.trans (.uneventful h')

end Chronicle

def World.Houses (w : World) : Agent → Prop
  | .host => True
  | .code e => w.Allocated e

def Chronicled (a : Agent) (w w' : World) : Prop :=
  w.Houses a → ∃ l, (∀ i ∈ l, i.ByScripts) ∧ Chronicle w l w'

namespace Chronicled

variable {a : Agent} {w w' w'' : World}

theorem of_uneventful (h : Uneventful w w') : Chronicled a w w' := fun _ =>
  ⟨[], fun _ hi => absurd hi List.not_mem_nil, .uneventful h⟩

theorem refl (w : World) : Chronicled a w w := fun _ =>
  ⟨[], fun _ hi => absurd hi List.not_mem_nil, .nil w⟩

theorem trans (h : Chronicled a w w') (h' : Chronicled a w' w'') : Chronicled a w w'' := by
  intro hw
  obtain ⟨l, hl, hfirst⟩ := h hw
  have hw' : w'.Houses a := by
    cases a with
    | host => trivial
    | code e => exact hfirst.allocated hw
  obtain ⟨l', hl', hsecond⟩ := h' hw'
  exact ⟨l ++ l', fun i hi => (List.mem_append.mp hi).elim (hl i) (hl' i), hfirst.trans hsecond⟩

/-- What code does in an environment that is entered, or held, is written down outside as well. -/
theorem inside {e : EnvironmentId} {f : Environment → Environment}
    (h : Chronicled (.code e) (w.modifyEnvironment e f) w') (hf : Recounts f)
    (he : w.Allocated e) : ∃ l, (∀ i ∈ l, i.ByScripts) ∧ Chronicle w l w' := by
  have hinside : (w.modifyEnvironment e f).Allocated e :=
    Nat.lt_of_lt_of_eq he (w.size_modifyEnvironment e f).symm
  obtain ⟨l, hl, hchronicle⟩ := h hinside
  exact ⟨l, hl, hchronicle.after (.of_recounts hf w e)⟩

end Chronicled

theorem Chronicled.of_deed {P : Affair → Prop} {a : Agent} {w : World} {f : World → World}
    (h : Deed P a w f) : Chronicled a w (f w) := by
  cases h with
  | clearScripts w => exact fun _ => ⟨[.released], List.forall_mem_singleton.mpr trivial, .released w⟩
  | letGo w e =>
    by_cases he : e ∈ w.lent
    · have hgone : w.letGo e = w.destroy e := if_pos he
      simp only [hgone]
      exact fun _ => ⟨[.letGo e], List.forall_mem_singleton.mpr trivial, .letGo he⟩
    · have hkept : w.letGo e = w := if_neg he
      simp only [hkept]
      exact .refl w
  | session w op =>
    exact .of_uneventful (.of_same rfl (scripts_modifySession op w) Option.isSome_map rfl)
  | _ => exact .of_uneventful (.of_same rfl rfl rfl rfl)

theorem Uneventful.of_part {a : Agent} {w : World} {f : World → World} (h : Part a w f) :
    Uneventful w (f w) := by
  cases h with
  | beginReply w =>
    exact .of_same rfl (scripts_modifySession .beginReply w) Option.isSome_map rfl
  | _ => exact .of_same rfl rfl rfl rfl

theorem Uneventful.of_change {e : EnvironmentId} {w : World} {f : World → World}
    (h : Change e w f) : Uneventful w (f w) := by
  cases h with
  | heap f hf => exact .of_modify w e _ (fun _ => rfl) fun u s => hf.handle u s
  | entityTable t => exact .of_modify w e _ (fun _ => rfl) fun u s => Iff.rfl

/-- What an agent does to sub-scripts is written down, on the way as at the end. -/
theorem course_chronicled : Course Chronicled Chronicled where
  progress a := ⟨.refl, .trans, .refl, .trans⟩
  deed := .of_deed
  part h := .of_uneventful (.of_part h)
  change h := .of_uneventful (.of_change h)
  draw e w := by
    have hseed (seed : UInt64) : Uneventful w { w with seed := seed } := .of_same rfl rfl rfl rfl
    exact .of_uneventful (hseed _)
  drive _ h _ := h trivial
  driving _ h _ := h trivial
  invoke {e w w'} halive h _ := by
    obtain ⟨l, hl, hinside⟩ := h.inside recounts_enter (World.allocated_of_alive halive)
    exact ⟨l, hl, hinside.before (.of_recounts recounts_leave w' e)⟩
  invoking halive h _ := h.inside recounts_enter (World.allocated_of_alive halive)
  visit {e s w w'} _ hpresent h _ := by
    obtain ⟨l, hl, hinside⟩ := h.inside recounts_hold (World.allocated_of_present hpresent)
    exact ⟨l, hl, hinside.before (.of_recounts recounts_unhold w' s)⟩
  visiting _ hpresent h _ := h.inside recounts_hold (World.allocated_of_present hpresent)
  adopt {e w w'} hsession h he := by
    obtain ⟨l, hl, hinside⟩ := h w.next_allocated
    refine ⟨_, fun i hi => ?_, .made hsession he hl hinside⟩
    rcases List.mem_append.mp hi with hi | hi
    · exact hl i hi
    · rw [List.mem_singleton.mp hi]
      trivial
  abandon {a w w'} message h _ := by
    obtain ⟨l, hl, hinside⟩ := h w.next_allocated
    exact ⟨l, hl, .failed message hl hinside⟩
  creating {a w w'} h _ := by
    obtain ⟨l, hl, hinside⟩ := h w.next_allocated
    exact ⟨l, hl, .begun hinside⟩

def World.Reserved (w : World) (e : EnvironmentId) : Prop := w.Allocated e ∧ ¬ w.Referred e

/-- What a host does is written down as long as it adds no environment to the session by itself. -/
theorem hosts_chronicled : Course.Hosts Chronicled Chronicled (fun w w' => ∃ l, Chronicle w l w')
    (fun w w' => ∃ l, Chronicle w l w') World.Reserved (fun s => ∀ e, s ≠ .give e) where
  progress := by
    have htrans {w w' w'' : World} : (∃ l, Chronicle w l w') → (∃ l, Chronicle w' l w'') →
        ∃ l, Chronicle w l w'' := by
      rintro ⟨l, h⟩ ⟨l', h'⟩
      exact ⟨l ++ l', h.trans h'⟩
    exact ⟨fun w => ⟨[], .nil w⟩, htrans, fun w => ⟨[], .nil w⟩, htrans⟩
  serve h := (h trivial).imp fun _ => And.right
  serving h := (h trivial).imp fun _ => And.right
  command he h := (h he.1).imp fun _ => And.right
  commanding he h := (h he.1).imp fun _ => And.right
  session w op :=
    ⟨[], .uneventful (.of_same rfl (scripts_modifySession op w) Option.isSome_map rfl)⟩
  advance e w delta :=
    .of_uneventful (.of_same rfl (scripts_modifySession (.advance delta) w) Option.isSome_map rfl)
  make h := (h (World.next_allocated _)).imp fun _ h => .begun h.2
  destroy he := ⟨_, .dropped he.2⟩
  controlled e functions w := ⟨[], .uneventful (.controlled w e functions)⟩
  lending he := ⟨_, .lent he.1 he.2⟩
  adding hnever _ := absurd rfl (hnever _)
  endSession w := ⟨_, .ended w⟩
  equipped w b := ⟨[], .uneventful (.of_same rfl rfl rfl rfl)⟩

/-- Every run of a host has a chronicle up to any moment. -/
theorem Host.chronicle_performAll (stop : (k : Kind) → Lua.Task k → World → Bool)
    (limit fuel : Nat) {steps : List HostStep} (hsteps : ∀ e, .give e ∉ steps)
    {held : List EnvironmentId} {w : World} (hw : Ready held w) :
    ∃ l, Chronicle w l (performAll (stopped stop limit fuel) held steps w).world := by
  have hlawful := Engine.lawful_stopped stop limit fuel
  induction steps generalizing held w with
  | nil => exact ⟨[], .nil w⟩
  | cons s rest ih =>
    have hrest (e : EnvironmentId) : .give e ∉ rest := List.not_mem_of_not_mem_cons (hsteps e)
    have hstep := hosts_chronicled.perform course_chronicled stop limit fuel held s
      (fun e he => hsteps e (he ▸ List.mem_cons_self)) hw.held
    have hadvanced := advanced_perform hlawful s held w
    unfold performAll
    rw [Act.bind_apply]
    cases hrun : s.perform (stopped stop limit fuel) held w with
    | done held' w' =>
      rw [hrun] at hstep hadvanced
      obtain ⟨l, hfirst⟩ := hstep.1
      obtain ⟨l', hothers⟩ := ih hrest (Advances.ready hadvanced hw)
      exact ⟨l ++ l', hfirst.trans hothers⟩
    | raised impossible => exact impossible.elim
    | starved =>
      rw [hrun] at hstep
      exact hstep

/-! The account that a chronicle gives. -/

/-- What a chronicle from the beginning of a session says of a world. -/
structure World.Account (w : World) (l : List ScriptEvent) : Prop where
  count : (∀ i ∈ l, ¬ i.Releases) → w.scripts.length = (allMade l).length
  count_since (before after : List ScriptEvent) (i : ScriptEvent) : l = before ++ i :: after →
    i.Releases → (∀ j ∈ after, ¬ j.Releases) → w.scripts.length = (allMade after).length
  once : (allMade l).Nodup
  handles (e : EnvironmentId) (u : UserdataId) (s : EnvironmentId) :
    w.Leads e u s ↔ .made e u s ∈ l
  /-- A sub-script can be reached until the first release after it was made. -/
  reachable (before after : List ScriptEvent) (e : EnvironmentId) (u : UserdataId)
    (s : EnvironmentId) : l = before ++ .made e u s :: after →
      (w.isPresent s ↔ ∀ i ∈ after, ¬ i.Releases)

theorem World.Owned.present {w : World} {e : EnvironmentId} (h : w.Owned e) : w.isPresent e := by
  have howned : (w.environment e).owned = true := h
  rw [w.isPresent_eq, Environment.present, howned]
  rfl

theorem World.accounted_new (config : Config) (library : Library) :
    (World.new config library).Accounted where
  referred s hs := by
    have hallocated := (Host.ready_new config library).orderly.referred s hs
    exact absurd hallocated (Nat.not_lt_zero _)
  lent _ hs := absurd hs List.not_mem_nil

theorem Chronicle.account {config : Config} {library : Library} {l : List ScriptEvent} {w : World}
    (h : Chronicle (World.new config library) l w) (hw : Orderly w) : w.Account l := by
  have hscripts : w.scripts = replay l [] := h.scripts
  have hhandles (e : EnvironmentId) (u : UserdataId) (s : EnvironmentId) :
      w.Leads e u s ↔ .made e u s ∈ l := by
    rw [h.leads e u s]
    -- a new world has no environment in which there could be a handle already
    refine or_iff_right fun hnone => ?_
    have hallocated : (World.new config library).Allocated e := hnone.allocated
    exact absurd hallocated (Nat.not_lt_zero _)
  refine ⟨fun hkept => ?_, fun before after i hl hi hkept => ?_, h.nodup, hhandles,
    fun before after e u s hl => ?_⟩
  · rw [hscripts, ScriptEvent.replay_unreleased hkept, List.nil_append]
  · rw [hscripts, hl, ScriptEvent.replay_released hi, ScriptEvent.replay_unreleased hkept,
      List.nil_append]
  · have hmade : .made e u s ∈ l := hl ▸ List.mem_append_right before List.mem_cons_self
    have hlead : w.Leads e u s := (hhandles e u s).mpr hmade
    have haccounted := h.accounted (World.accounted_new config library)
    have howned := (haccounted.referred s (.inr ⟨e, u, hlead⟩)).2
    have hpresent : w.isPresent s ↔ w.Owned s := ⟨hw.owned_of_present, World.Owned.present⟩
    have hnodup := h.nodup
    rw [hl] at hnodup
    rw [hpresent, howned, hscripts, hl]
    exact ScriptEvent.mem_replay_iff hnodup

/-! Calls of `Script`. -/

/-- How a call of `Script` ends. With a handle, the sub-script that it leads to is one more; with an
error, only those count that scripts made meanwhile. -/
structure World.ScriptCall (w : World) (e : EnvironmentId) (o : Outcome Value (List Value)) :
    Prop where
  returned (values : List Value) (w' : World) : o = .done values w' → ∃ l u,
    values = [.userdata u] ∧ (∀ i ∈ l, i.ByScripts) ∧
      Chronicle w (l ++ [.made e u w.nextEnvironment]) w'
  raised (v : Value) (w' : World) : o = .raised v w' → ∃ l,
    w.nextEnvironment ∉ allMade l ∧ (∀ i ∈ l, i.ByScripts) ∧ Chronicle w l w'

theorem Uneventful.with_error (w : World) (e : EnvironmentId) (cause : HostError) :
    Uneventful w (w.withError e cause) := by
  refine .of_modify w e _ (fun _ => rfl) fun u s => ?_
  exact (Lua.Heap.Evolves.add_userdata (w.heap e) _ fun _ h => by cases h).handle u s

theorem Boundary.in_script_apply {α : Type} (e : EnvironmentId) (x : Act HostError α) (w : World) :
    inScript e x w =
      match x w with
      | .done a w' => .done a w'
      | .raised cause w' => .raised (.userdata (w'.heap e).nextUserdata) (w'.withError e cause)
      | @Outcome.starved _ _ w' => @Outcome.starved _ _ w' := by
  cases hx : x w with
  | done a w' => exact in_script_done hx
  | raised cause w' => exact in_script_raised hx
  | starved => exact in_script_starved hx

namespace Scripts

variable {run run' : Evaluator} {s : Spot} {w : World}

theorem create_ended (h : w.session = none) : create run s w = .raised sessionEnded w := by
  unfold create
  rw [Act.bind_apply, Act.read, h]
  rfl

theorem create_apply (h : w.session.isSome) : create run s w =
    adopting s.env (Environments.making (Environments.booting run (siteInside s))) w := by
  have hpresent : ¬ w.session.isNone = true := by
    rw [Bool.not_eq_true, Option.isNone_eq_false_iff]
    exact h
  unfold create
  rw [Act.bind_apply, Act.read, Environments.create_eq]
  dsimp only
  rw [if_neg hpresent]
  rfl

/-- The chronicle goes on with what the bootstrap modules of the sub-script did. -/
theorem create_chronicled (h : course_chronicled.regime.Lawful run run') (he : w.Allocated s.env) :
    (∀ v w', create run s w = .done v w' → ∃ l u, v = .userdata u ∧ (∀ i ∈ l, i.ByScripts) ∧
      Chronicle w (l ++ [.made s.env u w.nextEnvironment]) w') ∧
    ∀ cause w', create run s w = .raised cause w' → ∃ l, w.nextEnvironment ∉ allMade l ∧
      (∀ i ∈ l, i.ByScripts) ∧ Chronicle w l w' := by
  cases hsession : w.session with
  | none =>
    rw [create_ended hsession]
    refine ⟨fun v w' hdone => (nomatch hdone), fun cause w' hraised => ?_⟩
    obtain ⟨rfl, rfl⟩ := Outcome.raised.inj hraised
    exact ⟨[], List.not_mem_nil, fun i hi => absurd hi List.not_mem_nil, .nil w⟩
  | some session =>
    have hpresent : w.session.isSome := hsession ▸ rfl
    have hlaw := Environments.law_booting (e := w.nextEnvironment) h (siteInside s)
    have hbooting := (course_chronicled.keeps (Regime.by_of_law hlaw)).upholds w.extended
    rw [create_apply hpresent, adopting_making_apply]
    cases hrun : Environments.booting run (siteInside s) w.nextEnvironment w.extended with
    | done _ w₁ =>
      rw [hrun] at hbooting
      obtain ⟨l, hl, hinside⟩ := hbooting.1 w.next_allocated
      refine ⟨fun v w' hdone => ?_, fun cause w' hraised => (nomatch hraised)⟩
      obtain ⟨rfl, rfl⟩ := Outcome.done.inj hdone
      exact ⟨l, _, rfl, hl, .made hpresent he hl hinside⟩
    | raised failure w₁ =>
      rw [hrun] at hbooting
      obtain ⟨l, hl, hinside⟩ := hbooting w.next_allocated
      refine ⟨fun v w' hdone => (nomatch hdone), fun cause w' hraised => ?_⟩
      obtain ⟨rfl, rfl⟩ := Outcome.raised.inj hraised
      -- what is made inside comes after the environment whose making failed
      have hunmade : w.nextEnvironment ∉ allMade l := fun hmade =>
        absurd w.next_allocated (Nat.not_lt_of_le (hinside.range_of_made hmade).1)
      exact ⟨l, hunmade, hl, .failed failure.2 hl hinside⟩
    | starved => exact ⟨fun _ _ hdone => (nomatch hdone), fun _ _ hraised => (nomatch hraised)⟩

end Scripts

namespace Engine

variable {limit fuel : Nat} {e : EnvironmentId} {site : Site} {f : Value} {args : List Value}
  {w : World}

/-- Where calls nest too deep, nothing is called. -/
theorem call_overflow (hdepth : depthLimit < site.depth) :
    engine limit (fuel + 1) .values (.call e site f args) w =
      .raised (.string (Lua.Library.positionText site 1 ++ ⟨"stack overflow"⟩)) w := by
  change callValue limit (engine limit fuel) e site f args w = _
  unfold callValue
  exact congrFun (if_pos hdepth) w

theorem call_newScript (hf : (w.heap e).builtin? f = some (.host .newScript))
    (hdepth : ¬ depthLimit < site.depth) :
    engine limit (fuel + 1) .values (.call e site f args) w =
      match Scripts.create (engine limit fuel) ⟨e, site, none⟩ w with
      | .done v w' => .done [v] w'
      | .raised cause w' => .raised (.userdata (w'.heap e).nextUserdata) (w'.withError e cause)
      | @Outcome.starved _ _ w' => @Outcome.starved _ _ w' := by
  have hcall : engine limit (fuel + 1) .values (.call e site f args) w =
      callBuiltin limit (engine limit fuel) ⟨e, site, none⟩ (.host .newScript) args w :=
    Call.run_builtin hdepth hf
  have hhost : Interface.callHost (engine limit fuel) ⟨e, site, none⟩ .newScript args =
      Scripts.create (engine limit fuel) ⟨e, site, none⟩ >>= fun v => pure [v] := rfl
  rw [hcall, callBuiltin, hhost, Boundary.in_script_apply, Act.bind_apply]
  cases Scripts.create (engine limit fuel) ⟨e, site, none⟩ w <;> rfl

theorem script_call (limit fuel : Nat) (site : Site) (args : List Value)
    (hf : (w.heap e).builtin? f = some (.host .newScript)) :
    w.ScriptCall e (engine limit fuel .values (.call e site f args) w) := by
  cases fuel with
  | zero => exact ⟨fun _ _ hdone => (nomatch hdone), fun _ _ hraised => (nomatch hraised)⟩
  | succ fuel =>
    by_cases hdepth : depthLimit < site.depth
    · rw [call_overflow hdepth]
      refine ⟨fun _ _ hdone => (nomatch hdone), fun v w' hraised => ?_⟩
      obtain ⟨rfl, rfl⟩ := Outcome.raised.inj hraised
      exact ⟨[], List.not_mem_nil, fun i hi => absurd hi List.not_mem_nil, .nil w⟩
    · have hlawful := course_chronicled.lawful_engine limit fuel
      obtain ⟨hreturned, hraised⟩ := Scripts.create_chronicled (s := ⟨e, site, none⟩) hlawful
        (World.allocated_of_builtin hf)
      rw [call_newScript hf hdepth]
      cases hcreate : Scripts.create (engine limit fuel) ⟨e, site, none⟩ w with
      | done v w₁ =>
        refine ⟨fun values w' hdone => ?_, fun _ _ hends => (nomatch hends)⟩
        obtain ⟨rfl, rfl⟩ := Outcome.done.inj hdone
        obtain ⟨l, u, rfl, hl, hchronicle⟩ := hreturned v w₁ hcreate
        exact ⟨l, u, rfl, hl, hchronicle⟩
      | raised cause w₁ =>
        refine ⟨fun _ _ hdone => (nomatch hdone), fun v w' hends => ?_⟩
        obtain ⟨rfl, rfl⟩ := Outcome.raised.inj hends
        obtain ⟨l, hunmade, hl, hchronicle⟩ := hraised cause w₁ hcreate
        -- the error is one more object of the script that called, and no event
        exact ⟨l, hunmade, hl, hchronicle.before (.with_error w₁ e cause)⟩
      | starved => exact ⟨fun _ _ hdone => (nomatch hdone), fun _ _ hends => (nomatch hends)⟩

end Engine

/-! Methods of handles. -/

namespace World

structure Untouched (w w' : World) : Prop where
  outside : { w' with environments := w.environments } = w
  tables (x : EnvironmentId) : (w'.heap x).tables = (w.heap x).tables
  global (x : EnvironmentId) (key : Value) : w'.global x key = w.global x key

theorem untouched_withError (w : World) (e : EnvironmentId) (cause : HostError) :
    w.Untouched (w.withError e cause) where
  outside := rfl
  tables x := w.part_modifyEnvironment e x (·.heap.tables) _ fun _ => rfl
  global x key := w.part_modifyEnvironment e x (fun y => y.heap.rawGet y.globals key) _ fun _ => rfl

def RefusesHandle (w : World) (e : EnvironmentId) (o : Outcome Value (List Value)) : Prop :=
  ∃ v w', o = .raised v w' ∧ w.Untouched w' ∧
    (Conversion.hostError? (w'.heap e) v).bind HostError.scriptError? = some .invalidHandle

theorem refuses_withError {w : World} {e : EnvironmentId} (he : w.Allocated e) :
    w.RefusesHandle e (.raised (.userdata (w.heap e).nextUserdata)
      (w.withError e (.script .invalidHandle))) := by
  refine ⟨_, _, rfl, w.untouched_withError e _, ?_⟩
  have herror : Conversion.hostError? ((w.withError e (.script .invalidHandle)).heap e)
      (.userdata (w.heap e).nextUserdata) = some (.callback (.script .invalidHandle)) := by
    unfold Conversion.hostError? Conversion.payload?
    rw [withError, w.heap_modifyHeap e he]
    simp [Lua.Heap.userdata?, Lua.Heap.addUserdata, Lua.Heap.nextUserdata]
  rw [herror]
  rfl

end World

namespace Scripts

variable {run : Evaluator} {e s : EnvironmentId} {u : UserdataId} {site : Site} {w : World}
  {v v' : Value} {name value : String} {rest : List Value}

theorem receiver_of_leads (hlead : w.Leads e u s) (rest : List Value) :
    receiver (w.heap e) (.userdata u :: rest) = .ok s := by
  unfold receiver
  dsimp only
  rw [hlead]

theorem runArguments_of_leads (hlead : w.Leads e u s)
    (hname : Conversion.toText (w.heap e) v = .ok name) :
    runArguments (.userdata u :: v :: rest) (w.heap e) = .ok (s, name) := by
  have htext : textArgument (.userdata u :: v :: rest) 2 (w.heap e) = .ok name :=
    congrArg (Except.mapError _) hname
  unfold runArguments
  rw [receiver_of_leads hlead, htext]
  rfl

theorem variableArguments_of_leads (hlead : w.Leads e u s)
    (hname : Conversion.toText (w.heap e) v = .ok name)
    (hvalue : Conversion.toText (w.heap e) v' = .ok value) :
    variableArguments (.userdata u :: v :: v' :: rest) (w.heap e) = .ok (s, name, value) := by
  have hfirst : textArgument (.userdata u :: v :: v' :: rest) 2 (w.heap e) = .ok name :=
    congrArg (Except.mapError _) hname
  have hsecond : textArgument (.userdata u :: v :: v' :: rest) 3 (w.heap e) = .ok value :=
    congrArg (Except.mapError _) hvalue
  unfold variableArguments
  rw [receiver_of_leads hlead, hfirst, hsecond]
  rfl

/-- A module that fails in a sub-script leaves an error line, and is no failure of the method. -/
theorem visiting_present (hpresent : w.isPresent s) :
    visiting run ⟨e, site, none⟩ s name w =
      match Loading.runLocalized run s (siteInside ⟨e, site, none⟩) name (w.hold s) with
      | .done _ w' => .done true (w'.unhold s)
      | .raised message w' => .done false ((w'.addError message).unhold s)
      | @Outcome.starved _ _ w' => @Outcome.starved _ _ w' := by
  unfold visiting
  rw [reaching_present hpresent, Act.between_apply, Headless.checked_apply]
  cases Loading.runLocalized run s (siteInside ⟨e, site, none⟩) name (w.hold s) <;> rfl

end Scripts

/-- What becomes of the methods of a handle. -/
structure World.HandleLaw (w : World) (e : EnvironmentId) (u : UserdataId) (s : EnvironmentId) :
    Prop where
  run_refused (limit fuel : Nat) (site : Site) (f v : Value) (rest : List Value) (name : String) :
    (w.heap e).builtin? f = some (.handle .run) → ¬ depthLimit < site.depth →
    Conversion.toText (w.heap e) v = .ok name → ¬ w.isPresent s →
      w.RefusesHandle e
        (engine limit (fuel + 1) .values (.call e site f (.userdata u :: v :: rest)) w)
  set_refused (limit fuel : Nat) (site : Site) (f v v' : Value) (rest : List Value)
    (name value : String) :
    (w.heap e).builtin? f = some (.handle .setVariable) → ¬ depthLimit < site.depth →
    Conversion.toText (w.heap e) v = .ok name → Conversion.toText (w.heap e) v' = .ok value →
    ¬ w.isPresent s →
      w.RefusesHandle e
        (engine limit (fuel + 1) .values (.call e site f (.userdata u :: v :: v' :: rest)) w)
  /-- The module is run in the sub-script; whether it failed is the result, and a failure a line. -/
  runs (limit fuel : Nat) (site : Site) (f v : Value) (rest : List Value) (name : String) :
    (w.heap e).builtin? f = some (.handle .run) → ¬ depthLimit < site.depth →
    Conversion.toText (w.heap e) v = .ok name → w.isPresent s →
      engine limit (fuel + 1) .values (.call e site f (.userdata u :: v :: rest)) w =
        match Loading.runLocalized (engine limit fuel) s ⟨site.depth + 1, []⟩ name (w.hold s) with
        | .done _ w' => .done [.boolean true] (w'.unhold s)
        | .raised message w' => .done [.boolean false] ((w'.addError message).unhold s)
        | @Outcome.starved _ _ w' => @Outcome.starved _ _ w'
  sets (limit fuel : Nat) (site : Site) (f v v' : Value) (rest : List Value)
    (name value : String) :
    (w.heap e).builtin? f = some (.handle .setVariable) → ¬ depthLimit < site.depth →
    Conversion.toText (w.heap e) v = .ok name → Conversion.toText (w.heap e) v' = .ok value →
    w.isPresent s →
      engine limit (fuel + 1) .values (.call e site f (.userdata u :: v :: v' :: rest)) w =
        match Boundary.setGlobal (engine limit fuel) s ⟨site.depth + 1, []⟩ name
          (Conversion.ofText value) (w.hold s) with
        | .done _ w' => .done [] (w'.unhold s)
        | .raised cause w' => .raised (.userdata ((w'.unhold s).heap e).nextUserdata)
          ((w'.unhold s).withError e cause)
        | @Outcome.starved _ _ w' => @Outcome.starved _ _ w'

section Methods

variable {limit fuel : Nat} {e s : EnvironmentId} {u : UserdataId} {site : Site} {f v v' : Value}
  {rest : List Value} {name value : String} {w : World}

/-- A call of `run` by a handle visits the sub-script. -/
theorem Engine.call_run (hlead : w.Leads e u s)
    (hf : (w.heap e).builtin? f = some (.handle .run)) (hdepth : ¬ depthLimit < site.depth)
    (hname : Conversion.toText (w.heap e) v = .ok name) :
    engine limit (fuel + 1) .values (.call e site f (.userdata u :: v :: rest)) w =
      Boundary.inScript e (Scripts.visiting (engine limit fuel) ⟨e, site, none⟩ s name >>= fun ok =>
        pure [.boolean ok]) w := by
  have hrun : Scripts.runModule (engine limit fuel) ⟨e, site, none⟩ (.userdata u :: v :: rest) w =
      Scripts.visiting (engine limit fuel) ⟨e, site, none⟩ s name w :=
    Scripts.runModule_apply (s := ⟨e, site, none⟩) (Scripts.runArguments_of_leads hlead hname)
  rw [call_method hf hdepth]
  refine Boundary.in_script_congr ?_
  rw [Interface.callHandle, Act.bind_apply, Act.bind_apply, hrun]

theorem Engine.call_setVariable (hlead : w.Leads e u s)
    (hf : (w.heap e).builtin? f = some (.handle .setVariable)) (hdepth : ¬ depthLimit < site.depth)
    (hname : Conversion.toText (w.heap e) v = .ok name)
    (hvalue : Conversion.toText (w.heap e) v' = .ok value) :
    engine limit (fuel + 1) .values (.call e site f (.userdata u :: v :: v' :: rest)) w =
      Boundary.inScript e (Scripts.assigning (engine limit fuel) ⟨e, site, none⟩ s name value >>=
        fun _ => pure []) w := by
  have hset : Scripts.setVariable (engine limit fuel) ⟨e, site, none⟩
      (.userdata u :: v :: v' :: rest) w =
        Scripts.assigning (engine limit fuel) ⟨e, site, none⟩ s name value w :=
    Scripts.setVariable_apply (s := ⟨e, site, none⟩)
      (Scripts.variableArguments_of_leads hlead hname hvalue)
  rw [call_method hf hdepth]
  refine Boundary.in_script_congr ?_
  rw [Interface.callHandle, Act.bind_apply, Act.bind_apply, hset]

theorem World.Leads.handle_law (hlead : w.Leads e u s) : w.HandleLaw e u s where
  run_refused limit fuel site f v rest name hf hdepth hname habsent := by
    rw [Engine.call_run hlead hf hdepth hname, Boundary.in_script_apply, Act.bind_apply]
    unfold Scripts.visiting
    rw [Scripts.reaching_absent habsent]
    exact World.refuses_withError hlead.allocated
  set_refused limit fuel site f v v' rest name value hf hdepth hname hvalue habsent := by
    rw [Engine.call_setVariable hlead hf hdepth hname hvalue, Boundary.in_script_apply,
      Act.bind_apply]
    unfold Scripts.assigning
    rw [Scripts.reaching_absent habsent]
    exact World.refuses_withError hlead.allocated
  runs limit fuel site f v rest name hf hdepth hname hpresent := by
    have hsite : Scripts.siteInside ⟨e, site, none⟩ = ⟨site.depth + 1, []⟩ := rfl
    rw [Engine.call_run hlead hf hdepth hname, Boundary.in_script_apply, Act.bind_apply,
      Scripts.visiting_present hpresent, hsite]
    cases Loading.runLocalized (engine limit fuel) s ⟨site.depth + 1, []⟩ name (w.hold s) <;> rfl
  sets limit fuel site f v v' rest name value hf hdepth hname hvalue hpresent := by
    rw [Engine.call_setVariable hlead hf hdepth hname hvalue, Boundary.in_script_apply,
      Act.bind_apply]
    have hsite : Scripts.siteInside ⟨e, site, none⟩ = ⟨site.depth + 1, []⟩ := rfl
    unfold Scripts.assigning
    rw [Scripts.reaching_present hpresent, Act.between, hsite]
    cases Boundary.setGlobal (engine limit fuel) s ⟨site.depth + 1, []⟩ name
      (Conversion.ofText value) (w.hold s) <;> rfl

end Methods

/-- The world is that of some moment of a run in which the host adds no environment to the session by
itself. -/
def World.Arises (w : World) (config : Config) (library : Library) : Prop :=
  ∃ steps stop limit fuel, (∀ e, .give e ∉ steps) ∧
    (Host.performAll (stopped stop limit fuel) [] steps (World.new config library)).world = w

/-- Sub-scripts are owned by the session, and handles to them are weak. Whatever is run has a
chronicle, and at each moment every chronicle gives account of the sub-scripts that the session
owns and of the handles that are of use. A call of `Script` adds its own sub-script just if it
gives a handle. A handle whose sub-script is gone is refused at no other cost; by one whose
sub-script is there, modules are run and variables set, and a module that fails leaves one error
line. -/
theorem sub_scripts_follow_their_chronicle :
    (∀ config library (w : World), w.Arises config library →
      (∃ l, Chronicle (World.new config library) l w) ∧
      ∀ l, Chronicle (World.new config library) l w → w.Account l) ∧
    (∀ limit fuel e site f args (w : World), (w.heap e).builtin? f = some (.host .newScript) →
      w.ScriptCall e (engine limit fuel .values (.call e site f args) w)) ∧
    ∀ (w : World) e u s, w.Leads e u s → w.HandleLaw e u s := by
  refine ⟨?_, ?_, ?_⟩
  · rintro config library w ⟨steps, stop, limit, fuel, hsteps, rfl⟩
    have hready := Host.ready_new config library
    have hrun := Host.advanced_performAll (Engine.lawful_stopped stop limit fuel) steps []
      (World.new config library)
    refine ⟨Host.chronicle_performAll stop limit fuel hsteps hready, fun l hl => ?_⟩
    exact hl.account (hrun.orderly hready)
  · exact fun limit fuel e site f args w hf => Engine.script_call limit fuel site args hf
  · exact fun w e u s hlead => hlead.handle_law

abbrev World.released : World :=
  (Host.performAll (stopped (fun _ _ _ => false) 10 10) []
    [.create, .ask ⟨0⟩ (.callGlobal "Script" []), .clearScripts]
    (World.new { Config.default with bootstrap := [] } default)).world

/-- A handle to a sub-script that was released is refused; another sub-script can be made. -/
theorem handle_refused_after_release :
    (∀ l, Chronicle (World.new { Config.default with bootstrap := [] } default) l World.released →
      World.released.Account l) ∧
    World.released.ScriptCall ⟨0⟩
      (engine 10 10 .values (.call ⟨0⟩ .outside (.function ⟨109⟩) []) World.released) ∧
    World.released.RefusesHandle ⟨0⟩ (engine 1 1 .values
      (.call ⟨0⟩ .outside (.function ⟨85⟩) [.userdata ⟨0⟩, .text "a.lua"]) World.released) := by
  have hworld : (World.released.heap ⟨0⟩).builtin? (.function ⟨109⟩) = some (.host .newScript) ∧
      (World.released.heap ⟨0⟩).builtin? (.function ⟨85⟩) = some (.handle .run) ∧
      Conversion.payload? (World.released.heap ⟨0⟩) (.userdata ⟨0⟩) = some (.script ⟨1⟩) ∧
      ¬ World.released.isPresent ⟨1⟩ := by
    have hmade : Environments.create (stopped (fun _ _ _ => false) 10 10) .outside
        (World.new { Config.default with bootstrap := [] } default) =
        .done ⟨0⟩ (World.new { Config.default with bootstrap := [] } default).extended := rfl
    have hcreated : World.released = (Host.performAll (stopped (fun _ _ _ => false) 10 10) [⟨0⟩]
        [.ask ⟨0⟩ (.callGlobal "Script" []), .clearScripts]
        (World.new { Config.default with bootstrap := [] } default).extended).world := by
      rw [World.released, Host.performAll, Act.bind_apply, Host.HostStep.perform, Act.bind_apply,
        Act.attempt_apply, hmade]
      rfl
    rw [hcreated, World.extended_eq_listed]
    decide +kernel
  obtain ⟨hscript, hrun, hlead, habsent⟩ := hworld
  have hname : Conversion.toText (World.released.heap ⟨0⟩) (.text "a.lua") = .ok "a.lua" := rfl
  refine ⟨?_, ?_, ?_⟩
  · exact (sub_scripts_follow_their_chronicle.1 _ _ _ ⟨_, _, _, _, by simp, rfl⟩).2
  · exact sub_scripts_follow_their_chronicle.2.1 10 10 ⟨0⟩ .outside _ [] _ hscript
  · have hlaw := sub_scripts_follow_their_chronicle.2.2 World.released ⟨0⟩ ⟨0⟩ ⟨1⟩ hlead
    exact hlaw.run_refused 1 0 .outside _ _ [] "a.lua" hrun (by decide) hname habsent

end ScenarioHost
