import ScenarioHost.Proofs.Hosting
import ScenarioHost.Proofs.Lifetimes

/-!
Annals. What a host and scripts have in common, the catalog, the console and the session, changes by
few things only: changes of the session, printed lines, loading, and failures that are reported.
Annals list them in the order in which they happen, whichever environment they come from and however
deep in callbacks; everything else is silent. So what is common at any moment is read off the annals.
-/
namespace ScenarioHost

open Callbacks (Invocation Target)
open Headless (Attempt)
open Host (HostStep)
open Loading (Loader)
open Lua (Evaluator Site)

def Loading.Loader.asks (known : Bool) : Loader → Bool
  | .plain => false
  | .localized => true
  | .required => known

/-- What happens to the things that hosts and scripts have in common. -/
inductive Happening where
  | change (op : SessionOp)
  | print (text : String)
  /-- A module is asked for, which the library knows or not. -/
  | load (l : Loader) (path : String) (known : Bool)
  | begins (v : Invocation) (t : Target)
  | ends (v : Invocation) (t : Target) (failure : Option ScriptError)
  /-- An invocation finds nothing to invoke. -/
  | missed (v : Invocation)
  /-- An attempt fails, or the making of an environment. -/
  | failed (message : String)
  | sessionEnded
  /-- The host changes what is its own. -/
  | equipped (b : Host.Belongings)

/-- What all environments and the host have in common; the session counts without its sub-scripts,
which concern the environments alone. -/
structure Shared where
  config : Config
  library : Library
  catalog : Catalog
  console : Console
  session : Option Session

def World.shared (w : World) : Shared where
  config := w.config
  library := w.library
  catalog := w.catalog
  console := w.console
  session := w.session.map Session.dropScripts

namespace Happening

def asked? (language : String) : Happening → Option String
  | .load l path known =>
    if l.asks known then some (ModuleName.overlay (ModuleName.normalize path) language) else none
  | _ => none

def onCatalog (language : String) (h : Happening) (c : Catalog) : Catalog :=
  match h with
  | .equipped b => b.catalog
  | h =>
    match h.asked? language with
    | some name => (c.load name).2
    | none => c

def line? : Happening → Option ConsoleLine
  | .print text => some ⟨.info, text⟩
  | .ends _ t (some e) => some ⟨.error, t.label ++ ": " ++ e.message⟩
  | .failed message => some ⟨.error, message⟩
  | _ => none

def onConsole (h : Happening) (c : Console) : Console :=
  match h with
  | .equipped b => b.console
  | h =>
    match h.line? with
    | some line => c.push line
    | none => c

/-- The operation on the session. A reply is gone as soon as it is chosen. -/
def op? : Happening → Option SessionOp
  | .change op => some op
  | .begins (.reply ..) _ => some .beginReply
  | _ => none

def onSession (h : Happening) (s : Option Session) : Option Session :=
  match h with
  | .sessionEnded => none
  | h =>
    match h.op? with
    | some op => s.map op.apply
    | none => s

def onLibrary (h : Happening) (library : Library) : Library :=
  match h with
  | .equipped b => b.library
  | _ => library

def apply (h : Happening) (s : Shared) : Shared where
  config := s.config
  library := h.onLibrary s.library
  catalog := h.onCatalog s.config.language s.catalog
  console := h.onConsole s.console
  session := h.onSession s.session

end Happening

def Shared.replay (s : Shared) (l : List Happening) : Shared := l.foldl (fun s h => h.apply s) s

def Outcome.failing {ε α : Type} (text : ε → String) : Outcome ε α → List Happening
  | .raised e _ => [.failed (text e)]
  | _ => []

def Outcome.ending {α : Type} (v : Invocation) (t : Target) : Outcome ScriptError α → List Happening
  | .done _ _ => [.ends v t none]
  | .raised e _ => [.ends v t (some e)]
  | .starved => []

/-- What happened from a world to a moment, in order. What happens inside of an operation stands where
it happened, and an operation that has not come to its end is listed as far as it went. -/
inductive Annals (Carries : Evaluator → Prop) : World → List Happening → Moment → Prop where
  | silent {w w' : World} (h : w'.shared = w.shared) (settled : Bool) :
      Annals Carries w [] ⟨w', settled⟩
  | append {w w' : World} {m : Moment} {l l' : List Happening} :
      Annals Carries w l ⟨w', true⟩ → Annals Carries w' l' m → Annals Carries w (l ++ l') m
  | change (w : World) (op : SessionOp) :
      Annals Carries w [.change op] ⟨w.modifySession op.apply, true⟩
  | print (w : World) (text : String) : Annals Carries w [.print text] ⟨w.addLog text, true⟩
  | sessionEnded (w : World) : Annals Carries w [.sessionEnded] ⟨w.endSession, true⟩
  | equipped (w : World) (b : Host.Belongings) :
      Annals Carries w [.equipped b] ⟨Host.equipped w b, true⟩
  | unknown {run : Evaluator} (hrun : Carries run) (l : Loader) (env : EnvironmentId) (site : Site)
      {path : String} {w : World}
      (hpath : w.library.source? (ModuleName.normalize path) = none) :
      Annals Carries w [.load l path false] (l.perform run env site path w).moment
  | known {run : Evaluator} (hrun : Carries run) (l : Loader) {env : EnvironmentId} {site : Site}
      {path : String} {w : World} {source : Source} {inside : List Happening}
      (hpath : w.library.source? (ModuleName.normalize path) = some source)
      (h : Annals Carries (l.opened path w) inside
        (Loading.runSource run env site path source (l.opened path w)).moment) :
      Annals Carries w (.load l path true :: inside) (l.perform run env site path w).moment
  | missed {run : Evaluator} (hrun : Carries run) (site : Site) {v : Invocation} {w : World}
      (hv : v.target? w = none) : Annals Carries w [.missed v] (v.perform run site w).moment
  | invoked {run : Evaluator} (hrun : Carries run) {site : Site} {v : Invocation} {w : World}
      {t : Target} {inside : List Happening} (hv : v.target? w = some t)
      (h : Annals Carries (v.opened w) inside
        (Callbacks.invoke run site t.callback t.args (v.opened w)).moment) :
      Annals Carries w
        (.begins v t :: inside ++
          (Callbacks.invoke run site t.callback t.args (v.opened w)).ending v t)
        (v.perform run site w).moment
  | attempted {run : Evaluator} (hrun : Carries run) {env : EnvironmentId} {site : Site} (ε : Type)
      {t : Attempt} {w : World} {inside : List Happening}
      (h : Annals Carries w inside (t.perform run env site w).moment) :
      Annals Carries w (inside ++ (t.perform run env site w).failing id)
        ((Headless.checked (t.perform run env site) : Act ε Bool) w).moment
  | created {run : Evaluator} (hrun : Carries run) {site : Site} {w : World}
      {inside : List Happening}
      (h : Annals Carries w.extended inside
        (Environments.booting run site w.nextEnvironment w.extended).moment) :
      Annals Carries w
        (inside ++ (Environments.booting run site w.nextEnvironment w.extended).failing Prod.snd)
        (Environments.create run site w).moment

/-! What is in common after what happened. -/

theorem Shared.replay_append (s : Shared) (l l' : List Happening) :
    s.replay (l ++ l') = (s.replay l).replay l' := List.foldl_append

theorem Shared.replay_cons (s : Shared) (h : Happening) (l : List Happening) :
    s.replay (h :: l) = (h.apply s).replay l := rfl

theorem Shared.catalog_replay (s : Shared) (l : List Happening) :
    (s.replay l).catalog = l.foldl (fun c h => h.onCatalog s.config.language c) s.catalog := by
  induction l generalizing s with
  | nil => rfl
  | cons h l ih => exact ih (h.apply s)

theorem Shared.console_replay (s : Shared) (l : List Happening) :
    (s.replay l).console = l.foldl (fun c h => h.onConsole c) s.console :=
  (List.foldl_hom Shared.console fun _ _ => rfl).symm

theorem Shared.session_replay (s : Shared) (l : List Happening) :
    (s.replay l).session = l.foldl (fun s h => h.onSession s) s.session :=
  (List.foldl_hom Shared.session fun _ _ => rfl).symm

/-- A session that is there at last was there at first, and only operations changed it. -/
theorem Happening.session_of_foldl {l : List Happening} {o : Option Session} {s' : Session}
    (h : l.foldl (fun s h => h.onSession s) o = some s') :
    ∃ s, o = some s ∧ s' = (l.filterMap op?).foldl (fun s op => op.apply s) s := by
  -- a session that has ended never comes back, so it was there after each of the happenings
  induction l generalizing o with
  | nil => exact ⟨s', h, rfl⟩
  | cons first l ih =>
    obtain ⟨t, ht, rfl⟩ := ih h
    have hfirst : ∃ s, o = some s ∧ t = first.op?.elim s fun op => op.apply s := by
      cases first with
      | change op =>
        obtain ⟨s, hs, rfl⟩ := Option.map_eq_some_iff.mp ht
        exact ⟨s, hs, rfl⟩
      | begins v t =>
        cases v with
        | reply i source target =>
          obtain ⟨s, hs, rfl⟩ := Option.map_eq_some_iff.mp ht
          exact ⟨s, hs, rfl⟩
        | _ => exact ⟨_, ht, rfl⟩
      | sessionEnded => cases ht
      | _ => exact ⟨_, ht, rfl⟩
    obtain ⟨s, hs, rfl⟩ := hfirst
    refine ⟨s, hs, ?_⟩
    rw [List.filterMap_cons]
    cases first.op? <;> rfl

/-- Operations leave the sub-scripts of a session alone. -/
theorem SessionOp.apply_dropScripts (op : SessionOp) (s : Session) :
    (op.apply s).dropScripts = op.apply s.dropScripts := by
  cases op with
  | advance delta =>
    have hpaused : s.dropScripts.paused = s.paused := rfl
    simp only [SessionOp.apply, Session.advance, hpaused]
    cases s.paused || delta.nonpositive <;> rfl
  | _ => rfl

namespace World

theorem shared_modifySession (w : World) (op : SessionOp) :
    (w.modifySession op.apply).shared = { w.shared with session := w.shared.session.map op.apply } := by
  have hsession : (w.session.map op.apply).map Session.dropScripts =
      (w.session.map Session.dropScripts).map op.apply := by
    rw [Option.map_map, Option.map_map]
    exact congrArg (Option.map · w.session) (funext fun s => op.apply_dropScripts s)
  unfold shared modifySession
  rw [hsession]

theorem shared_clearScripts (w : World) : w.clearScripts.shared = w.shared := by
  have hrest : (w.clearScripts.config, w.clearScripts.library, w.clearScripts.catalog,
      w.clearScripts.console) = (w.config, w.library, w.catalog, w.console) :=
    same_clearScripts (fun w => (w.config, w.library, w.catalog, w.console)) (fun _ _ => rfl)
      (fun _ _ => rfl) w
  -- of the session, only what does not count here is dropped
  have hsession : w.clearScripts.session.map Session.dropScripts =
      w.session.map Session.dropScripts := by
    rw [session_clearScripts, Option.map_map]
    rfl
  simp only [Prod.mk.injEq] at hrest
  obtain ⟨hconfig, hlibrary, hcatalog, hconsole⟩ := hrest
  unfold shared
  rw [hconfig, hlibrary, hcatalog, hconsole, hsession]

theorem shared_letGo (w : World) (e : EnvironmentId) : (w.letGo e).shared = w.shared := by
  unfold letGo
  split <;> rfl

/-- The environments that belong to the session do not count here. -/
theorem shared_adding (w : World) (e : EnvironmentId) : (Host.adding w e).shared = w.shared := by
  change Shared.mk _ _ _ _ ((w.session.map _).map _) = Shared.mk _ _ _ _ _
  rw [Option.map_map]
  rfl

theorem shared_adopted (w : World) (e script : EnvironmentId) :
    (w.adopted e script).shared = w.shared := w.shared_adding script

theorem shared_giving (w : World) (e : EnvironmentId) : (Host.giving w e).shared = w.shared := by
  unfold Host.giving
  split
  · exact w.shared_adding e
  · rfl

theorem shared_endSession (w : World) : w.endSession.shared = { w.shared with session := none } :=
  congrArg (fun s : Shared => { s with session := none }) w.shared_clearScripts

end World

/-- What loading a module does before any of its code is compiled. -/
theorem Loading.Loader.shared_opened (l : Loader) (path : String) (w : World) :
    (l.opened path w).shared = (Happening.load l path true).apply w.shared := by
  cases l <;> rfl

theorem Loading.Loader.shared_refused (l : Loader) (path : String) (w : World) :
    (l.refused path w).shared = (Happening.load l path false).apply w.shared := by
  cases l <;> rfl

theorem Callbacks.Invocation.shared_opened (v : Invocation) (t : Target) (w : World) :
    (v.opened w).shared = (Happening.begins v t).apply w.shared := by
  cases v with
  | reply i source target => exact w.shared_modifySession .beginReply
  | _ => rfl

namespace Annals

variable {Carries : Evaluator → Prop} {w : World} {m : Moment} {l : List Happening}

/-- What is in common is what the annals make of what was. -/
theorem shared (h : Annals Carries w l m) : m.world.shared = w.shared.replay l := by
  -- on how the annals came about; `ih` is about what happened inside of an operation
  induction h with
  | silent h settled => exact h
  | append _ _ first second => rw [second, first, Shared.replay_append]
  | change w op => exact w.shared_modifySession op
  | print w text => rfl
  | sessionEnded w => exact w.shared_endSession
  | equipped w b => rfl
  | @unknown run _ l env site path w hpath =>
    rw [l.moment_of_unknown run env site path w hpath]
    exact l.shared_refused path w
  | @known run _ l env site path w source inside hpath _ ih =>
    rw [l.moment_of_known run env site path w hpath, ih, l.shared_opened]
    rfl
  | @missed run _ site v w hv =>
    rw [Callbacks.Invocation.perform_absent run site w hv]
    rfl
  | @invoked run _ site v w t inside hv _ ih =>
    rw [Callbacks.Invocation.perform_present run site w hv, Callbacks.report_apply,
      List.cons_append, Shared.replay_cons, ← v.shared_opened, Shared.replay_append, ← ih]
    -- what is left is the end of the invocation, which is there unless the callback is in progress
    cases Callbacks.invoke run site t.callback t.args (v.opened w) <;> rfl
  | @attempted run _ env site ε t w inside _ ih =>
    rw [Headless.checked_apply, Shared.replay_append, ← ih]
    cases t.perform run env site w <;> rfl
  | @created run _ site w inside _ ih =>
    have hextended : w.extended.shared = w.shared := rfl
    rw [Environments.create_eq, Environments.making_apply, Shared.replay_append, ← hextended, ← ih]
    cases Environments.booting run site w.nextEnvironment w.extended <;> rfl

theorem catalog (h : Annals Carries w l m) :
    m.world.catalog = l.foldl (fun c h => h.onCatalog w.config.language c) w.catalog :=
  (congrArg Shared.catalog h.shared).trans (Shared.catalog_replay ..)

theorem console (h : Annals Carries w l m) :
    m.world.console = l.foldl (fun c h => h.onConsole c) w.console :=
  (congrArg Shared.console h.shared).trans (Shared.console_replay ..)

theorem session (h : Annals Carries w l m) :
    m.world.session.map Session.dropScripts =
      l.foldl (fun s h => h.onSession s) (w.session.map Session.dropScripts) :=
  (congrArg Shared.session h.shared).trans (Shared.session_replay ..)

/-- A part of a session that is still there is what the operations made of it, in order. -/
theorem read_session {ε α β : Type} (part : Session → β) (change : SessionOp → β → β)
    (happly : ∀ op s, part (op.apply s) = change op (part s))
    (hdrop : ∀ s, part s.dropScripts = part s) {o : Outcome ε α} (h : Annals Carries w l o.moment)
    {s' : Session} (hs' : o.world.session = some s') :
    ∃ s, w.session = some s ∧
      part s' = (l.filterMap Happening.op?).foldl (fun a op => change op a) (part s) := by
  have hsession := h.session
  rw [o.world_moment, hs'] at hsession
  obtain ⟨t, ht, hreplayed⟩ := Happening.session_of_foldl hsession.symm
  obtain ⟨s, hs, rfl⟩ := Option.map_eq_some_iff.mp ht
  refine ⟨s, hs, ?_⟩
  -- annals know the session without its sub-scripts, which do not count for this part
  calc part s'
    _ = part s'.dropScripts := (hdrop s').symm
    _ = part ((l.filterMap Happening.op?).foldl (fun s op => op.apply s) s.dropScripts) := by
      rw [hreplayed]
    _ = (l.filterMap Happening.op?).foldl (fun a op => change op a) (part s.dropScripts) :=
      (List.foldl_hom part fun s op => (happly op s).symm).symm
    _ = (l.filterMap Happening.op?).foldl (fun a op => change op a) (part s) := by rw [hdrop]

end Annals

/-! Annals are kept of everything that is done. -/

def Happening.ByScripts : Happening → Prop
  | .change op => op.OpenTo .host
  | .sessionEnded => False
  | .equipped _ => False
  | _ => True

def Happening.Permitted (P : Affair → Prop) : Happening → Prop
  | .change op => P (.session op)
  | .load l _ _ => l ≠ .plain → P .overlay
  | .begins v _ => v.IsReply → P (.session .beginReply)
  | _ => True

theorem Happening.Permitted.op {P : Affair → Prop} {h : Happening} {op : SessionOp}
    (hh : h.Permitted P) (hop : h.op? = some op) : P (.session op) := by
  cases h with
  | change op' =>
    obtain rfl : op' = op := Option.some.inj hop
    exact hh
  | begins v t =>
    cases v with
    | reply i source target =>
      obtain rfl : SessionOp.beginReply = op := Option.some.inj hop
      exact hh trivial
    | _ => cases hop
  | _ => cases hop

def Happening.ByCode (P : Affair → Prop) (h : Happening) : Prop := h.ByScripts ∧ h.Permitted P

def Host.HostStep.happening? : HostStep → Option Happening
  | .session op => some (.change op)
  | .endSession => some .sessionEnded
  | .equip b => some (.equipped b)
  | _ => none

def Happening.ByHost (steps : List HostStep) (h : Happening) : Prop :=
  h.ByScripts ∨ ∃ s ∈ steps, s.happening? = some h

/-- What the host owns is only exchanged where one of the steps does that. -/
theorem Happening.not_equipped {l : List Happening} {steps : List HostStep}
    (hl : ∀ h ∈ l, h.ByHost steps) (hsteps : ∀ b, .equip b ∉ steps) (b : Host.Belongings) :
    .equipped b ∉ l := by
  intro hb
  rcases hl _ hb with hscripts | ⟨s, hs, hown⟩
  · exact hscripts
  · cases s with
    | equip belongings =>
      obtain rfl : belongings = b := Happening.equipped.inj (Option.some.inj hown)
      exact hsteps _ hs
    | _ => cases hown

/-- Scripts never do that. -/
theorem Happening.not_equipped_by_scripts {l : List Happening} (hl : ∀ h ∈ l, h.ByScripts)
    (b : Host.Belongings) : .equipped b ∉ l := fun hb => hl _ hb

theorem Outcome.ending_by_code (P : Affair → Prop) {α : Type} (v : Invocation) (t : Target)
    (o : Outcome ScriptError α) : ∀ h ∈ o.ending v t, h.ByCode P := by
  cases o with
  | starved => exact fun h hh => absurd hh List.not_mem_nil
  | _ => exact List.forall_mem_singleton.mpr ⟨trivial, trivial⟩

theorem Outcome.failing_by_code (P : Affair → Prop) {ε α : Type} (text : ε → String)
    (o : Outcome ε α) : ∀ h ∈ o.failing text, h.ByCode P := by
  cases o with
  | raised e w => exact List.forall_mem_singleton.mpr ⟨trivial, trivial⟩
  | _ => exact fun h hh => absurd hh List.not_mem_nil

theorem Happening.ByScripts.session {h : Happening} (hh : h.ByScripts) {s : Option Session}
    (hs : s.isSome) : (h.onSession s).isSome := by
  cases h with
  | change op => exact Option.isSome_map.trans hs
  | begins v t =>
    cases v with
    | reply i source target => exact Option.isSome_map.trans hs
    | _ => exact hs
  | sessionEnded => exact hh.elim
  | _ => exact hs

/-- Scripts cannot end the session. -/
theorem Annals.session_stays {ε α : Type} {Carries : Evaluator → Prop} {w : World}
    {o : Outcome ε α} {l : List Happening} (h : Annals Carries w l o.moment)
    (hl : ∀ i ∈ l, i.ByScripts) (hw : w.session.isSome) : o.world.session.isSome := by
  have hfold : (l.foldl (fun s i => i.onSession s) (w.session.map Session.dropScripts)).isSome :=
    List.foldlRecOn (motive := fun s => s.isSome) l (fun s i => i.onSession s)
      (Option.isSome_map.trans hw) fun _ hs i hi => (hl i hi).session hs
  have hsession := h.session
  rw [o.world_moment] at hsession
  rwa [← hsession, Option.isSome_map] at hfold

/-- So a part of the session can be read at any moment of what scripts do. -/
theorem Annals.read_by_scripts {ε α β : Type} {Carries : Evaluator → Prop} {w : World}
    {o : Outcome ε α} {l : List Happening} (part : Session → β) (change : SessionOp → β → β)
    (happly : ∀ op s, part (op.apply s) = change op (part s))
    (hdrop : ∀ s, part s.dropScripts = part s) (h : Annals Carries w l o.moment)
    (hl : ∀ i ∈ l, i.ByScripts) {s : Session} (hs : w.session = some s) :
    ∃ s', o.world.session = some s' ∧
      part s' = (l.filterMap Happening.op?).foldl (fun a op => change op a) (part s) := by
  have hstays := h.session_stays hl (Option.isSome_of_eq_some hs)
  obtain ⟨s', hs'⟩ := Option.isSome_iff_exists.mp hstays
  obtain ⟨s₀, hs₀, hpart⟩ := h.read_session part change happly hdrop hs'
  obtain rfl : s = s₀ := Option.some.inj (hs.symm.trans hs₀)
  exact ⟨s', hs', hpart⟩

/-- A part of the session stays that no permitted affair concerns. -/
theorem Annals.part_stays {ε α β : Type} {Carries : Evaluator → Prop} {P : Affair → Prop}
    {w : World} {o : Outcome ε α} {l : List Happening} (part : Session → β)
    (hpart : ∀ op, P (.session op) → ∀ s, part (op.apply s) = part s)
    (hdrop : ∀ s, part s.dropScripts = part s) (h : Annals Carries w l o.moment)
    (hl : ∀ i ∈ l, i.ByCode P) {s : Session} (hs : w.session = some s) :
    ∃ s', o.world.session = some s' ∧ part s' = part s := by
  obtain ⟨s', hs', hreplayed⟩ := h.read_by_scripts Session.dropScripts SessionOp.apply
    SessionOp.apply_dropScripts (fun _ => rfl) (fun i hi => (hl i hi).1) hs
  have hfold : part ((l.filterMap Happening.op?).foldl (fun t op => op.apply t) s.dropScripts) =
      part s.dropScripts := by
    refine List.foldlRecOn (motive := fun t => part t = part s.dropScripts) _ _ rfl ?_
    intro t ht op hop
    obtain ⟨i, hi, hop⟩ := List.mem_filterMap.mp hop
    exact (hpart op ((hl i hi).2.op hop) t).trans ht
  refine ⟨s', hs', ?_⟩
  rw [← hdrop s', hreplayed, hfold, hdrop]

def Recorded (Carries : Evaluator → Prop) (S : Happening → Prop) (settled : Bool)
    (w w' : World) : Prop :=
  ∃ l, (∀ h ∈ l, S h) ∧ Annals Carries w l ⟨w', settled⟩

namespace Recorded

variable {Carries : Evaluator → Prop} {S S' : Happening → Prop} {w w' w'' : World} {settled : Bool}

theorem of_shared (h : w'.shared = w.shared) : Recorded Carries S settled w w' :=
  ⟨[], fun _ hi => absurd hi List.not_mem_nil, .silent h settled⟩

theorem of_one {i : Happening} (h : Annals Carries w [i] ⟨w', settled⟩) (hi : S i) :
    Recorded Carries S settled w w' := ⟨[i], List.forall_mem_singleton.mpr hi, h⟩

theorem refl (w : World) : Recorded Carries S settled w w := of_shared rfl

theorem trans (h : Recorded Carries S true w w') (h' : Recorded Carries S settled w' w'') :
    Recorded Carries S settled w w'' := by
  obtain ⟨before, hbefore, first⟩ := h
  obtain ⟨after, hafter, second⟩ := h'
  exact ⟨before ++ after, List.forall_mem_append.mpr ⟨hbefore, hafter⟩, first.append second⟩

theorem weaken (h : Recorded Carries S settled w w') (hS : ∀ i, S i → S' i) :
    Recorded Carries S' settled w w' := by
  obtain ⟨l, hl, hannals⟩ := h
  exact ⟨l, fun i hi => hS i (hl i hi), hannals⟩

theorem of_deed {P : Affair → Prop} {a : Agent} {f : World → World} (h : Deed P a w f) :
    Recorded Carries (Happening.ByCode P) true w (f w) := by
  cases h with
  | session w op hopen hop =>
    refine of_one (.change w op) ⟨?_, hop⟩
    cases a with
    | host => exact hopen
    | code e => exact .inl hopen
  | print a w message => exact of_one (.print w message) ⟨trivial, trivial⟩
  | clearScripts w => exact of_shared w.shared_clearScripts
  | letGo w e => exact of_shared (w.shared_letGo e)
  | _ => exact of_shared rfl

theorem of_change {e : EnvironmentId} {f : World → World} (h : Change e w f) :
    Recorded Carries S true w (f w) := by
  cases h with
  | _ => exact of_shared rfl

theorem of_draw (w : World) : Recorded Carries S true w w.draw.2 := by
  have hseed (seed : UInt64) : Recorded Carries S true w { w with seed := seed } := of_shared rfl
  exact hseed _

instance : Progress (Recorded Carries S true) (Recorded Carries S false) :=
  ⟨refl, trans, refl, trans⟩

/-- What an action keeps, whether or not it comes to its end. -/
theorem upholds_iff {ε α : Type} {o : Outcome ε α} :
    o.Upholds (Recorded Carries S true) (Recorded Carries S false) (fun _ => True) w ↔
      ∃ l, (∀ h ∈ l, S h) ∧ Annals Carries w l o.moment := by
  cases o with
  | done a w' => exact and_iff_left trivial
  | raised e w' => exact Iff.rfl
  | starved => exact Iff.rfl

/-- What is done in an environment that is entered or held. -/
theorem between {ε α : Type} {Q : α → Prop} {x : Act ε α} {first last : World → World}
    (hx : (x (first w)).Upholds (Recorded Carries S true) (Recorded Carries S false) Q (first w))
    (hfirst : ∀ w : World, (first w).shared = w.shared)
    (hlast : ∀ w : World, (last w).shared = w.shared) :
    (Act.between first last x w).Upholds (Recorded Carries S true) (Recorded Carries S false) Q
      w := by
  refine Act.upholds_between hx ?_ ?_
  · intro w' hw
    exact ((of_shared (hfirst w)).trans hw).trans (of_shared (hlast w'))
  · intro w' hw
    exact (of_shared (hfirst w)).trans hw

/-- That the session and a script take over what was made for them is no happening by itself. -/
theorem adopting {e : EnvironmentId} {x : Act String EnvironmentId}
    (h : ∃ l, (∀ h ∈ l, S h) ∧ Annals Carries w l (x w).moment) :
    ∃ l, (∀ h ∈ l, S h) ∧ Annals Carries w l (Scripts.adopting e x w).moment := by
  obtain ⟨l, hl, hannals⟩ := h
  rw [Scripts.adopting_apply]
  cases hx : x w with
  | done script w' =>
    rw [hx] at hannals
    refine ⟨l ++ [], ?_, hannals.append (.silent (w'.shared_adopted e script) true)⟩
    rwa [List.append_nil]
  | raised message w' =>
    rw [hx] at hannals
    exact ⟨l, hl, hannals⟩
  | starved =>
    rw [hx] at hannals
    exact ⟨l, hl, hannals⟩

end Recorded

section Recording

variable (Carries : Evaluator → Prop) (P : Affair → Prop)

def Rules.recording : Rules where
  law _ := .keeping (Recorded Carries (Happening.ByCode P) true)
    (Recorded Carries (Happening.ByCode P) false)
  Free _ := True
  free_host := trivial
  Permits := P
  look {_} _ _ _ _ _ _ _ _ _ h := h
  view {_} _ _ _ _ _ _ _ _ _ _ h := h
  deed h := ⟨.of_deed h, trivial⟩
  change _ h := ⟨.of_change h, trivial⟩
  draw _ _ w := ⟨.of_draw w, trivial⟩
  drive _ h := h
  invoke _ h := Recorded.between h (fun _ => rfl) fun _ => rfl
  visit _ _ h := Recorded.between h (fun _ => rfl) fun _ => rfl

def Regime.recording : Regime where
  toRules := .recording Carries P
  Carries := Carries
  load {run _ e site path} hrun h l hl := by
    constructor
    intro w
    refine Recorded.upholds_iff.mpr ?_
    cases hpath : w.library.source? (ModuleName.normalize path) with
    | none =>
      have hload : (Happening.load l path false).ByCode P := ⟨trivial, hl⟩
      exact ⟨_, List.forall_mem_singleton.mpr hload, .unknown hrun l e site hpath⟩
    | some source =>
      have hload : (Happening.load l path true).ByCode P := ⟨trivial, hl⟩
      obtain ⟨inside, hscripts, hinside⟩ :=
        Recorded.upholds_iff.mp ((h source).holds (l.opened path w))
      exact ⟨_, List.forall_mem_cons.mpr ⟨hload, hscripts⟩, .known hrun l hpath hinside⟩
  invocation {run _ site} hrun h v hreply := by
    constructor
    intro w
    refine Recorded.upholds_iff.mpr ?_
    cases hv : v.target? w with
    | none =>
      have hmissed : (Happening.missed v).ByCode P := ⟨trivial, trivial⟩
      exact ⟨_, List.forall_mem_singleton.mpr hmissed, .missed hrun site hv⟩
    | some t =>
      have hbegins : (Happening.begins v t).ByCode P := ⟨trivial, hreply⟩
      obtain ⟨inside, hscripts, hinside⟩ :=
        Recorded.upholds_iff.mp ((h t.callback t.args).holds (v.opened w))
      exact ⟨_, List.forall_mem_append.mpr
        ⟨List.forall_mem_cons.mpr ⟨hbegins, hscripts⟩, Outcome.ending_by_code P v t _⟩,
        .invoked hrun hv hinside⟩
  attempt {run _ e site ε t} hrun h := by
    constructor
    intro w
    obtain ⟨inside, hscripts, hinside⟩ := Recorded.upholds_iff.mp (h.holds w)
    exact Recorded.upholds_iff.mpr ⟨_, List.forall_mem_append.mpr
      ⟨hscripts, Outcome.failing_by_code P id _⟩, .attempted hrun ε hinside⟩
  adopt {run _ e site w} hrun _ _ h := by
    obtain ⟨inside, hscripts, hinside⟩ := Recorded.upholds_iff.mp h
    exact Recorded.upholds_iff.mpr (Recorded.adopting ⟨_, List.forall_mem_append.mpr
      ⟨hscripts, Outcome.failing_by_code P Prod.snd _⟩, .created hrun hinside⟩)

/-- Besides what scripts bring about there is what the host does by itself. -/
theorem Regime.recording_hosting (steps : List HostStep) :
    (recording Carries fun _ => True).Hosting
      (.keeping (Recorded Carries (Happening.ByHost steps) true)
        (Recorded Carries (Happening.ByHost steps) false))
      (fun _ _ => True) (· ∈ steps) where
  permits _ := trivial
  serve h := h.imp (fun _ h => h.weaken fun _ hi => .inl hi.1)
    (fun _ h => h.weaken fun _ hi => .inl hi.1) fun _ => id
  command _ _ h := h.imp (fun _ h => h.weaken fun _ hi => .inl hi.1)
    (fun _ h => h.weaken fun _ hi => .inl hi.1) fun _ => id
  session w op hop := ⟨.of_one (.change w op) (.inr ⟨_, hop, rfl⟩), trivial⟩
  advance _ _ w delta :=
    ⟨.of_one (.change w (.advance delta)) ⟨.inr ⟨delta, rfl⟩, trivial⟩, trivial⟩
  make hrun h := by
    obtain ⟨inside, hcode, hinside⟩ := Recorded.upholds_iff.mp h
    refine Recorded.upholds_iff.mpr ⟨_, fun i hi => .inl ?_, .created hrun hinside⟩
    exact (List.forall_mem_append.mpr
      ⟨hcode, Outcome.failing_by_code (fun _ => True) Prod.snd _⟩ i hi).1
  destroy _ := ⟨.of_shared rfl, trivial⟩
  controls _ _ _ _ := ⟨.of_shared rfl, trivial⟩
  lend _ := ⟨.of_shared rfl, trivial⟩
  give _ _ := ⟨.of_shared (World.shared_giving ..), trivial⟩
  endSession h w := ⟨.of_one (.sessionEnded w) (.inr ⟨_, h, rfl⟩), trivial⟩
  equip {b _} hb w := ⟨.of_one (.equipped w b) (.inr ⟨_, hb, rfl⟩), trivial⟩

end Recording

namespace Engine

def StoppedBy (stop : (k : Lua.Kind) → Lua.Task k → World → Bool) (run : Evaluator) : Prop :=
  ∃ limit fuel, run = stopped stop limit fuel

def Minds (P : Affair → Prop) (stop : (k : Lua.Kind) → Lua.Task k → World → Bool) : Prop :=
  ∀ k t w b affair, Calls w b t → b ∈ affair.functions → ¬ P affair → stop k t w = true

def StopsAt (functions : List Builtin) (stop : (k : Lua.Kind) → Lua.Task k → World → Bool) :
    Prop := ∀ k t w, ∀ b ∈ functions, Calls w b t → stop k t w = true

/-- That is enough where no other functions do what is not permitted. -/
theorem StopsAt.minds {functions : List Builtin} {P : Affair → Prop}
    {stop : (k : Lua.Kind) → Lua.Task k → World → Bool} (h : StopsAt functions stop)
    (hothers : ∀ affair, ¬ P affair → affair.functions ⊆ functions) : Minds P stop :=
  fun k t w _ affair hcalls hfunctions hnot => h k t w _ (hothers affair hnot hfunctions) hcalls

end Engine

section Runs

variable (stop : (k : Lua.Kind) → Lua.Task k → World → Bool) (limit fuel : Nat)

theorem Engine.stopped_recorded {P : Affair → Prop} (hstop : Minds P stop) :
    (Regime.recording (StoppedBy stop) P).Lawful (stopped stop limit fuel)
      (engine limit fuel) := by
  refine stopped_lawful_engine ?_ limit fuel
  constructor
  · exact fun limit fuel => ⟨limit, fuel, rfl⟩
  · exact fun _ _ _ hfree => absurd trivial hfree
  · exact fun _ _ _ _ _ hfree => absurd trivial hfree
  · exact hstop

theorem Engine.minds_all : Minds (fun _ => True) stop :=
  fun _ _ _ _ _ _ _ hpermits => absurd trivial hpermits

/-- Whatever a host does, annals of it are kept up to every moment. -/
theorem Host.annals_performAll (held : List EnvironmentId) (steps : List HostStep) (w : World) :
    ∃ l, (∀ h ∈ l, h.ByHost steps) ∧ Annals (Engine.StoppedBy stop) w l
      (performAll (Engine.stopped stop limit fuel) held steps w).moment := by
  have hfree (s : HostStep) : s.Free (Regime.recording (Engine.StoppedBy stop) fun _ => True) := by
    cases s with
    | _ => trivial
  have hruns := law_performAll (Regime.recording_hosting (Engine.StoppedBy stop) steps)
    (Engine.stopped_recorded stop limit fuel (Engine.minds_all stop)) (fun _ _ => trivial) held
    steps (fun s _ => hfree s) fun _ hs => hs
  exact Recorded.upholds_iff.mp (hruns.holds w)

variable {stop} {P : Affair → Prop} (hstop : Engine.Minds P stop)

include hstop

/-- So it is with the code of a callback, where all is brought about by scripts. -/
theorem Callbacks.annals_invoke (site : Site) (c : Callback) (args : List Lua.Value) (w : World) :
    ∃ l, (∀ h ∈ l, h.ByCode P) ∧ Annals (Engine.StoppedBy stop) w l
      (invoke (Engine.stopped stop limit fuel) site c args w).moment := by
  have hinvoke := by_invoke (Engine.stopped_recorded stop limit fuel hstop) site c args
  exact Recorded.upholds_iff.mp ((hinvoke.law trivial).holds w)

/-- And with the code of a module. -/
theorem Loading.annals_runSource (e : EnvironmentId) (site : Site) (path : String) (source : Source)
    (w : World) :
    ∃ l, (∀ h ∈ l, h.ByCode P) ∧ Annals (Engine.StoppedBy stop) w l
      (runSource (Engine.stopped stop limit fuel) e site path source w).moment := by
  have hsource := law_runSource (e := e) (Engine.stopped_recorded stop limit fuel hstop) site path
    source
  exact Recorded.upholds_iff.mp (hsource.holds w)

/-- And with everything that is evaluated. -/
theorem Engine.annals_task (k : Lua.Kind) (t : Lua.Task k) (w : World) :
    ∃ l, (∀ h ∈ l, h.ByCode P) ∧
      Annals (StoppedBy stop) w l (stopped stop limit fuel k t w).moment := by
  have htask := ((stopped_recorded stop limit fuel hstop).tasks k t).law trivial
  exact Recorded.upholds_iff.mp ((htask.holds w).imp (fun _ => id) (fun _ => id) fun _ _ => trivial)

variable {β : Type} (part : Session → β)
  (hpart : ∀ op, P (.session op) → ∀ s, part (op.apply s) = part s)
  (hdrop : ∀ s, part s.dropScripts = part s) {w : World} {s : Session} (hs : w.session = some s)

include hpart hdrop hs

/-- A part of the session stays as it is while nothing is done that concerns it. -/
theorem Engine.part_stays (k : Lua.Kind) (t : Lua.Task k) :
    ∃ s', (stopped stop limit fuel k t w).world.session = some s' ∧ part s' = part s := by
  obtain ⟨l, hcode, hl⟩ := annals_task limit fuel hstop k t w
  exact hl.part_stays part hpart hdrop hcode hs

theorem Callbacks.part_stays (site : Site) (c : Callback) (args : List Lua.Value) :
    ∃ s', (invoke (Engine.stopped stop limit fuel) site c args w).world.session = some s' ∧
      part s' = part s := by
  obtain ⟨l, hcode, hl⟩ := annals_invoke limit fuel hstop site c args w
  exact hl.part_stays part hpart hdrop hcode hs

end Runs

section Reports

/-- The report of a failure leaves the session as the callback did. -/
theorem Callbacks.Invocation.session_perform (run : Evaluator) (site : Site) {v : Invocation}
    {w : World} {t : Target} (hv : v.target? w = some t) :
    (v.perform run site w).world.session =
      (invoke run site t.callback t.args (v.opened w)).world.session := by
  rw [perform_present run site w hv, report_apply]
  cases invoke run site t.callback t.args (v.opened w) <;> rfl

end Reports

end ScenarioHost
