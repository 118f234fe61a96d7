import ScenarioHost.Program
import ScenarioHost.Proofs.Hosting
import ScenarioHost.Proofs.NameTables
import ScenarioHost.Proofs.ScenarioCalls
import ScenarioHost.Proofs.SessionHistory

/-!
Time and pause of scenarios without a screen. Scripts can end a scenario and cannot resume it; the
clock is in the hands of the scenario alone, as long as no script drives the session. So the time
that an update sees is that of all updates up to it, and there is none once the scenario is over.
-/
namespace ScenarioHost

open Engine (engine stopped)
open Headless (Account Looked Plan Precedes Stage Trace Unfolds isPaused)
open Lua (Evaluator Value)

/-! The pause. -/

theorem paused_modifySession {w : World} (f : Session → Session)
    (hf : ∀ s, s.paused = true → (f s).paused = true) (h : isPaused w = true) :
    isPaused (w.modifySession f) = true := by
  unfold isPaused World.modifySession at *
  cases hs : w.session with
  | none =>
    rw [hs] at h
    cases h
  | some s =>
    rw [hs] at h
    exact hf s h

/-- Nobody resumes a scenario. -/
theorem lasting_paused : Lasting fun w w' => isPaused w = true → isPaused w' = true where
  refl _ h := h
  trans first second h := second (first h)
  effect {a w w'} heffect h := by
    cases heffect with
    | session _ _ op =>
      refine paused_modifySession op.apply (fun s hs => ?_) h
      -- no operation starts a session that was paused
      have hpaused := s.paused_apply .zero (.op op)
      rw [hs, Bool.true_or] at hpaused
      exact hpaused
    | clearScripts =>
      unfold isPaused at *
      rw [World.session_clearScripts]
      cases hs : w.session with
      | none =>
        rw [hs] at h
        cases h
      | some s =>
        rw [hs] at h
        exact h
    | letGo =>
      exact World.kept_by_letGo (T := fun w w' => isPaused w = true → isPaused w' = true)
        (fun _ h => h) (fun _ _ h => h) _ _ h
    | _ => exact h
  enter _ h := h
  leave _ _ h := h
  hold _ h := h
  unhold _ _ h := h
  extended _ h := h
  adopted _ script _ h := paused_modifySession (fun s => s.addScript script) (fun _ hs => hs) h
  destroy _ _ h := h

/-! The clock. -/

def World.time (w : World) : Option Single := w.session.map Session.elapsed

def World.Undriven (w : World) : Prop := ∀ e, ¬ w.Drives e

def KeepsTime : Agent → World → World → Prop
  | .host, _, _ => True
  | .code _, w, w' => w.Undriven → w'.Undriven ∧ w'.time = w.time

namespace KeepsTime

variable {a : Agent} {w w' w'' : World}

theorem of_drives (hdrives : ∀ e, w'.Drives e → w.Drives e) (htime : w'.time = w.time) :
    KeepsTime a w w' := by
  cases a with
  | host => trivial
  | code e => exact fun hw => ⟨fun x hx => hw x (hdrives x hx), htime⟩

theorem trans (first : KeepsTime a w w') (second : KeepsTime a w' w'') : KeepsTime a w w'' := by
  cases a with
  | host => trivial
  | code e =>
    intro hw
    obtain ⟨hw', htime⟩ := first hw
    obtain ⟨hw'', htime'⟩ := second hw'
    exact ⟨hw'', htime'.trans htime⟩

end KeepsTime

theorem World.time_modifySession (w : World) {f : Session → Session}
    (hf : ∀ s, (f s).elapsed = s.elapsed) : (w.modifySession f).time = w.time := by
  unfold time modifySession
  rw [Option.map_map]
  exact congrFun (congrArg Option.map (funext hf)) w.session

/-- Scripts have no function that lets time pass. -/
theorem SessionOp.Scripted.elapsed {op : SessionOp} (h : op.Scripted) (s : Session) :
    (op.apply s).elapsed = s.elapsed := by
  cases op with
  | advance delta => exact h.elim
  | _ => rfl

theorem course_keepsTime : Course KeepsTime fun _ _ _ => True where
  progress a := ⟨fun _ => .of_drives (fun _ => id) rfl, .trans, fun _ => trivial, fun _ _ => trivial⟩
  deed {a w f _} hdeed := by
    cases a with
    | host => trivial
    | code e =>
      cases hdeed with
      -- nothing that scripts may do to the session by themselves moves its clock
      | session _ op hopen => exact .of_drives (fun _ => id) (w.time_modifySession hopen.elapsed)
      | _ => exact .of_drives (fun _ => id) rfl
  part {a w f} hpart := by
    cases a with
    | host => trivial
    | code e =>
      cases hpart with
      | _ => exact .of_drives (fun _ => id) rfl
  change {e w f} hchange := by
    cases hchange with
    | heap f hf =>
      have halike := Alike.of_heap w e (fun x => { x with heap := f x.heap }) (fun _ => rfl)
        (fun _ => rfl) (fun _ => rfl) hf.toEvolves
      exact .of_drives (fun x => (halike.drives x).mp) rfl
    | entityTable t =>
      have halike := Alike.of_heap w e (fun x => { x with entityFunctions := some t })
        (fun _ => rfl) (fun _ => rfl) (fun _ => rfl) (.refl _)
      exact .of_drives (fun x => (halike.drives x).mp) rfl
  draw e w := by
    have hseed (seed : UInt64) : KeepsTime (.code e) w { w with seed := seed } :=
      .of_drives (fun _ => id) rfl
    exact hseed _
  drive hdrives _ hw := absurd hdrives (hw _)
  driving _ _ := trivial
  invoke _ _ := trivial
  invoking _ _ := trivial
  visit {e s w w'} _ _ h := by
    have hhold : KeepsTime (.code s) w (w.hold s) :=
      .of_drives (fun x => (recounts_hold.drives w s x).mp) rfl
    have hunhold : KeepsTime (.code s) w' (w'.unhold s) :=
      .of_drives (fun x => (recounts_unhold.drives w' s x).mp) rfl
    exact (hhold.trans h).trans hunhold
  visiting _ _ _ := trivial
  adopt {e w w'} _ h := by
    have hextended : KeepsTime (.code w.nextEnvironment) w w.extended :=
      .of_drives (fun x => (w.drives_extended x).mp) rfl
    have hadopted : KeepsTime (.code w.nextEnvironment) w' (w'.adopted e w.nextEnvironment) :=
      .of_drives (fun x => (w'.drives_adopted e x _).mp) (w'.time_modifySession fun _ => rfl)
    exact (hextended.trans h).trans hadopted
  abandon {a w w'} message h := by
    cases a with
    | host => trivial
    | code e =>
      have hextended : KeepsTime (.code w.nextEnvironment) w w.extended :=
        .of_drives (fun x => (w.drives_extended x).mp) rfl
      have hdestroyed : KeepsTime (.code w.nextEnvironment) w'
          ((w'.addError message).destroy w.nextEnvironment) :=
        .of_drives (fun x => (((w'.addError message).onward_destroy _).drives x).mp) rfl
      exact (hextended.trans h).trans hdestroyed
  creating _ := trivial

/-! What courses say of the calls of scenarios. -/

section Calls

variable {R : Regime} {run run' : Evaluator} {p : Plan}

theorem Headless.within_call (h : R.Lawful run run') (hoverlay : R.Permits .overlay) (s : Stage) :
    R.Beside p.env (p.call run s) (p.call run' s) := by
  cases s with
  | entry =>
    exact Regime.by_of_law (Loading.law_load h .outside p.entry (l := .localized) fun _ => hoverlay)
  | init => exact ((Boundary.within_callGlobal h ..).map_error).discard
  | update => exact ((Boundary.within_callGlobal h ..).map_error).discard

theorem Headless.within_look (h : R.Lawful run run') (ε : Type) (name : String) :
    R.Beside p.env (p.look run ε name) (p.look run' ε name) :=
  Boundary.within_hasFunction h .outside name

variable {T M : Agent → World → World → Prop} (C : Course T M) {s : Stage} {w w' : World}

include C

theorem Course.called (h : C.regime.Lawful run run')
    (hcall : p.call run s w = .done () w' ∨ ∃ message, p.call run s w = .raised message w') :
    T (.code p.env) w w' := by
  have hkeeps := (C.keeps (Headless.within_call (p := p) h trivial s)).upholds w
  rcases hcall with hcall | ⟨message, hcall⟩
  · rw [hcall] at hkeeps
    exact hkeeps.1
  · rw [hcall] at hkeeps
    exact hkeeps

theorem Course.looked (h : C.regime.Lawful run run') (hlooked : Looked run p w w') :
    T (.code p.env) w w' := by
  induction hlooked with
  | refl w => exact (C.progress _).refl w
  | @look ε w w₁ w₂ name found hlook _ ih =>
    have hkeeps := (C.keeps (Headless.within_look (p := p) h ε name)).upholds w
    rw [hlook] at hkeeps
    exact (C.progress _).trans hkeeps.1 ih

end Calls

/-! Traces under courses. -/

namespace Headless

variable {run run' : Evaluator} {p : Plan} {ε : Type} {w w' w₀ w₁ : World} {s : Stage}
  {calls before after : List (Stage × World)} {o : Outcome ε Bool}

section Pause

variable (h : Regime.reaching.Lawful run run')

include h

theorem Looked.paused (hlooked : Looked run p w w') (hw : isPaused w = true) :
    isPaused w' = true := lasting_paused.reaches (course_reaches.looked h hlooked) hw

/-- No update comes after the pause. -/
theorem Trace.paused (htrace : Trace run p w calls w') (hw : isPaused w = true) :
    isPaused w' = true ∧ ∀ c ∈ calls, c.1 ≠ .update := by
  induction htrace with
  | nil hlooked => exact ⟨hlooked.paused h hw, fun c hc => absurd hc List.not_mem_nil⟩
  | @cons w w₀ w₁ w' s calls hprecedes hcall _ ih =>
    have hlooked : s ≠ .update ∧ Looked run p w w₀ := by
      cases s with
      | update =>
        obtain ⟨w₂, hlooked, hrunning, _⟩ := hprecedes
        rw [hlooked.paused h hw] at hrunning
        cases hrunning
      | _ => exact ⟨nofun, hprecedes⟩
    have hcalled := lasting_paused.reaches (course_reaches.called h (.inl hcall))
    obtain ⟨hpaused, hrest⟩ := ih (hcalled (hlooked.2.paused h hw))
    refine ⟨hpaused, fun c hc => ?_⟩
    rcases List.mem_cons.mp hc with rfl | hc
    · exact hlooked.1
    · exact hrest c hc

omit h in
/-- A trace goes on from what each of its calls left. -/
theorem Trace.split (htrace : Trace run p w (before ++ (s, w₀) :: after) w')
    (hcall : p.call run s w₀ = .done () w₁) : Trace run p w₁ after w' := by
  induction before generalizing w with
  | nil =>
    cases htrace with
    | cons _ hcalled hrest =>
      rw [hcall] at hcalled
      cases hcalled
      exact hrest
  | cons c before ih =>
    cases htrace with
    | cons _ _ hrest => exact ih hrest

theorem Account.paused (haccount : Account run p w calls o) {before after : List (Stage × World)}
    (hcalls : calls = before ++ (s, w₀) :: after) (hcall : p.call run s w₀ = .done () w₁)
    (hw : isPaused w₁ = true) : ∀ c ∈ after, c.1 ≠ .update := by
  rintro ⟨stage, w₂⟩ hc rfl
  obtain ⟨between, rest, rfl⟩ := List.append_of_mem hc
  have hsplit : calls = (before ++ (s, w₀) :: between) ++ (.update, w₂) :: rest := by
    rw [hcalls, List.append_assoc, List.cons_append]
  obtain ⟨w₃, htrace, w₄, hlooked, hrunning, _⟩ := haccount.reached _ _ _ _ hsplit
  have hpaused := ((htrace.split hcall).paused h hw).1
  rw [hlooked.paused h hpaused] at hrunning
  cases hrunning

end Pause

section Time

def elapse (delta time : Single) : Single := if delta.nonpositive then time else time + delta

theorem time_lapsed (delta : Single) (hw : isPaused w = false) :
    (w.lapsed delta).time = w.time.map (elapse delta) := by
  unfold World.time World.lapsed World.modifySession
  cases hs : w.session with
  | none => rfl
  | some session =>
    have hrunning : session.paused = false := by
      unfold isPaused at hw
      rw [hs] at hw
      exact hw
    simp only [Option.map_some, Session.advance, hrunning, Bool.false_or, elapse]
    split <;> rfl

def updates (calls : List (Stage × World)) : Nat := (calls.map Prod.fst).count .update

theorem updates_append (before after : List (Stage × World)) :
    updates (before ++ after) = updates before + updates after := by
  simp only [updates, List.map_append, List.count_append]

/-- The time of some updates, and then of others. -/
theorem elapse_append (delta : Single) (time : Option Single)
    (before after : List (Stage × World)) :
    (time.map (elapse delta)^[updates before]).map (elapse delta)^[updates after] =
      time.map (elapse delta)^[updates (before ++ after)] := by
  rw [Option.map_map, ← Function.iterate_add, updates_append, Nat.add_comm]

variable (h : course_keepsTime.regime.Lawful run run') (hw : w.Undriven)

include h hw

/-- Time passes before an update only. -/
theorem Precedes.time (hprecedes : Precedes run p w w₀ s) :
    w₀.Undriven ∧ w₀.time = w.time.map (elapse p.delta)^[updates [(s, w₀)]] := by
  cases s with
  | update =>
    obtain ⟨w', hlooked, hrunning, rfl⟩ := hprecedes
    obtain ⟨hundriven, htime⟩ := course_keepsTime.looked h hlooked hw
    refine ⟨hundriven, ?_⟩
    rw [time_lapsed p.delta hrunning, htime]
    rfl
  | _ =>
    obtain ⟨hundriven, htime⟩ := course_keepsTime.looked h hprecedes hw
    refine ⟨hundriven, ?_⟩
    rw [htime]
    exact Option.map_id'.symm

theorem Trace.time (htrace : Trace run p w calls w') :
    w'.Undriven ∧ w'.time = w.time.map (elapse p.delta)^[updates calls] := by
  induction htrace with
  | nil hlooked =>
    obtain ⟨hundriven, htime⟩ := course_keepsTime.looked h hlooked hw
    exact ⟨hundriven, htime.trans Option.map_id'.symm⟩
  | @cons w w₀ w₁ w' s calls hprecedes hcall _ ih =>
    obtain ⟨hundriven, htime⟩ := hprecedes.time h hw
    obtain ⟨hundriven', htime'⟩ := course_keepsTime.called h (.inl hcall) hundriven
    obtain ⟨hundriven'', htime''⟩ := ih hundriven'
    refine ⟨hundriven'', ?_⟩
    -- time passes before the call, the call itself takes none, and then come the others
    calc w'.time
      _ = w₁.time.map (elapse p.delta)^[updates calls] := htime''
      _ = (w.time.map (elapse p.delta)^[updates [(s, w₀)]]).map
          (elapse p.delta)^[updates calls] := by rw [htime', htime]
      _ = w.time.map (elapse p.delta)^[updates ([(s, w₀)] ++ calls)] := elapse_append ..

/-- The clock goes on by one amount for each update, and stands still otherwise. -/
theorem Account.time (haccount : Account run p w calls o) {ok : Bool} (ho : o = .done ok w') :
    w'.time = w.time.map (elapse p.delta)^[updates calls] := by
  subst ho
  have hconcluded := haccount.concluded
  cases ok with
  | true => exact (Trace.time h hw hconcluded).2
  | false =>
    obtain ⟨before, s, w₀, message, w₁, hcalls, hcall, rfl⟩ := hconcluded
    obtain ⟨w₂, htrace, hprecedes⟩ := haccount.reached before [] s w₀ hcalls
    obtain ⟨hundriven, htime⟩ := htrace.time h hw
    obtain ⟨hundriven', htime'⟩ := hprecedes.time h hundriven
    obtain ⟨_, htime''⟩ := course_keepsTime.called h (.inr ⟨message, hcall⟩) hundriven'
    -- the line that the failure leaves is none of the clock's business
    calc (w₁.addError message).time
      _ = w₀.time := htime''
      _ = (w.time.map (elapse p.delta)^[updates before]).map
          (elapse p.delta)^[updates [(s, w₀)]] := by rw [htime', htime]
      _ = w.time.map (elapse p.delta)^[updates calls] := by rw [elapse_append, hcalls]

theorem Account.time_update (haccount : Account run p w calls o)
    (hcalls : calls = before ++ (.update, w₀) :: after) :
    w₀.time = w.time.map (elapse p.delta)^[updates before + 1] := by
  obtain ⟨w₁, htrace, hprecedes⟩ := haccount.reached before after .update w₀ hcalls
  obtain ⟨hundriven, htime⟩ := htrace.time h hw
  obtain ⟨_, htime'⟩ := hprecedes.time h hundriven
  calc w₀.time
    _ = (w.time.map (elapse p.delta)^[updates before]).map
        (elapse p.delta)^[updates [(.update, w₀)]] := by rw [htime', htime]
    _ = w.time.map (elapse p.delta)^[updates (before ++ [(.update, w₀)])] := elapse_append ..
    _ = w.time.map (elapse p.delta)^[updates before + 1] := by
      rw [updates_append]
      rfl

omit h hw in
theorem elapse_positive {delta : Single} (h : delta.nonpositive = false) :
    elapse delta = (· + delta) := by
  funext time
  simp only [elapse, h, Bool.false_eq_true, if_false]

omit h hw in
theorem elapse_nonpositive {delta : Single} (h : delta.nonpositive = true) :
    elapse delta = id := by
  funext time
  simp only [elapse, h, if_true, id]

end Time

/-- What the clock shows in a scenario, where updates take an amount of time each. -/
structure Clock (p : Plan) (w : World) (calls : List (Stage × World)) (o : Outcome ε Bool) :
    Prop where
  /-- An update sees the time that it takes itself, besides that of all updates before. -/
  update (before after : List (Stage × World)) (w₀ : World) : p.delta.nonpositive = false →
    calls = before ++ (.update, w₀) :: after →
      w₀.time = w.time.map (· + p.delta)^[updates before + 1]
  finished (ok : Bool) (w' : World) : p.delta.nonpositive = false → o = .done ok w' →
    w'.time = w.time.map (· + p.delta)^[updates calls]
  idle (ok : Bool) (w' : World) : updates calls = 0 ∨ p.delta.nonpositive = true →
    o = .done ok w' → w'.time = w.time

theorem Account.clock (h : course_keepsTime.regime.Lawful run run') (hw : w.Undriven)
    (haccount : Account run p w calls o) : Clock p w calls o where
  update before after w₀ hdelta hcalls := by
    rw [← elapse_positive hdelta]
    exact haccount.time_update h hw hcalls
  finished ok w' hdelta ho := by
    rw [← elapse_positive hdelta]
    exact haccount.time h hw ho
  idle ok w' hidle ho := by
    rw [haccount.time h hw ho]
    rcases hidle with hnone | hdelta
    · rw [hnone]
      exact Option.map_id'
    · rw [elapse_nonpositive hdelta, Function.iterate_id]
      exact Option.map_id'

end Headless

/-! Worlds in which no script drives the session. -/

namespace World

/-- A world without environments has no scripts. -/
theorem undriven_of_empty {w : World} (h : w.environments = #[]) : w.Undriven := by
  intro e
  refine w.not_drives_of_not_allocated e fun he => ?_
  rw [Allocated, h] at he
  exact Nat.not_lt_zero _ he

end World

/-- The bootstrap modules of a new environment do not get at the clock either. -/
theorem Environments.create_keepsTime {run run' : Evaluator}
    (h : course_keepsTime.regime.Lawful run run') {site : Lua.Site} {w w' : World}
    {e : EnvironmentId} (hw : w.Undriven) (hcreate : create run site w = .done e w') :
    w'.Undriven ∧ w'.time = w.time := by
  have hlaw := law_booting (e := w.nextEnvironment) h site
  have hbooting := (course_keepsTime.keeps (Regime.by_of_law hlaw)).upholds w.extended
  have hextended : w.extended.Undriven := fun x hx => hw x ((w.drives_extended x).mp hx)
  rw [create_eq, making_apply] at hcreate
  cases hrun : booting run site w.nextEnvironment w.extended with
  | done _ w₁ =>
    rw [hrun] at hbooting hcreate
    obtain ⟨_, rfl⟩ := Outcome.done.inj hcreate
    exact hbooting.1 hextended
  | raised failure w₁ =>
    rw [hrun] at hcreate
    cases hcreate
  | starved =>
    rw [hrun] at hcreate
    cases hcreate

/-- No time has passed in the world in which a command line is carried out. -/
theorem Program.time_worldFor (options : CommandLine.Options) (files : FileTree) :
    (worldFor options files).time = some .zero := by
  have hsettings (settings : List (String × String)) (s : Session) :
      (settings.foldl (fun s e => s.setSetting e.1 e.2) s).elapsed = s.elapsed := by
    induction settings generalizing s with
    | nil => rfl
    | cons e settings ih => exact ih (s.setSetting e.1 e.2)
  exact World.time_modifySession _ fun s => hsettings options.settings s

/-- Scenarios without a screen run their entry, `init` and `update`, as far as these are
functions, and give account of each call. Whatever scripts do, there is no update after the pause;
and where none drives the session, the clock shows the time of the updates. No script does in a
world in which a command line is carried out, and none comes to by the making of an environment.
-/
theorem scenarios_unfold :
    (∀ run (p : Plan) ε w (o : Outcome ε Bool),
      Headless.runScenario run p.env p.entry p.count p.delta w = o ↔
        ∃ calls, Unfolds run p .entry w calls o) ∧
    (∀ run p ε w calls (o : Outcome ε Bool), Unfolds run p .entry w calls o →
      Account run p w calls o) ∧
    (∀ limit fuel p ε w calls (o : Outcome ε Bool),
      Unfolds (engine limit fuel) p .entry w calls o →
      (∀ before s w₀ after w₁, calls = before ++ (s, w₀) :: after →
        p.call (engine limit fuel) s w₀ = .done () w₁ → isPaused w₁ = true →
          ∀ c ∈ after, c.1 ≠ .update) ∧
      (w.Undriven → Headless.Clock p w calls o)) ∧
    (∀ limit fuel site w e w', World.Undriven w →
      Environments.create (engine limit fuel) site w = .done e w' →
        w'.Undriven ∧ w'.time = w.time) ∧
    ∀ options files, (Program.worldFor options files).Undriven ∧
      (Program.worldFor options files).time = some .zero := by
  refine ⟨?_, ?_, ?_, ?_, ?_⟩
  · exact fun run p ε w o => Headless.runScenario_eq_iff
  · exact fun run p ε w calls o h => h.account
  · intro limit fuel p ε w calls o h
    have hreaching := (Engine.lawful_engine limit fuel).reaching
    refine ⟨fun before s w₀ after w₁ => h.account.paused hreaching, fun hw => ?_⟩
    exact h.account.clock (course_keepsTime.lawful_engine limit fuel) hw
  · intro limit fuel site w e w' hw hcreate
    exact Environments.create_keepsTime (course_keepsTime.lawful_engine limit fuel) hw hcreate
  · intro options files
    exact ⟨World.undriven_of_empty rfl, Program.time_worldFor options files⟩

abbrev World.ticking : World :=
  (World.new { Config.default with bootstrap := [] }
    (.ofList [("a.lua", .bytes (.ofText "update = print"))])).extended

/-- Two updates at most, of a second each. -/
theorem seconds_of_updates : ∃ w' k,
    Headless.runScenario (engine 12 12) ⟨0⟩ "a.lua" 2 (.ofInt 1) World.ticking =
      (.done true w' : Outcome Empty Bool) ∧
    k ≤ 2 ∧ w'.time = some ((· + .ofInt 1)^[k] .zero) := by
  have hresult : (Headless.runScenario (engine 12 12) ⟨0⟩ "a.lua" 2 (.ofInt 1) World.ticking :
      Outcome Empty Bool).result? = some true := by
    rw [World.ticking, World.extended_eq_listed]
    decide +kernel
  obtain ⟨w', hdone⟩ := Outcome.done_of_result hresult
  have hmade : Environments.create (engine 0 0) .outside
      (World.new { Config.default with bootstrap := [] }
        (.ofList [("a.lua", .bytes (.ofText "update = print"))])) =
      .done ⟨0⟩ World.ticking := rfl
  have hundriven : World.ticking.Undriven :=
    (scenarios_unfold.2.2.2.1 0 0 .outside _ _ _ (World.undriven_of_empty rfl) hmade).1
  -- the calls of the scenario tell how many updates there were
  obtain ⟨calls, hcalls⟩ := (scenarios_unfold.1 _ ⟨⟨0⟩, "a.lua", 2, .ofInt 1⟩ _ _ _).mp hdone
  obtain ⟨inits, k, hinits, hk, horder⟩ := (scenarios_unfold.2.1 _ _ _ _ _ _ hcalls).order
  have hclock := (scenarios_unfold.2.2.1 _ _ _ _ _ _ _ hcalls).2 hundriven
  have hupdates : Headless.updates calls = k := by
    rw [Headless.updates, horder]
    rcases hinits with rfl | rfl
    · simp
    · simp
  refine ⟨w', k, hdone, hk, ?_⟩
  have htime := hclock.finished true w' (by decide) rfl
  rw [hupdates] at htime
  exact htime

end ScenarioHost
