import ScenarioHost.Proofs.Operations

/-!
Scenarios without a screen, call by call. A scenario unfolds from point to point: at each it is
determined which call is due, and a call that fails is the last one. What is said here holds however
scripts are run.
-/
namespace ScenarioHost

open Lua (Evaluator Value)

def World.lapsed (w : World) (delta : Single) : World := w.modifySession fun s => s.advance delta

theorem World.last_addError (w : World) (message : String) :
    (w.addError message).console.lines.getLast? = some ⟨.error, message⟩ := List.getLast?_concat

namespace Headless

/-- What a scenario is run with. -/
structure Plan where
  env : EnvironmentId
  entry : String
  count : Nat
  delta : Single

inductive Stage where
  | entry
  | init
  | update
deriving DecidableEq

/-- What a scenario turns to next: to its entry, to the functions that it looks for, or to as many
updates as are left. -/
inductive Point where
  | entry
  | init
  | update
  | tick (left : Nat)

section Definitions

variable (run : Evaluator) (p : Plan) (ε : Type)

def Plan.call : Stage → Act String Unit
  | .entry => Loading.runLocalized run p.env .outside p.entry
  | .init => Functor.discard
      ((Boundary.callGlobal run p.env .outside "init" []).mapError HostError.message)
  | .update => Functor.discard
      ((Boundary.callGlobal run p.env .outside "update" [Conversion.ofSingle p.delta]).mapError
        HostError.message)

abbrev Plan.look (name : String) : Act ε Bool := Boundary.hasFunction run p.env .outside name

inductive Due : Point → World → Stage → World → Point → Prop where
  | entry (w : World) : Due .entry w .entry w .init
  | init {w w' : World} : p.look run ε "init" w = .done true w' → Due .init w .init w' .update
  /-- Time passes right before an update. -/
  | update {w : World} (left : Nat) : isPaused w = false →
      Due (.tick (left + 1)) w .update (w.lapsed p.delta) (.tick left)

inductive Skips : Point → World → Point → World → Prop where
  | init {w w' : World} : p.look run ε "init" w = .done false w' → Skips .init w .update w'
  | update {w w' : World} : p.look run ε "update" w = .done true w' →
      Skips .update w (.tick p.count) w'

inductive Ends : Point → World → World → Prop where
  | update {w w' : World} : p.look run ε "update" w = .done false w' → Ends .update w w'
  | exhausted (w : World) : Ends (.tick 0) w w
  | paused {w : World} (left : Nat) : isPaused w = true → Ends (.tick (left + 1)) w w

inductive Stuck : Point → World → World → Prop where
  | init {w w' : World} : p.look run ε "init" w = @Outcome.starved _ _ w' → Stuck .init w w'
  | update {w w' : World} : p.look run ε "update" w = @Outcome.starved _ _ w' →
      Stuck .update w w'

variable {ε}

/-- What a scenario does from some point on: its calls, each with the world in which it begins, and
how it ends. -/
inductive Unfolds : Point → World → List (Stage × World) → Outcome ε Bool → Prop where
  | passes {point point' : Point} {w w₀ w₁ : World} {s : Stage} {calls : List (Stage × World)}
      {o : Outcome ε Bool} : Due run p ε point w s w₀ point' → p.call run s w₀ = .done () w₁ →
      Unfolds point' w₁ calls o → Unfolds point w ((s, w₀) :: calls) o
  /-- A failure is written to the console and ends the scenario. -/
  | fails {point point' : Point} {w w₀ w₁ : World} {s : Stage} {message : String} :
      Due run p ε point w s w₀ point' → p.call run s w₀ = .raised message w₁ →
      Unfolds point w [(s, w₀)] (.done false (w₁.addError message))
  | hangs {point point' : Point} {w w₀ w₁ : World} {s : Stage} :
      Due run p ε point w s w₀ point' → p.call run s w₀ = @Outcome.starved _ _ w₁ →
      Unfolds point w [(s, w₀)] (@Outcome.starved _ _ w₁)
  | skips {point point' : Point} {w w' : World} {calls : List (Stage × World)}
      {o : Outcome ε Bool} : Skips run p ε point w point' w' → Unfolds point' w' calls o →
      Unfolds point w calls o
  | ends {point : Point} {w w' : World} : Ends run p ε point w w' →
      Unfolds point w [] (.done true w')
  | stuck {point : Point} {w w' : World} : Stuck run p ε point w w' →
      Unfolds point w [] (@Outcome.starved _ _ w')

def Point.act : Point → Act ε Bool
  | .entry => runScenario run p.env p.entry p.count p.delta
  | .init => do
    if ← callInit run p.env then
      if ← p.look run ε "update" then ticks run p.env p.delta p.count else return true
    else return false
  | .update => do if ← p.look run ε "update" then ticks run p.env p.delta p.count else return true
  | .tick left => ticks run p.env p.delta left

end Definitions

/-! The program unfolds in this way. -/

section Program

variable {run : Evaluator} {p : Plan} {ε : Type} {w : World} {point : Point}

theorem checked_bind_apply (x : Act String Unit) (k : Act ε Bool) (w : World) :
    (do if ← checked x then k else return false) w =
      match x w with
      | .done _ w₁ => k w₁
      | .raised message w₁ => .done false (w₁.addError message)
      | @Outcome.starved _ _ w₁ => @Outcome.starved _ _ w₁ := by
  unfold checked
  rw [Act.bind_apply, Act.bind_apply, Act.attempt_apply]
  cases x w <;> rfl

theorem callInit_apply (w : World) :
    (callInit run p.env : Act ε Bool) w =
      match p.look run ε "init" w with
      | .done true w' => checked (p.call run .init) w'
      | .done false w' => .done true w'
      | .raised e w' => .raised e w'
      | @Outcome.starved _ _ w' => @Outcome.starved _ _ w' := by
  unfold callInit Plan.call Plan.look
  rw [checked_discard, Act.bind_apply]
  cases Boundary.hasFunction run p.env .outside "init" w with
  | done found w' => cases found <;> rfl
  | _ => rfl

/-- A call that is due decides how the program goes on. -/
theorem Due.act_apply {s : Stage} {w₀ : World} {point' : Point}
    (h : Due run p ε point w s w₀ point') :
    (point.act run p : Act ε Bool) w =
      match p.call run s w₀ with
      | .done _ w₁ => point'.act run p w₁
      | .raised message w₁ => .done false (w₁.addError message)
      | @Outcome.starved _ _ w₁ => @Outcome.starved _ _ w₁ := by
  cases h with
  | entry w => exact checked_bind_apply _ _ w
  | init hlook =>
    rw [← checked_bind_apply, Point.act, Act.bind_apply, Act.bind_apply, callInit_apply, hlook]
    rfl
  | update left hpaused =>
    rw [← checked_bind_apply, Plan.call, checked_discard, Point.act, ticks, Act.bind_apply]
    simp only [Act.read, hpaused]
    rfl

theorem Skips.act_apply {point' : Point} {w' : World} (h : Skips run p ε point w point' w') :
    (point.act run p : Act ε Bool) w = point'.act run p w' := by
  cases h with
  | init hlook =>
    rw [Point.act, Act.bind_apply, callInit_apply, hlook]
    rfl
  | update hlook =>
    rw [Point.act, Act.bind_apply, hlook]
    rfl

theorem Ends.act_apply {w' : World} (h : Ends run p ε point w w') :
    (point.act run p : Act ε Bool) w = .done true w' := by
  cases h with
  | update hlook =>
    rw [Point.act, Act.bind_apply, hlook]
    rfl
  | exhausted => rfl
  | paused left hpaused =>
    rw [Point.act, ticks, Act.bind_apply]
    simp only [Act.read, hpaused]
    rfl

theorem Stuck.act_apply {w' : World} (h : Stuck run p ε point w w') :
    (point.act run p : Act ε Bool) w = @Outcome.starved _ _ w' := by
  cases h with
  | init hlook =>
    rw [Point.act, Act.bind_apply, callInit_apply, hlook]
  | update hlook => rw [Point.act, Act.bind_apply, hlook]

theorem Unfolds.act_apply {calls : List (Stage × World)} {o : Outcome ε Bool}
    (h : Unfolds run p point w calls o) : (point.act run p : Act ε Bool) w = o := by
  induction h with
  | passes hdue hcall _ ih => rw [hdue.act_apply, hcall, ← ih]
  | fails hdue hcall => rw [hdue.act_apply, hcall]
  | hangs hdue hcall => rw [hdue.act_apply, hcall]
  | skips hskips _ ih => rw [hskips.act_apply, ih]
  | ends hends => exact hends.act_apply
  | stuck hstuck => exact hstuck.act_apply

theorem look_not_raised (name : String) (w : World) (e : ε) (w' : World) :
    p.look run ε name w ≠ .raised e w' := by
  unfold Plan.look Boundary.hasFunction
  rw [Act.bind_apply, Act.attempt_apply]
  intro h
  cases hget : Boundary.getGlobal run p.env .outside name w with
  | done v w₁ => cases v <;> simp only [hget] at h <;> cases h
  | _ =>
    simp only [hget] at h
    cases h

variable (run p ε) in
def Point.HasCourse (point : Point) (w : World) : Prop :=
  ∃ calls, Unfolds run p point w calls (point.act run p w : Outcome ε Bool)

theorem Due.has_course {s : Stage} {w₀ : World} {point' : Point}
    (h : Due run p ε point w s w₀ point') (hrest : ∀ w₁, point'.HasCourse run p ε w₁) :
    point.HasCourse run p ε w := by
  unfold Point.HasCourse
  rw [h.act_apply]
  cases hcall : p.call run s w₀ with
  | done _ w₁ =>
    obtain ⟨calls, hcalls⟩ := hrest w₁
    exact ⟨_, .passes h hcall hcalls⟩
  | raised message w₁ => exact ⟨_, .fails h hcall⟩
  | starved => exact ⟨_, .hangs h hcall⟩

theorem Skips.has_course {point' : Point} {w' : World} (h : Skips run p ε point w point' w')
    (hrest : point'.HasCourse run p ε w') : point.HasCourse run p ε w := by
  obtain ⟨calls, hcalls⟩ := hrest
  unfold Point.HasCourse
  rw [h.act_apply]
  exact ⟨calls, .skips h hcalls⟩

theorem Ends.has_course {w' : World} (h : Ends run p ε point w w') :
    point.HasCourse run p ε w := by
  unfold Point.HasCourse
  rw [h.act_apply]
  exact ⟨[], .ends h⟩

theorem Stuck.has_course {w' : World} (h : Stuck run p ε point w w') :
    point.HasCourse run p ε w := by
  unfold Point.HasCourse
  rw [h.act_apply]
  exact ⟨[], .stuck h⟩

/-! From the last point to the first one, each has a course as the next one has. -/

theorem tick_has_course (left : Nat) (w : World) : (Point.tick left).HasCourse run p ε w := by
  induction left generalizing w with
  | zero => exact (Ends.exhausted w).has_course
  | succ left ih =>
    cases hpaused : isPaused w with
    | true => exact (Ends.paused left hpaused).has_course
    | false => exact (Due.update left hpaused).has_course ih

theorem update_has_course (w : World) : Point.update.HasCourse run p ε w := by
  cases hlook : p.look run ε "update" w with
  | done found w' =>
    cases found with
    | true => exact (Skips.update hlook).has_course (tick_has_course p.count w')
    | false => exact (Ends.update hlook).has_course
  | raised e w' => exact absurd hlook (look_not_raised "update" w e w')
  | starved => exact (Stuck.update hlook).has_course

theorem init_has_course (w : World) : Point.init.HasCourse run p ε w := by
  cases hlook : p.look run ε "init" w with
  | done found w' =>
    cases found with
    | true => exact (Due.init hlook).has_course update_has_course
    | false => exact (Skips.init hlook).has_course (update_has_course w')
  | raised e w' => exact absurd hlook (look_not_raised "init" w e w')
  | starved => exact (Stuck.init hlook).has_course

theorem entry_has_course (w : World) : Point.entry.HasCourse run p ε w :=
  (Due.entry w).has_course init_has_course

/-- A scenario makes the calls that are due, and ends as they do. -/
theorem runScenario_eq_iff {o : Outcome ε Bool} :
    runScenario run p.env p.entry p.count p.delta w = o ↔
      ∃ calls, Unfolds run p .entry w calls o := by
  constructor
  · rintro rfl
    exact entry_has_course w
  · rintro ⟨calls, h⟩
    exact h.act_apply

end Program

/-! What is known of the calls. -/

section Calls

variable (run : Evaluator) (p : Plan)

inductive Looked : World → World → Prop where
  | refl (w : World) : Looked w w
  | look {ε : Type} {w w' w'' : World} {name : String} {found : Bool} :
      p.look run ε name w = .done found w' → Looked w' w'' → Looked w w''

/-- How it comes from one call to the next: before an update, and only there, time passes, once
and in the end. -/
def Precedes (w w₀ : World) : Stage → Prop
  | .update => ∃ w', Looked run p w w' ∧ isPaused w' = false ∧ w₀ = w'.lapsed p.delta
  | _ => Looked run p w w₀

/-- Calls that come to their ends, one upon the other, with nothing in between but looks for
functions and, before an update, the passing of time. -/
inductive Trace : World → List (Stage × World) → World → Prop where
  | nil {w w' : World} : Looked run p w w' → Trace w [] w'
  | cons {w w₀ w₁ w' : World} {s : Stage} {calls : List (Stage × World)} :
      Precedes run p w w₀ s → p.call run s w₀ = .done () w₁ → Trace w₁ calls w' →
      Trace w ((s, w₀) :: calls) w'

/-- The calls end well, and so does the scenario, which leaves nothing behind; or the last one
fails, which leaves one line in the end; or something runs on. -/
def Concludes {ε : Type} (w : World) (calls : List (Stage × World)) : Outcome ε Bool → Prop
  | .done true w' => Trace run p w calls w'
  | .done false w' => ∃ before s w₀ message w₁, calls = before ++ [(s, w₀)] ∧
      p.call run s w₀ = .raised message w₁ ∧ w' = w₁.addError message
  | .raised _ _ => False
  | @Outcome.starved _ _ w' => (∃ w₁, Trace run p w calls w₁) ∨
      ∃ before s w₀, calls = before ++ [(s, w₀)] ∧ p.call run s w₀ = @Outcome.starved _ _ w'

/-- What is known of the calls of a scenario that begins in some world. -/
structure Account {ε : Type} (w : World) (calls : List (Stage × World)) (o : Outcome ε Bool) :
    Prop where
  /-- The entry, `init` where it is a function, and updates, as many as asked for at most. -/
  order : ∃ inits k, (inits = [] ∨ inits = [Stage.init]) ∧ k ≤ p.count ∧
    calls.map Prod.fst = .entry :: (inits ++ List.replicate k .update)
  first : ∃ rest, calls = (.entry, w) :: rest
  /-- All calls before another one come to their ends. -/
  reached (before after : List (Stage × World)) (s : Stage) (w₀ : World) :
    calls = before ++ (s, w₀) :: after → ∃ w₁, Trace run p w before w₁ ∧ Precedes run p w₁ w₀ s
  /-- `init` is called where it was found to be a function. -/
  init_found (before after : List (Stage × World)) (w₀ : World) :
    calls = before ++ (.init, w₀) :: after → ∃ w₁, Trace run p w before w₁ ∧
      p.look run ε "init" w₁ = .done true w₀
  /-- Before the first update, `update` was found to be a function. -/
  update_found (before after : List (Stage × World)) (w₀ : World) :
    calls = before ++ (.update, w₀) :: after → Stage.update ∉ before.map Prod.fst →
      ∃ w₁ w₂, Trace run p w before w₁ ∧ p.look run ε "update" w₁ = .done true w₂ ∧
        w₀ = w₂.lapsed p.delta
  concluded : Concludes run p w calls o
  failed_iff : (∃ w', o = .done false w') ↔
    ∃ s w₀ message w₁, (s, w₀) ∈ calls ∧ p.call run s w₀ = .raised message w₁
  last_line (w' : World) : o = .done false w' → ∃ s w₀ message w₁, calls.getLast? = some (s, w₀) ∧
    p.call run s w₀ = .raised message w₁ ∧ w' = w₁.addError message ∧
    w'.console.lines.getLast? = some ⟨.error, message⟩

end Calls

section Accounts

variable {run : Evaluator} {p : Plan} {ε : Type} {w w' w₀ : World} {point point' : Point}
  {s : Stage} {calls : List (Stage × World)}

theorem Looked.trans {w'' : World} (h : Looked run p w w') (h' : Looked run p w' w'') :
    Looked run p w w'' := by
  induction h with
  | refl => exact h'
  | look hlook _ ih => exact .look hlook (ih h')

theorem Precedes.after (h : Looked run p w w') (h' : Precedes run p w' w₀ s) :
    Precedes run p w w₀ s := by
  cases s with
  | update =>
    obtain ⟨w₁, hlooked, hrest⟩ := h'
    exact ⟨w₁, h.trans hlooked, hrest⟩
  | _ => exact Looked.trans h h'

theorem Trace.after {w'' : World} (h : Looked run p w w') (h' : Trace run p w' calls w'') :
    Trace run p w calls w'' := by
  cases h' with
  | nil hlooked => exact .nil (h.trans hlooked)
  | cons hprecedes hcall hrest => exact .cons (hprecedes.after h) hcall hrest

theorem Due.precedes (h : Due run p ε point w s w₀ point') : Precedes run p w w₀ s := by
  cases h with
  | entry => exact Looked.refl w
  | init hlook => exact Looked.look hlook (.refl _)
  | update left hpaused => exact ⟨w, .refl w, hpaused, rfl⟩

theorem Due.of_entry (h : Due run p ε .entry w s w₀ point') : (s, w₀) = (Stage.entry, w) := by
  cases h
  rfl

theorem Due.of_tick {left : Nat} (h : Due run p ε (.tick left) w s w₀ point') :
    (s, w₀) = (Stage.update, w.lapsed p.delta) := by
  cases h
  rfl

theorem Skips.looked (h : Skips run p ε point w point' w') : Looked run p w w' := by
  cases h with
  | init hlook => exact .look hlook (.refl _)
  | update hlook => exact .look hlook (.refl _)

theorem Ends.looked (h : Ends run p ε point w w') : Looked run p w w' := by
  cases h with
  | update hlook => exact .look hlook (.refl _)
  | exhausted => exact .refl w
  | paused => exact .refl w

theorem Concludes.after {o : Outcome ε Bool} (h : Looked run p w w')
    (h' : Concludes run p w' calls o) : Concludes run p w calls o := by
  cases o with
  | done ok w₁ =>
    cases ok with
    | true => exact Trace.after h h'
    | false => exact h'
  | raised => exact h'
  | starved => exact Or.imp_left (fun ⟨w₁, htrace⟩ => ⟨w₁, htrace.after h⟩) h'

theorem Concludes.cons {o : Outcome ε Bool} {w₁ : World} (hprecedes : Precedes run p w w₀ s)
    (hcall : p.call run s w₀ = .done () w₁) (h : Concludes run p w₁ calls o) :
    Concludes run p w ((s, w₀) :: calls) o := by
  cases o with
  | done ok w' =>
    cases ok with
    | true => exact Trace.cons hprecedes hcall h
    | false =>
      obtain ⟨before, s', w₀', message, w₂, rfl, hrest⟩ := h
      exact ⟨(s, w₀) :: before, s', w₀', message, w₂, rfl, hrest⟩
  | raised => exact h
  | starved =>
    rcases h with ⟨w₂, htrace⟩ | ⟨before, s', w₀', rfl, hrest⟩
    · exact .inl ⟨w₂, .cons hprecedes hcall htrace⟩
    · exact .inr ⟨(s, w₀) :: before, s', w₀', rfl, hrest⟩

def Point.Shape (p : Plan) : Point → List Stage → Prop
  | .entry, l => ∃ inits k, (inits = [] ∨ inits = [Stage.init]) ∧ k ≤ p.count ∧
      l = .entry :: (inits ++ List.replicate k .update)
  | .init, l => ∃ inits k, (inits = [] ∨ inits = [Stage.init]) ∧ k ≤ p.count ∧
      l = inits ++ List.replicate k .update
  | .update, l => ∃ k ≤ p.count, l = List.replicate k .update
  | .tick left, l => ∃ k ≤ left, l = List.replicate k .update

theorem Due.shape_nil (h : Due run p ε point w s w₀ point') : point'.Shape p [] := by
  cases h with
  | entry => exact ⟨[], 0, .inl rfl, Nat.zero_le _, rfl⟩
  | init => exact ⟨0, Nat.zero_le _, rfl⟩
  | update left => exact ⟨0, Nat.zero_le _, rfl⟩

theorem Due.shape_cons {l : List Stage} (h : Due run p ε point w s w₀ point')
    (hl : point'.Shape p l) : point.Shape p (s :: l) := by
  cases h with
  | entry =>
    obtain ⟨inits, k, hinits, hk, rfl⟩ := hl
    exact ⟨inits, k, hinits, hk, rfl⟩
  | init =>
    obtain ⟨k, hk, rfl⟩ := hl
    exact ⟨[.init], k, .inr rfl, hk, rfl⟩
  | update left =>
    obtain ⟨k, hk, rfl⟩ := hl
    exact ⟨k + 1, Nat.succ_le_succ hk, rfl⟩

theorem Unfolds.shape {o : Outcome ε Bool} (h : Unfolds run p point w calls o) :
    point.Shape p (calls.map Prod.fst) := by
  induction h with
  | passes hdue _ _ ih => exact hdue.shape_cons ih
  | fails hdue _ => exact hdue.shape_cons hdue.shape_nil
  | hangs hdue _ => exact hdue.shape_cons hdue.shape_nil
  | skips hskips _ ih =>
    cases hskips with
    | init =>
      obtain ⟨k, hk, hl⟩ := ih
      exact ⟨[], k, .inl rfl, hk, hl⟩
    | update => exact ih
  | ends hends => cases hends <;> exact ⟨0, Nat.zero_le _, rfl⟩
  | stuck hstuck =>
    cases hstuck with
    | init => exact ⟨[], 0, .inl rfl, Nat.zero_le _, rfl⟩
    | update => exact ⟨0, Nat.zero_le _, rfl⟩

/-- The call that is due comes first. -/
theorem Due.split {s' : Stage} {w₀' : World} {rest before after : List (Stage × World)}
    (h : Due run p ε point w s' w₀' point')
    (hrest : ∀ before', rest = before' ++ (s, w₀) :: after →
      ∃ point₁ point₂ w₁, Trace run p w ((s', w₀') :: before') w₁ ∧
        Due run p ε point₁ w₁ s w₀ point₂)
    (hcalls : (s', w₀') :: rest = before ++ (s, w₀) :: after) :
    ∃ point₁ point₂ w₁, Trace run p w before w₁ ∧ Due run p ε point₁ w₁ s w₀ point₂ := by
  rcases List.cons_eq_append_iff.mp hcalls with ⟨rfl, hhead⟩ | ⟨before', rfl, hlater⟩
  · obtain ⟨heq, _⟩ := List.cons.inj hhead
    cases heq
    exact ⟨point, point', w, .nil (.refl w), h⟩
  · exact hrest before' hlater

theorem not_nil_split {before after : List (Stage × World)} : ¬ [] = before ++ (s, w₀) :: after := by
  simp

/-- Whenever a call begins, it is due, and all before it came to their ends. -/
theorem Unfolds.due {o : Outcome ε Bool} (h : Unfolds run p point w calls o)
    {before after : List (Stage × World)} (hcalls : calls = before ++ (s, w₀) :: after) :
    ∃ point₁ point₂ w₁, Trace run p w before w₁ ∧ Due run p ε point₁ w₁ s w₀ point₂ := by
  -- on the unfolding, as the calls before the one in question are taken off the list
  induction h generalizing before with
  | passes hdue hcall _ ih =>
    refine hdue.split (fun before' hlater => ?_) hcalls
    obtain ⟨point₁, point₂, w₂, htrace, hlast⟩ := ih hlater
    exact ⟨point₁, point₂, w₂, .cons hdue.precedes hcall htrace, hlast⟩
  | fails hdue _ => exact hdue.split (fun _ hlater => absurd hlater not_nil_split) hcalls
  | hangs hdue _ => exact hdue.split (fun _ hlater => absurd hlater not_nil_split) hcalls
  | skips hskips _ ih =>
    obtain ⟨point₁, point₂, w₁, htrace, hlast⟩ := ih hcalls
    exact ⟨point₁, point₂, w₁, htrace.after hskips.looked, hlast⟩
  | ends => exact absurd hcalls not_nil_split
  | stuck => exact absurd hcalls not_nil_split

/-- The first of the updates comes at once. -/
theorem Unfolds.first_tick {left : Nat} {o : Outcome ε Bool}
    (h : Unfolds run p (.tick left) w calls o) {before after : List (Stage × World)}
    (hcalls : calls = before ++ (s, w₀) :: after) (hbefore : Stage.update ∉ before.map Prod.fst) :
    before = [] ∧ w₀ = w.lapsed p.delta := by
  -- nothing but updates comes from here on
  obtain ⟨k, _, hstages⟩ := h.shape
  obtain rfl : before = [] := by
    cases before with
    | nil => rfl
    | cons c before =>
      have hc : c.1 ∈ List.replicate k Stage.update := hstages ▸ hcalls ▸ List.mem_cons_self
      have hupdate : c.1 = .update := List.eq_of_mem_replicate hc
      exact absurd (hupdate ▸ List.mem_cons_self) hbefore
  refine ⟨rfl, ?_⟩
  have hworld {c : Stage × World} {rest : List (Stage × World)}
      (hrest : c :: rest = (s, w₀) :: after) (hc : c = (.update, w.lapsed p.delta)) :
      w₀ = w.lapsed p.delta :=
    congrArg Prod.snd ((List.cons.inj hrest).1.symm.trans hc)
  cases h with
  | passes hdue => exact hworld hcalls hdue.of_tick
  | fails hdue => exact hworld hcalls hdue.of_tick
  | hangs hdue => exact hworld hcalls hdue.of_tick
  | skips hskips => cases hskips
  | ends => exact absurd hcalls not_nil_split
  | stuck => exact absurd hcalls not_nil_split

/-- An update is due only where updates are counted. -/
theorem Due.later_update {s' : Stage} {w₀' : World} {rest before after : List (Stage × World)}
    (h : Due run p ε point w s' w₀' point') (hpoint : ∀ left, point ≠ .tick left)
    (hcalls : (s', w₀') :: rest = before ++ (.update, w₀) :: after) :
    (∀ left, point' ≠ .tick left) ∧
      ∃ before', before = (s', w₀') :: before' ∧ rest = before' ++ (.update, w₀) :: after := by
  have hnext : s' ≠ .update ∧ ∀ left, point' ≠ .tick left := by
    cases h with
    | update left => exact absurd rfl (hpoint _)
    | _ => exact ⟨nofun, fun _ => nofun⟩
  refine ⟨hnext.2, ?_⟩
  rcases List.cons_eq_append_iff.mp hcalls with ⟨_, hhead⟩ | hlater
  · exact absurd (congrArg Prod.fst (List.cons.inj hhead).1).symm hnext.1
  · exact hlater

/-- There is no update unless `update` was found, and the first one comes right then. -/
theorem Unfolds.update_found {o : Outcome ε Bool} (h : Unfolds run p point w calls o)
    (hpoint : ∀ left, point ≠ .tick left) {before after : List (Stage × World)}
    (hcalls : calls = before ++ (.update, w₀) :: after)
    (hbefore : Stage.update ∉ before.map Prod.fst) :
    ∃ w₁ w₂, Trace run p w before w₁ ∧ p.look run ε "update" w₁ = .done true w₂ ∧
      w₀ = w₂.lapsed p.delta := by
  -- on the unfolding; time lapses only after the look for the handler, so not on the way there
  induction h generalizing before with
  | passes hdue hcall _ ih =>
    obtain ⟨hnext, before', rfl, hlater⟩ := hdue.later_update hpoint hcalls
    have hrest : Stage.update ∉ before'.map Prod.fst := fun hmem =>
      hbefore (List.mem_cons_of_mem _ hmem)
    obtain ⟨w₁, w₂, htrace, hlook⟩ := ih hnext hlater hrest
    exact ⟨w₁, w₂, .cons hdue.precedes hcall htrace, hlook⟩
  | fails hdue _ =>
    obtain ⟨_, _, _, hlater⟩ := hdue.later_update hpoint hcalls
    exact absurd hlater not_nil_split
  | hangs hdue _ =>
    obtain ⟨_, _, _, hlater⟩ := hdue.later_update hpoint hcalls
    exact absurd hlater not_nil_split
  | @skips _ _ w w' _ _ hskips hrest ih =>
    cases hskips with
    | init hlook =>
      obtain ⟨w₁, w₂, htrace, hfound⟩ := ih (fun _ => nofun) hcalls hbefore
      exact ⟨w₁, w₂, htrace.after (.look hlook (.refl _)), hfound⟩
    | update hlook =>
      obtain ⟨rfl, hlapsed⟩ := hrest.first_tick hcalls hbefore
      exact ⟨w, w', .nil (.refl w), hlook, hlapsed⟩
  | ends => exact absurd hcalls not_nil_split
  | stuck => exact absurd hcalls not_nil_split

theorem Unfolds.concludes {o : Outcome ε Bool} (h : Unfolds run p point w calls o) :
    Concludes run p w calls o := by
  induction h with
  | passes hdue hcall _ ih => exact ih.cons hdue.precedes hcall
  | @fails _ _ _ w₀ w₁ s message _ hcall => exact ⟨[], s, w₀, message, w₁, rfl, hcall, rfl⟩
  | @hangs _ _ _ w₀ _ s _ hcall => exact .inr ⟨[], s, w₀, rfl, hcall⟩
  | skips hskips _ ih => exact ih.after hskips.looked
  | ends hends => exact .nil hends.looked
  | @stuck _ w _ _ => exact .inl ⟨w, .nil (.refl w)⟩

/-- A call that fails is the last one. -/
theorem Unfolds.false_of_raised {o : Outcome ε Bool} (h : Unfolds run p point w calls o)
    {message : String} {w₁ : World} (hmem : (s, w₀) ∈ calls)
    (hraised : p.call run s w₀ = .raised message w₁) : ∃ w', o = .done false w' := by
  induction h with
  | passes hdue hcall _ ih =>
    rcases List.mem_cons.mp hmem with heq | hmem
    · cases heq
      rw [hcall] at hraised
      cases hraised
    · exact ih hmem
  | fails => exact ⟨_, rfl⟩
  | hangs hdue hcall =>
    cases List.mem_singleton.mp hmem
    rw [hcall] at hraised
    cases hraised
  | skips _ _ ih => exact ih hmem
  | ends => exact absurd hmem List.not_mem_nil
  | stuck => exact absurd hmem List.not_mem_nil

theorem Unfolds.account {o : Outcome ε Bool} (h : Unfolds run p .entry w calls o) :
    Account run p w calls o where
  order := h.shape
  first := by
    cases h with
    | passes hdue => exact ⟨_, congrArg (· :: _) hdue.of_entry⟩
    | fails hdue => exact ⟨_, congrArg (· :: _) hdue.of_entry⟩
    | hangs hdue => exact ⟨_, congrArg (· :: _) hdue.of_entry⟩
    | skips hskips => cases hskips
    | ends hends => cases hends
    | stuck hstuck => cases hstuck
  reached before after s w₀ hcalls := by
    obtain ⟨_, _, w₁, htrace, hdue⟩ := h.due hcalls
    exact ⟨w₁, htrace, hdue.precedes⟩
  init_found before after w₀ hcalls := by
    obtain ⟨_, _, w₁, htrace, hdue⟩ := h.due hcalls
    cases hdue with
    | init hlook => exact ⟨w₁, htrace, hlook⟩
  update_found before after w₀ := h.update_found fun _ => nofun
  concluded := h.concludes
  failed_iff := by
    constructor
    · rintro ⟨w', rfl⟩
      obtain ⟨before, s, w₀, message, w₁, rfl, hcall, _⟩ := h.concludes
      exact ⟨s, w₀, message, w₁, List.mem_append_right before List.mem_cons_self, hcall⟩
    · rintro ⟨s, w₀, message, w₁, hmem, hcall⟩
      exact h.false_of_raised hmem hcall
  last_line w' ho := by
    subst ho
    obtain ⟨before, s, w₀, message, w₁, rfl, hcall, rfl⟩ := h.concludes
    exact ⟨s, w₀, message, w₁, List.getLast?_concat, hcall, rfl, w₁.last_addError message⟩

end Accounts

end Headless

end ScenarioHost
