import ScenarioHost.CommandLine
import ScenarioHost.Proofs.SessionHistory
import ScenarioHost.Proofs.SingleOrder

/-!
The clock of a scenario. Time that is a number only ever moves it forward, up to infinity, and
amounts that are not above zero leave the whole session alone. What breaks the clock is a NaN: it
counts as time that passes, since it is not `≤ 0`, and no later change mends what comes of it.
-/
namespace ScenarioHost

namespace SessionChange

variable {c : SessionChange} {delta : Single}

/-- What is not measured counts all the same. -/
theorem counted_of_not_measured (h : ¬ c.Measured) :
    ∃ delta, c.counted? = some delta ∧ delta.isNan = true := by
  unfold Measured at h
  push Not at h
  obtain ⟨delta, rfl, hdelta⟩ := h
  have hnan : delta.isNan = true := by simpa using hdelta
  refine ⟨delta, ?_, hnan⟩
  rw [counted?, Single.nonpositive, hnan]
  rfl

theorem positive_of_measured (h : c.Measured) (hc : c.counted? = some delta) :
    Single.zero.less delta = true := by
  rw [h.counted] at hc
  cases c with
  | op o =>
    cases o with
    | advance amount =>
      obtain ⟨hpositive, hamount⟩ := Option.ite_none_right_eq_some.mp hc
      obtain rfl : amount = delta := Option.some.inj hamount
      exact hpositive
    | _ => cases hc
  | _ => cases hc

end SessionChange

namespace Single

variable {x : Single} {deltas : List Single}

/-- Once a sum is NaN it stays so. -/
theorem isNan_foldl_add (h : x.isNan = true) : (deltas.foldl (· + ·) x).isNan = true := by
  induction deltas generalizing x with
  | nil => exact h
  | cons delta rest ih => exact ih (isNan_add_left delta h)

theorem isNan_foldl_of_mem {delta : Single} (hmem : delta ∈ deltas) (h : delta.isNan = true) :
    (deltas.foldl (· + ·) x).isNan = true := by
  induction deltas generalizing x with
  | nil => cases hmem
  | cons first rest ih =>
    rw [List.foldl_cons]
    cases hmem with
    | head => exact isNan_foldl_add (isNan_add_right x h)
    | tail _ hrest => exact ih hrest

/-- A sum of amounts above zero never falls. -/
theorem atMost_foldl_add (hx : zero.AtMost x) (h : ∀ delta ∈ deltas, zero.less delta = true) :
    x.AtMost (deltas.foldl (· + ·) x) := by
  induction deltas generalizing x with
  | nil => exact .refl hx.2.1
  | cons delta rest ih =>
    have hstep : x.AtMost (x + delta) := atMost_add hx (h delta List.mem_cons_self)
    apply hstep.trans
    apply ih (hx.trans hstep)
    intro later hlater
    exact h later (List.mem_cons_of_mem _ hlater)

end Single

namespace Session

open SessionChange

/-- What the clock of a session does from here on, whatever changes come. -/
structure ClockLaw (absent : Single) (s : Session) : Prop where
  /-- Only a NaN that passes before the first victory breaks the clock. -/
  broken_iff (cs : List SessionChange) :
    (s.replay absent cs).elapsed.isNan = true ↔
      s.paused = false ∧ ∃ c ∈ beforeVictory cs, ¬ c.Measured
  forward (cs : List SessionChange) :
    (s.replay absent cs).elapsed.isNan = false → s.elapsed.AtMost (s.replay absent cs).elapsed
  /-- An amount that is a number, but not above zero, changes nothing at all. -/
  idle (delta : Single) :
    delta.isNan = false → Single.zero.less delta = false → s.advance delta = s

variable (absent : Single) {s : Session}

theorem idle_of_not_positive (s : Session) {delta : Single} (hnan : delta.isNan = false)
    (hpositive : Single.zero.less delta = false) : s.advance delta = s := by
  apply advance_nonpositive
  rw [Single.nonpositive, hnan, hpositive]
  rfl

/-- From the first NaN on the clock is broken. -/
theorem stays_broken (hs : s.elapsed.isNan = true) (cs : List SessionChange) :
    (s.replay absent cs).elapsed.isNan = true := by
  rw [elapsed_replay]
  split
  · exact hs
  · exact Single.isNan_foldl_add hs

theorem elapsed_of_measured (hs : Single.zero.AtMost s.elapsed) {cs : List SessionChange}
    (h : ∀ c ∈ beforeVictory cs, c.Measured) : s.elapsed.AtMost (s.replay absent cs).elapsed := by
  rw [elapsed_replay]
  split
  · exact .refl hs.2.1
  · apply Single.atMost_foldl_add hs
    intro delta hdelta
    obtain ⟨c, hc, hcounted⟩ := List.mem_filterMap.mp hdelta
    exact positive_of_measured (h c hc) hcounted

/-- A clock that stands is as it was, and one that runs is moved on by what can be measured. -/
theorem elapsed_of_sound (hs : Single.zero.AtMost s.elapsed) {cs : List SessionChange}
    (hsound : ¬ (s.paused = false ∧ ∃ c ∈ beforeVictory cs, ¬ c.Measured)) :
    s.elapsed.AtMost (s.replay absent cs).elapsed := by
  cases hpaused : s.paused with
  | true =>
    rw [elapsed_replay, hpaused, if_pos rfl]
    exact .refl hs.2.1
  | false =>
    apply elapsed_of_measured absent hs
    intro c hc
    by_contra hunmeasured
    exact hsound ⟨hpaused, c, hc, hunmeasured⟩

theorem elapsed_broken_iff (hs : Single.zero.AtMost s.elapsed) (cs : List SessionChange) :
    (s.replay absent cs).elapsed.isNan = true ↔
      s.paused = false ∧ ∃ c ∈ beforeVictory cs, ¬ c.Measured := by
  constructor
  · intro hnan
    by_contra hsound
    have htime := elapsed_of_sound absent hs hsound
    exact Bool.false_ne_true (htime.2.1.symm.trans hnan)
  · intro ⟨hpaused, c, hc, hunmeasured⟩
    obtain ⟨delta, hcounted, hnan⟩ := counted_of_not_measured hunmeasured
    rw [elapsed_replay, hpaused, if_neg Bool.false_ne_true]
    exact Single.isNan_foldl_of_mem (List.mem_filterMap.mpr ⟨c, hc, hcounted⟩) hnan

theorem clockLaw_of_time (hs : Single.zero.AtMost s.elapsed) : s.ClockLaw absent where
  broken_iff := elapsed_broken_iff absent hs
  forward cs hnumber := by
    refine elapsed_of_sound absent hs fun hbroken => ?_
    have hnan := (elapsed_broken_iff absent hs cs).mpr hbroken
    exact Bool.false_ne_true (hnumber.symm.trans hnan)
  idle _ := idle_of_not_positive s

/-- What a NaN does to a session whose scenario runs: the message it leaves has no time that could
be used up. -/
theorem advance_nan {delta : Single} (hpaused : s.paused = false) (hnan : delta.isNan = true) :
    (s.advance delta).elapsed.isNan = true ∧
      (s.advance delta).globalMessage =
        s.globalMessage.map fun m => { m with timeout := .nan } := by
  have hcounts : delta.nonpositive = false := by
    rw [Single.nonpositive, hnan]
    rfl
  have hneg : delta.neg = .nan := by
    unfold Single.neg
    rw [Single.reading_of_isNan hnan]
  -- whatever time was left, all NaNs that a difference can be are one
  have hleft (x : Single) : x - delta = .nan := by
    change x.add delta.neg = .nan
    have hreading : Single.nan.reading = .nan := by decide
    rw [hneg]
    unfold Single.add
    rw [hreading]
    cases x.reading <;> rfl
  have hafter (m : GlobalMessage) :
      GlobalMessage.after m delta = some { m with timeout := .nan } := by
    have hkept : Single.nan.nonpositive = false := by decide
    unfold GlobalMessage.after
    dsimp only
    rw [hleft, hkept, if_neg Bool.false_ne_true]
  unfold advance
  rw [hpaused, hcounts, Bool.or_self, if_neg Bool.false_ne_true]
  refine ⟨Single.isNan_add_right _ hnan, ?_⟩
  cases s.globalMessage with
  | none => rfl
  | some m => exact hafter m

end Session

/-- The clock of a session after any history. If it holds a number it has a law to follow from there
on; if it does not, it never does again; and a NaN that passes while the scenario runs breaks it. What
hosts do, and the scripts that they run, only ever goes on with that history. -/
theorem clock_runs_forward_unless_broken (absent : Single) (cs : List SessionChange) :
    let s := Session.new.replay absent cs
    (s.elapsed.isNan = false → s.ClockLaw absent) ∧
    (s.elapsed.isNan = true → ∀ later, (s.replay absent later).elapsed.isNan = true) ∧
    (∀ delta, s.paused = false → delta.isNan = true →
      (s.advance delta).elapsed.isNan = true ∧
        (s.advance delta).globalMessage =
          s.globalMessage.map fun m => { m with timeout := .nan }) ∧
    ∀ stop limit fuel held steps (w : World) s', w.session = some s →
      (Host.performAll (Engine.stopped stop limit fuel) held steps w).world.session = some s' →
        ∃ later, s' = s.replay absent later := by
  intro s
  refine ⟨?_, ?_, ?_, ?_⟩
  · intro hnumber
    -- the law asks for a time that is not below zero, and from a new session on no number is
    apply Session.clockLaw_of_time
    have hnew : Session.new.ClockLaw absent := by
      apply Session.clockLaw_of_time
      exact Single.AtMost.refl (by decide)
    exact hnew.forward cs hnumber
  · exact Session.stays_broken absent
  · intro delta
    exact Session.advance_nan
  · intro stop limit fuel held steps w s' hs hs'
    have hrun := Host.advanced_performAll (Engine.lawful_stopped stop limit fuel) steps held w
    obtain ⟨s₀, later, hs₀, hlater⟩ := World.lasting_continues.advanced hrun absent s' hs'
    obtain rfl : s = s₀ := Option.some.inj (hs.symm.trans hs₀)
    exact ⟨later, hlater⟩

/-- One second and then two more, of which a NaN in between would leave nothing. -/
theorem clock_goes_on_after_a_second :
    Single.AtMost (.ofInt 1) (Session.new.replay .zero
      [.op (.advance (.ofInt 1)), .op (.advance (.ofInt 2))]).elapsed ∧
    (Session.new.replay .zero
      [.op (.advance (.ofInt 1)), .op (.advance .nan), .op (.advance (.ofInt 2))]).elapsed.isNan =
        true := by
  have hfirst : (Session.new.replay .zero [.op (.advance (.ofInt 1))]).elapsed = .ofInt 1 := by
    decide
  have hlaw := (clock_runs_forward_unless_broken .zero [.op (.advance (.ofInt 1))]).1
    (by rw [hfirst]; decide)
  refine ⟨?_, ?_⟩
  · have hforward := hlaw.forward [.op (.advance (.ofInt 2))] (by decide)
    rw [hfirst] at hforward
    exact hforward
  · have hbroken := hlaw.broken_iff [.op (.advance .nan), .op (.advance (.ofInt 2))]
    apply hbroken.mpr
    refine ⟨by decide, .op (.advance .nan), by simp [SessionChange.beforeVictory,
      SessionChange.declared?], ?_⟩
    intro hmeasured
    have hnan := hmeasured .nan rfl
    exact absurd hnan (by decide)

/-- A command line can ask for ticks of no number of seconds. One such tick breaks the clock for
good, and takes the time from the message that is shown. -/
theorem tick_of_nan_breaks_the_clock :
    CommandLine.parseDelta "NaN" = .ok .nan ∧ Single.zero.less .nan = false ∧
    (let shown := Session.new.showMessage "Incoming" (.ofInt 5)
     let broken := shown.advance .nan
     shown.elapsed = .zero ∧ broken.elapsed = .nan ∧
       broken.globalMessage ≠ shown.globalMessage ∧
       (broken.advance (.ofInt 1)).elapsed = .nan) := by
  decide

end ScenarioHost
