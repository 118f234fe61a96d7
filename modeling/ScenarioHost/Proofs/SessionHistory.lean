import ScenarioHost.Proofs.Annals

/-!
The session as an account of what happened to it. Victory, the pause, the time and the message on
all screens are cells of their own; what each of them holds is read off the list of all changes, in
whatever order host and scripts made them.
-/
namespace ScenarioHost

/-- A change of the session. -/
inductive SessionChange where
  | op (op : SessionOp)
  /-- A message that may come without a time of its own. -/
  | message (text : String) (timeout : Option Single)
  | addScript (e : EnvironmentId)
  | dropScripts

namespace SessionChange

def apply (absent : Single) : SessionChange → Session → Session
  | .op o => o.apply
  | .message text timeout => fun s => s.showMessage text (timeout.getD absent)
  | .addScript e => fun s => s.addScript e
  | .dropScripts => Session.dropScripts

def declared? : SessionChange → Option String
  | .op (.victory faction) => some faction
  | _ => none

def shown? (absent : Single) : SessionChange → Option GlobalMessage
  | .op (.message text timeout) => some ⟨text, timeout⟩
  | .message text timeout => some ⟨text, timeout.getD absent⟩
  | _ => none

def positive? : SessionChange → Option Single
  | .op (.advance delta) => if Single.zero.less delta then some delta else none
  | _ => none

def counted? : SessionChange → Option Single
  | .op (.advance delta) => if delta.nonpositive then none else some delta
  | _ => none

theorem counted_of_declared {c : SessionChange} {faction : String}
    (hc : c.declared? = some faction) : c.counted? = none := by
  cases c with
  | op o =>
    cases o with
    | advance delta => cases hc
    | _ => rfl
  | _ => rfl

def beforeVictory (cs : List SessionChange) : List SessionChange :=
  cs.takeWhile fun c => c.declared?.isNone

/-- The change lets no NaN pass for a time. -/
def Measured (c : SessionChange) : Prop := ∀ delta, c = .op (.advance delta) → delta.isNan = false

theorem Measured.counted {c : SessionChange} (h : c.Measured) : c.counted? = c.positive? := by
  cases c with
  | op o =>
    cases o with
    | advance delta =>
      simp only [counted?, positive?, Single.nonpositive, h delta rfl]
      cases Single.zero.less delta <;> rfl
    | _ => rfl
  | _ => rfl

end SessionChange

def Session.replay (absent : Single) (s : Session) (cs : List SessionChange) : Session :=
  cs.foldl (fun s c => c.apply absent s) s

namespace Session

def GlobalMessage.afterAll (m : GlobalMessage) (deltas : List Single) : Option GlobalMessage :=
  deltas.foldlM GlobalMessage.after m

theorem GlobalMessage.afterAll_nil (m : GlobalMessage) : GlobalMessage.afterAll m [] = some m := rfl

theorem GlobalMessage.afterAll_cons (m : GlobalMessage) (delta : Single) (rest : List Single) :
    GlobalMessage.afterAll m (delta :: rest) =
      (GlobalMessage.after m delta).bind fun m => GlobalMessage.afterAll m rest := rfl

theorem GlobalMessage.afterAll_append (m : GlobalMessage) (before after : List Single) :
    GlobalMessage.afterAll m (before ++ after) =
      (GlobalMessage.afterAll m before).bind (GlobalMessage.afterAll · after) := List.foldlM_append

def remainders (time : Single) : List Single → List Single
  | [] => []
  | delta :: rest => (time - delta) :: remainders (time - delta) rest

/-- A message goes as soon as what is left of its time is `≤ 0`. -/
theorem GlobalMessage.afterAll_eq (m : GlobalMessage) (deltas : List Single) :
    GlobalMessage.afterAll m deltas =
      if (remainders m.timeout deltas).any Single.nonpositive then none
      else some ⟨m.text, deltas.foldl (· - ·) m.timeout⟩ := by
  induction deltas generalizing m with
  | nil => rfl
  | cons delta rest ih =>
    rw [GlobalMessage.afterAll_cons, GlobalMessage.after, remainders, List.any_cons]
    cases hleft : (m.timeout - delta).nonpositive with
    | true => rfl
    | false => exact ih { m with timeout := m.timeout - delta }

open SessionChange

variable (absent : Single) (s : Session) (c : SessionChange) (cs : List SessionChange)

@[simp] theorem replay_nil : s.replay absent [] = s := rfl

@[simp] theorem replay_cons :
    s.replay absent (c :: cs) = (c.apply absent s).replay absent cs := rfl

theorem replay_append (cs' : List SessionChange) :
    s.replay absent (cs ++ cs') = (s.replay absent cs).replay absent cs' := List.foldl_append

/-! What one change does to the four cells. -/

theorem paused_apply : (c.apply absent s).paused = (s.paused || c.declared?.isSome) := by
  cases c with
  | op o =>
    cases o with
    | victory faction => exact (Bool.or_true _).symm
    | advance delta =>
      simp only [SessionChange.apply, SessionOp.apply, advance]
      split <;> exact (Bool.or_false _).symm
    | _ => exact (Bool.or_false _).symm
  | _ => exact (Bool.or_false _).symm

theorem victory_apply : (c.apply absent s).victory = c.declared?.or s.victory := by
  cases c with
  | op o =>
    cases o with
    | advance delta =>
      simp only [SessionChange.apply, SessionOp.apply, advance]
      split <;> rfl
    | _ => rfl
  | _ => rfl

theorem advance_paused (delta : Single) (h : s.paused = true) : s.advance delta = s := by
  simp only [advance, h, Bool.true_or, if_true]

theorem advance_nonpositive (delta : Single) (h : delta.nonpositive = true) :
    s.advance delta = s := by
  simp only [advance, h, Bool.or_true, if_true]

theorem elapsed_apply :
    (c.apply absent s).elapsed =
      if s.paused then s.elapsed else c.counted?.toList.foldl (· + ·) s.elapsed := by
  cases c with
  | op o =>
    cases o with
    | advance delta =>
      simp only [SessionChange.apply, SessionOp.apply, counted?, advance]
      cases s.paused <;> cases delta.nonpositive <;> rfl
    | _ => exact (ite_self _).symm
  | _ => exact (ite_self _).symm

theorem message_apply (hc : c.shown? absent = none) :
    (c.apply absent s).globalMessage =
      if s.paused then s.globalMessage
      else s.globalMessage.bind (GlobalMessage.afterAll · c.counted?.toList) := by
  have hrest : s.globalMessage =
      if s.paused then s.globalMessage else s.globalMessage.bind (GlobalMessage.afterAll · []) := by
    cases s.paused <;> cases s.globalMessage <;> rfl
  cases c with
  | op o =>
    cases o with
    | advance delta =>
      cases hnone : delta.nonpositive with
      | true =>
        simpa only [SessionChange.apply, SessionOp.apply, counted?, hnone, if_true,
          s.advance_nonpositive delta hnone, Option.toList_none] using hrest
      | false =>
        simp only [SessionChange.apply, SessionOp.apply, advance, counted?, hnone, Bool.or_false,
          Bool.false_eq_true, if_false, Option.toList_some, GlobalMessage.afterAll_cons,
          GlobalMessage.afterAll_nil, Option.bind_fun_some]
        split <;> rfl
    | message text timeout => cases hc
    | _ => exact hrest
  | message text timeout => cases hc
  | _ => exact hrest

theorem message_shown {m : GlobalMessage} (hc : c.shown? absent = some m) :
    (c.apply absent s).globalMessage = some m ∧ c.declared? = none := by
  cases c with
  | op o =>
    cases o with
    | message text timeout => exact ⟨hc, rfl⟩
    | _ => cases hc
  | message text timeout => exact ⟨hc, rfl⟩
  | _ => cases hc

/-! What a list of changes leaves in the four cells. -/

/-- The amounts of time that count before the first victory. -/
theorem counted_cons :
    (beforeVictory (c :: cs)).filterMap counted? =
      if c.declared?.isSome then []
      else c.counted?.toList ++ (beforeVictory cs).filterMap counted? := by
  unfold beforeVictory
  rw [List.takeWhile_cons]
  cases hdeclared : c.declared? with
  | some faction => rfl
  | none =>
    simp only [Option.isNone_none, if_true, List.filterMap_cons, Option.isSome_none,
      Bool.false_eq_true, if_false]
    cases c.counted? <;> rfl

theorem paused_replay : (s.replay absent cs).paused = (s.paused || cs.any (·.declared?.isSome)) := by
  induction cs generalizing s with
  | nil => exact (Bool.or_false _).symm
  | cons c cs ih => rw [replay_cons, ih, paused_apply, List.any_cons, Bool.or_assoc]

/-- The pause is there exactly with a victory. -/
theorem paused_eq_replay (hs : s.paused = s.victory.isSome) :
    (s.replay absent cs).paused = (s.replay absent cs).victory.isSome := by
  induction cs generalizing s with
  | nil => exact hs
  | cons c cs ih =>
    refine ih _ ?_
    rw [paused_apply, victory_apply, Option.isSome_or, hs, Bool.or_comm]

/-- The latest victory counts. -/
theorem victory_replay :
    (s.replay absent cs).victory = (cs.filterMap declared?).getLast?.or s.victory := by
  induction cs generalizing s with
  | nil => rfl
  | cons c cs ih =>
    rw [replay_cons, ih, victory_apply, List.filterMap_cons]
    cases c.declared? with
    | none => rfl
    | some faction =>
      rw [List.getLast?_cons]
      cases (cs.filterMap declared?).getLast? <;> rfl

/-- Time adds up until the first victory. -/
theorem elapsed_replay :
    (s.replay absent cs).elapsed =
      if s.paused then s.elapsed
      else ((beforeVictory cs).filterMap counted?).foldl (· + ·) s.elapsed := by
  induction cs generalizing s with
  | nil => exact (ite_self _).symm
  | cons c cs ih =>
    rw [replay_cons, ih, paused_apply, elapsed_apply, counted_cons]
    cases s.paused with
    | true => rfl
    | false =>
      cases hdeclared : c.declared? with
      | some faction =>
        rw [counted_of_declared hdeclared]
        rfl
      | none => exact List.foldl_append.symm

/-- The latest message lasts until its time is used up. -/
theorem message_replay (hcs : ∀ c ∈ cs, c.shown? absent = none) :
    (s.replay absent cs).globalMessage =
      if s.paused then s.globalMessage
      else s.globalMessage.bind
        (GlobalMessage.afterAll · ((beforeVictory cs).filterMap counted?)) := by
  -- on the changes from the first one on, since a victory stops the time of all that follow
  induction cs generalizing s with
  | nil =>
    rw [replay_nil]
    cases s.paused <;> cases s.globalMessage <;> rfl
  | cons c cs ih =>
    have hc := hcs c List.mem_cons_self
    rw [replay_cons, ih _ fun c hc => hcs c (List.mem_cons_of_mem _ hc), paused_apply,
      message_apply _ _ _ hc, counted_cons]
    cases s.paused with
    | true => rfl
    | false =>
      cases hdeclared : c.declared? with
      | some faction =>
        rw [counted_of_declared hdeclared]
        rfl
      | none =>
        let rest := (beforeVictory cs).filterMap counted?
        calc (s.globalMessage.bind (GlobalMessage.afterAll · c.counted?.toList)).bind
              (GlobalMessage.afterAll · rest)
          _ = s.globalMessage.bind fun m =>
              (GlobalMessage.afterAll m c.counted?.toList).bind (GlobalMessage.afterAll · rest) :=
            Option.bind_assoc ..
          _ = s.globalMessage.bind (GlobalMessage.afterAll · (c.counted?.toList ++ rest)) := by
            simp only [GlobalMessage.afterAll_append]

/-- What is known of a session that changes made of a new one. -/
structure Follows : Prop where
  paused_iff : s.paused = true ↔ s.victory.isSome = true
  /-- The latest victory counts. -/
  victory : s.victory = (cs.filterMap declared?).getLast?
  stays_paused (more : List SessionChange) :
    s.paused = true → (s.replay absent more).paused = true
  stopped (delta : Single) : s.paused = true → s.advance delta = s
  idle (delta : Single) : delta.nonpositive = true → s.advance delta = s
  elapsed : s.paused = false → s.elapsed = (cs.filterMap positive?).foldl (· + ·) .zero
  unshown : (∀ c ∈ cs, c.shown? absent = none) → s.globalMessage = none
  /-- The latest message, with what is left of its time. -/
  message (before : List SessionChange) (c : SessionChange) (after : List SessionChange)
    (m : GlobalMessage) : cs = before ++ c :: after → c.shown? absent = some m →
      (∀ c ∈ after, c.shown? absent = none) → s.paused = false →
      s.globalMessage =
        if (remainders m.timeout (after.filterMap positive?)).any Single.nonpositive then none
        else some ⟨m.text, (after.filterMap positive?).foldl (· - ·) m.timeout⟩

variable {absent cs}

theorem undeclared_of_unpaused (h : (s.replay absent cs).paused = false) :
    s.paused = false ∧ ∀ c ∈ cs, c.declared? = none := by
  rw [paused_replay, Bool.or_eq_false_iff, List.any_eq_false] at h
  exact ⟨h.1, fun c hc => Option.not_isSome_iff_eq_none.mp (h.2 c hc)⟩

/-- Until the first victory all amounts that are more than none count. -/
theorem passed_of_undeclared (hdeclared : ∀ c ∈ cs, c.declared? = none)
    (hmeasured : ∀ c ∈ cs, c.Measured) :
    (beforeVictory cs).filterMap counted? = cs.filterMap positive? := by
  induction cs with
  | nil => rfl
  | cons c cs ih =>
    have hrest := ih (fun x hx => hdeclared x (List.mem_cons_of_mem _ hx))
      fun x hx => hmeasured x (List.mem_cons_of_mem _ hx)
    rw [counted_cons, hdeclared c List.mem_cons_self, hrest,
      (hmeasured c List.mem_cons_self).counted, List.filterMap_cons]
    cases c.positive? <;> rfl

variable (absent)

theorem follows_replay (hcs : ∀ c ∈ cs, c.Measured) :
    (new.replay absent cs).Follows absent cs where
  paused_iff := by rw [paused_eq_replay _ _ _ rfl]
  victory := by rw [victory_replay, show new.victory = none from rfl, Option.or_none]
  stays_paused more h := by rw [paused_replay, h, Bool.true_or]
  stopped delta h := advance_paused _ delta h
  idle delta h := advance_nonpositive _ delta h
  elapsed h := by
    obtain ⟨hnew, hdeclared⟩ := undeclared_of_unpaused _ h
    rw [elapsed_replay, hnew, passed_of_undeclared hdeclared hcs]
    rfl
  unshown h := by
    rw [message_replay _ _ _ h]
    exact ite_self _
  message before c after m := by
    rintro rfl hshown hafter h
    have hmeasured : ∀ c ∈ after, c.Measured := fun x hx =>
      hcs x (List.mem_append_right _ (List.mem_cons_of_mem _ hx))
    -- a message takes the place of the one before it, so only the time behind it counts
    rw [replay_append, replay_cons] at h ⊢
    obtain ⟨hpaused, hdeclared⟩ := undeclared_of_unpaused _ h
    rw [message_replay _ _ _ hafter, hpaused, (message_shown _ _ _ hshown).1,
      passed_of_undeclared hdeclared hmeasured]
    exact GlobalMessage.afterAll_eq m _

variable {s}

/-- The sub-scripts of a session are of no account here. -/
theorem Follows.of_dropScripts (h : s.dropScripts.Follows absent cs) : s.Follows absent cs where
  paused_iff := h.paused_iff
  victory := h.victory
  stays_paused more hpaused := by rw [paused_replay, hpaused, Bool.true_or]
  stopped delta hpaused := advance_paused s delta hpaused
  idle delta hnone := advance_nonpositive s delta hnone
  elapsed := h.elapsed
  unshown := h.unshown
  message := h.message

variable (s)

theorem replay_addScripts (es : List EnvironmentId) :
    s.replay absent (es.map .addScript) = { s with scripts := s.scripts ++ es } := by
  induction es generalizing s with
  | nil => rw [List.append_nil]; rfl
  | cons e es ih =>
    rw [List.map_cons, replay_cons, ih]
    simp only [SessionChange.apply, addScript, List.append_assoc, List.cons_append, List.nil_append]

end Session

def Happening.changes (l : List Happening) : List SessionChange :=
  (l.filterMap Happening.op?).map .op

/-- A session is what happened made of a new one, with the sub-scripts that it owns. -/
theorem Annals.replays {ε α : Type} {Carries : Lua.Evaluator → Prop} {config : Config}
    {library : Library} {o : Outcome ε α} {l : List Happening}
    (h : Annals Carries (World.new config library) l o.moment) {s : Session}
    (hs : o.world.session = some s) (absent : Single) :
    s.dropScripts = Session.new.replay absent (Happening.changes l) := by
  obtain ⟨s₀, hs₀, hreplayed⟩ := h.read_session Session.dropScripts SessionOp.apply
    SessionOp.apply_dropScripts (fun _ => rfl) hs
  obtain rfl : Session.new = s₀ := Option.some.inj hs₀
  rw [hreplayed, Session.replay, Happening.changes, List.foldl_map]
  rfl

def World.Continues (w w' : World) : Prop :=
  ∀ absent s', w'.session = some s' → ∃ s cs, w.session = some s ∧ s' = s.replay absent cs

namespace World

variable {w w' w'' : World}

theorem continues_of_eq (h : w'.session = w.session) : w.Continues w' :=
  fun _ s' hs => ⟨s', [], h ▸ hs, rfl⟩

theorem Continues.trans (first : w.Continues w') (second : w'.Continues w'') :
    w.Continues w'' := by
  intro absent s'' hs''
  obtain ⟨s', after, hs', rfl⟩ := second absent s'' hs''
  obtain ⟨s, before, hs, rfl⟩ := first absent s' hs'
  exact ⟨s, before ++ after, hs, (Session.replay_append ..).symm⟩

theorem continues_change (w : World) (c : SessionChange) (f : Session → Session)
    (hf : ∀ absent s, f s = c.apply absent s) : w.Continues (w.modifySession f) := by
  intro absent s' hs'
  obtain ⟨s, hs, rfl⟩ := Option.map_eq_some_iff.mp hs'
  exact ⟨s, [c], hs, hf absent s⟩

theorem continues_clearScripts (w : World) : w.Continues w.clearScripts := by
  intro absent s' hs'
  rw [session_clearScripts] at hs'
  obtain ⟨s, hs, rfl⟩ := Option.map_eq_some_iff.mp hs'
  exact ⟨s, [.dropScripts], hs, rfl⟩

theorem lasting_continues : Host.Lasting Continues where
  refl w := continues_of_eq rfl
  trans := Continues.trans
  effect he := by
    cases he with
    | session _ _ op => exact continues_change _ (.op op) _ fun _ _ => rfl
    | clearScripts => exact continues_clearScripts _
    | letGo =>
      exact kept_by_letGo (fun _ => continues_of_eq rfl) (fun _ _ => continues_of_eq rfl) _ _
    | _ => exact continues_of_eq rfl
  enter _ := continues_of_eq rfl
  leave e w := continues_of_eq rfl
  hold _ := continues_of_eq rfl
  unhold e w := continues_of_eq rfl
  extended w := continues_of_eq rfl
  adopted e script w := (w.continues_change (.addScript script) _ fun _ _ => rfl).trans
    (continues_of_eq rfl)
  destroy e w := continues_of_eq rfl
  controlled e functions w := continues_of_eq rfl
  lending e w := continues_of_eq rfl
  adding e w := w.continues_change (.addScript e) _ fun _ _ => rfl
  endSession w := fun _ _ hs => by cases hs
  equipped w b := continues_of_eq rfl

end World

/-- A message of a script is shown for the time that comes with it, or else for the configured
one. -/
theorem Interface.globalMessage_shows {env : EnvironmentId} {args : List Lua.Value} {w : World}
    {text : String} {timeout : Option Single} (hs : w.session.isNone = false)
    (htext : Conversion.toText (w.heap env) (.arg args 0) = .ok text)
    (htimeout : Conversion.toOptional (Conversion.toSingle (w.heap env)) (.arg args 1) =
      .ok timeout) :
    Interface.globalMessage env args w = .done []
      (w.modifySession
        ((SessionChange.message text timeout).apply w.config.messageTimeout)) := by
  unfold globalMessage Conversion.optional
  rw [Act.bind_apply, Conversion.argument_ok htext]
  simp only
  rw [Act.bind_apply, Conversion.argument_ok htimeout]
  unfold changeSession
  simp only [Act.bind_apply, Act.read, hs]
  rfl

/-- The account that a session gives of its changes. At every moment of every run the session is
what happened so far made of a new one, so it gives that account of the run; and a message of a
script is among the changes with the time that came with it, or else with the configured one. -/
theorem sessions_follow_their_changes :
    (∀ absent cs, (∀ c ∈ cs, SessionChange.Measured c) →
      (Session.new.replay absent cs).Follows absent cs) ∧
    (∀ config library stop limit fuel steps, ∃ l, (∀ h ∈ l, h.ByHost steps) ∧
      Annals (Engine.StoppedBy stop) (World.new config library) l
        (Host.performAll (Engine.stopped stop limit fuel) [] steps
          (World.new config library)).moment ∧
      ∀ s, (Host.performAll (Engine.stopped stop limit fuel) [] steps
          (World.new config library)).world.session = some s →
        (∀ absent, s = Session.new.replay absent
          (Happening.changes l ++ s.scripts.map .addScript)) ∧
        ((∀ c ∈ Happening.changes l, c.Measured) →
          ∀ absent, s.Follows absent (Happening.changes l))) ∧
    ∀ (w : World) env args text timeout, w.session.isNone = false →
      Conversion.toText (w.heap env) (.arg args 0) = .ok text →
      Conversion.toOptional (Conversion.toSingle (w.heap env)) (.arg args 1) = .ok timeout →
      Interface.globalMessage env args w = .done [] (w.modifySession
        ((SessionChange.message text timeout).apply w.config.messageTimeout)) := by
  refine ⟨fun absent cs => Session.follows_replay absent, ?_, ?_⟩
  · intro config library stop limit fuel steps
    obtain ⟨l, hhost, hl⟩ :=
      Host.annals_performAll stop limit fuel [] steps (World.new config library)
    refine ⟨l, hhost, hl, fun s hs => ⟨fun absent => ?_, fun hmeasured absent => ?_⟩⟩
    · rw [Session.replay_append, ← hl.replays hs absent, Session.replay_addScripts]
      rfl
    · -- the scripts of the session have no part in what it shows
      have hfollows := Session.follows_replay absent hmeasured
      rw [← hl.replays hs absent] at hfollows
      exact hfollows.of_dropScripts
  · exact fun w env args text timeout => Interface.globalMessage_shows

/-- A message for the configured five seconds, three seconds later. -/
theorem message_left_after_three_seconds :
    (Session.new.replay (.ofInt 5)
        [.message "Incoming" none, .op (.advance (.ofInt 3))]).globalMessage =
      some ⟨"Incoming", .ofInt 2⟩ := by
  have hmeasured : ∀ c ∈ [SessionChange.message "Incoming" none, .op (.advance (.ofInt 3))],
      c.Measured := by
    intro c hc delta hdelta
    subst hdelta
    obtain rfl : delta = .ofInt 3 := by simpa using hc
    decide
  have hfollows := sessions_follow_their_changes.1 (.ofInt 5) _ hmeasured
  have hmessage := hfollows.message [] _ [.op (.advance (.ofInt 3))] ⟨"Incoming", .ofInt 5⟩ rfl rfl
    (by simp [SessionChange.shown?]) (by decide)
  rw [hmessage]
  decide +kernel

end ScenarioHost
