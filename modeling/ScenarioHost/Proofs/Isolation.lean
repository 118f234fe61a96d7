import ScenarioHost.Proofs.Bindings
import ScenarioHost.Proofs.Hosting

/-!
Isolation of environments. Code that runs elsewhere neither changes what an environment consists of
for its scripts nor finds anything out about it, until code of the environment itself is carried out
or one of its variables is set by a handle.
-/
namespace ScenarioHost

open Lua (Evaluator Heap Kind Site Spot TableId Task Value)

/-! Changes of a world that keep apart from the interior of an environment. -/

namespace World

variable (w : World) {b e : EnvironmentId} (i : Interior)

theorem withInterior_interior : w.withInterior b (w.interior b) = w := by
  have hmodify : w.environments.modify b.index (·.withInterior (w.interior b)) =
      w.environments := by
    refine Array.ext Array.size_modify fun j hj hj' => ?_
    rw [Array.getElem_modify]
    split
    · rename_i heq
      have hget : w.environment b = w.environments[j] := by
        unfold environment
        subst heq
        rw [Array.getD_eq_getD_getElem?, Array.getElem?_eq_getElem hj', Option.getD_some]
      have hinterior : w.interior b = w.environments[j].interior :=
        congrArg Environment.interior hget
      exact congrArg w.environments[j].withInterior hinterior
    · rfl
  unfold withInterior modifyEnvironment
  rw [hmodify]

theorem modifyEnvironment_comm {f g : Environment → Environment}
    (h : e ≠ b ∨ ∀ x, f (g x) = g (f x)) :
    (w.modifyEnvironment b g).modifyEnvironment e f =
      (w.modifyEnvironment e f).modifyEnvironment b g := by
  have hmodify : (w.environments.modify b.index g).modify e.index f =
      (w.environments.modify e.index f).modify b.index g := by
    refine Array.ext_getElem? fun j => ?_
    simp only [Array.getElem?_modify]
    rcases h with hne | hfg
    · have hindex : e.index ≠ b.index := fun heq => hne (congrArg EnvironmentId.mk heq)
      by_cases he : e.index = j
      · have hb : b.index ≠ j := fun hb => hindex (he.trans hb.symm)
        rw [if_pos he, if_neg hb, if_neg hb, if_pos he]
      · rw [if_neg he, if_neg he]
    · by_cases he : e.index = j
      · by_cases hb : b.index = j
        · rw [if_pos he, if_pos hb, if_pos hb, if_pos he]
          cases w.environments[j]? with
          | none => rfl
          | some x => exact congrArg some (hfg x)
        · rw [if_pos he, if_neg hb, if_neg hb, if_pos he]
      · rw [if_neg he, if_neg he]
  unfold modifyEnvironment
  rw [hmodify]

/-- A change of the world keeps apart from an environment: it leaves its interior alone and does the
same whatever that is. -/
structure Apart (b : EnvironmentId) (f : World → World) : Prop where
  allocated {w : World} : w.Allocated b → (f w).Allocated b
  interior {w : World} : w.Allocated b → (f w).interior b = w.interior b
  commutes {w : World} (i : Interior) : w.Allocated b →
    f (w.withInterior b i) = (f w).withInterior b i

namespace Apart

variable {f g : World → World}

theorem comp (hf : Apart b f) (hg : Apart b g) : Apart b fun w => g (f w) where
  allocated h := hg.allocated (hf.allocated h)
  interior h := (hg.interior (hf.allocated h)).trans (hf.interior h)
  commutes i h := (congrArg g (hf.commutes i h)).trans (hg.commutes i (hf.allocated h))

/-- Changes that have nothing to do with environments. -/
theorem of_same (henv : ∀ w, (f w).environments = w.environments)
    (hcommutes : ∀ w i, f (w.withInterior b i) = (f w).withInterior b i) : Apart b f where
  allocated {w} h := by rwa [Allocated, henv]
  interior {w} _ := by rw [World.interior, World.interior, environment, environment, henv]
  commutes {w} i _ := hcommutes w i

/-- Changes of another environment. -/
theorem of_other (hne : b ≠ e) (f : Environment → Environment) :
    Apart b fun w => w.modifyEnvironment e f where
  allocated {w} h := by rwa [Allocated, size_modifyEnvironment]
  interior {w} _ := congrArg Environment.interior (Recounts.environment_of_ne w hne)
  commutes {w} i _ := w.modifyEnvironment_comm (.inl hne.symm)

/-- Changes of what the host keeps of an environment. -/
theorem of_outside (e : EnvironmentId) {f : Environment → Environment}
    (hinterior : ∀ x, (f x).interior = x.interior)
    (hcommutes : ∀ x i, f (x.withInterior i) = (f x).withInterior i) :
    Apart b fun w => w.modifyEnvironment e f where
  allocated {w} h := by rwa [Allocated, size_modifyEnvironment]
  interior {w} _ := w.part_modifyEnvironment e b (·.interior) f hinterior
  commutes {w} i _ := w.modifyEnvironment_comm (.inr fun x => hcommutes x i)

theorem destroy (e : EnvironmentId) : Apart b (·.destroy e) :=
  of_outside e (fun _ => rfl) fun _ _ => rfl

theorem hold (e : EnvironmentId) : Apart b (·.hold e) := of_outside e (fun _ => rfl) fun _ _ => rfl

theorem unhold (e : EnvironmentId) : Apart b (·.unhold e) :=
  of_outside e (fun _ => rfl) fun _ _ => rfl

theorem enter (e : EnvironmentId) : Apart b (·.enter e) :=
  of_outside e (fun _ => rfl) fun _ _ => rfl

theorem leave (e : EnvironmentId) : Apart b (·.leave e) :=
  of_outside e (fun _ => rfl) fun _ _ => rfl

theorem complain (message : String) : Apart b (·.addError message) :=
  of_same (fun _ => rfl) fun _ _ => rfl

theorem session (f : Session → Session) : Apart b (·.modifySession f) :=
  of_same (fun _ => rfl) fun _ _ => rfl

/-- A choice that has nothing to do with the interior. -/
theorem ite {p : World → Prop} [DecidablePred p] (hp : ∀ w i, p (w.withInterior b i) ↔ p w)
    (hf : Apart b f) (hg : Apart b g) : Apart b fun w => if p w then f w else g w := by
  constructor
  · intro w h
    split
    · exact hf.allocated h
    · exact hg.allocated h
  · intro w h
    split
    · exact hf.interior h
    · exact hg.interior h
  · intro w i h
    simp only [hp]
    split
    · exact hf.commutes i h
    · exact hg.commutes i h

theorem letGo (e : EnvironmentId) : Apart b (·.letGo e) :=
  ite (fun _ _ => Iff.rfl) (destroy e) (of_same (fun _ => rfl) fun _ _ => rfl)

theorem giving (e : EnvironmentId) : Apart b fun w => Host.giving w e :=
  ite (fun _ _ => Iff.rfl) (session _) (destroy e)

theorem destroys (ids : List EnvironmentId) : Apart b fun w => ids.foldl World.destroy w := by
  induction ids with
  | nil => exact of_same (fun _ => rfl) fun _ _ => rfl
  | cons e ids ih => exact (destroy e).comp ih

theorem clearScripts : Apart b World.clearScripts := by
  have hempty (s : Session) : Apart b fun w => { w with session := some s } :=
    of_same (fun _ => rfl) fun _ _ => rfl
  have hcleared (s : Session) : Apart b fun w =>
      s.scripts.foldl World.destroy { w with session := some s.dropScripts } :=
    (hempty s.dropScripts).comp (destroys s.scripts)
  have hnone (w : World) (h : w.session = none) : w.clearScripts = w := by
    unfold World.clearScripts
    rw [h]
  have hsome (w : World) (s : Session) (h : w.session = some s) :
      w.clearScripts = s.scripts.foldl World.destroy { w with session := some s.dropScripts } := by
    unfold World.clearScripts
    rw [h]
  -- which of the two it is has nothing to do with environments
  constructor
  · intro w h
    cases hs : w.session with
    | none => rwa [hnone w hs]
    | some s =>
      rw [hsome w s hs]
      exact (hcleared s).allocated h
  · intro w h
    cases hs : w.session with
    | none => rw [hnone w hs]
    | some s =>
      rw [hsome w s hs]
      exact (hcleared s).interior h
  · intro w i h
    cases hs : w.session with
    | none => rw [hnone w hs, hnone (w.withInterior b i) hs]
    | some s =>
      rw [hsome w s hs, hsome (w.withInterior b i) s hs]
      exact (hcleared s).commutes i h

theorem endSession : Apart b World.endSession := by
  have hended : Apart b fun w => { w with session := none } :=
    of_same (fun _ => rfl) fun _ _ => rfl
  exact clearScripts.comp hended

theorem extended : Apart b World.extended where
  allocated {w} h := by
    rw [Allocated, World.extended, Array.size_push]
    exact Nat.lt_succ_of_lt h
  interior {w} h := by
    rw [World.interior, environment_extended, if_neg, World.interior]
    exact fun heq => w.next_not_allocated (heq ▸ h)
  commutes {w} i h := by
    have hpush : (w.environments.modify b.index (·.withInterior i)).push Environments.initial =
        (w.environments.push Environments.initial).modify b.index (·.withInterior i) := by
      -- the new environment comes behind all others, the interior among them
      refine Array.ext_getElem? fun j => ?_
      simp only [Array.getElem?_push, Array.getElem?_modify, Array.size_modify]
      have hb : b.index < w.environments.size := h
      by_cases hj : j = w.environments.size
      · rw [if_pos hj, if_pos hj, if_neg (by omega)]
      · rw [if_neg hj, if_neg hj]
    unfold World.extended withInterior modifyEnvironment
    rw [hpush]

end Apart

end World

theorem Deed.apart {P : Affair → Prop} {a : Agent} {w : World} {f : World → World}
    (h : Deed P a w f)
    (b : EnvironmentId) : World.Apart b f := by
  cases h with
  | session w op => exact .session op.apply
  | clearScripts w => exact .clearScripts
  | letGo w e => exact .letGo e
  | _ => exact .of_same (fun _ => rfl) fun _ _ => rfl

theorem Part.apart {a : Agent} {w : World} {f : World → World} (h : Part a w f)
    (b : EnvironmentId) : World.Apart b f := by
  cases h with
  | complain a w message => exact .complain message
  | beginReply w => exact .session Session.beginReply
  | _ => exact .of_same (fun _ => rfl) fun _ _ => rfl

theorem Change.apart {e : EnvironmentId} {w : World} {f : World → World} (h : Change e w f)
    {b : EnvironmentId} (hne : b ≠ e) : World.Apart b f := by
  cases h with
  | heap f _ => exact .of_other hne _
  | entityTable t => exact .of_other hne _

/-! What an action and one beside it do in worlds that differ in an interior. -/

namespace Outcome

variable {ε α : Type}

def Ended : Outcome ε α → Prop
  | .done _ _ => True
  | .raised _ _ => True
  | .starved => False

def withInterior (b : EnvironmentId) (i : Interior) : Outcome ε α → Outcome ε α
  | .done a w => .done a (w.withInterior b i)
  | .raised e w => .raised e (w.withInterior b i)
  | @starved _ _ w => @starved _ _ (w.withInterior b i)

/-- The action that ended so kept apart from an environment; the other one ends alike whatever the
environment consists of. -/
structure Secludes (b : EnvironmentId) (w : World) (Q : α → Prop) (y : Act ε α) (o : Outcome ε α) :
    Prop where
  allocated : o.world.Allocated b
  interior : o.world.interior b = w.interior b
  beside (i : Interior) : o.Ended → y (w.withInterior b i) = o.withInterior b i
  value (a : α) (w' : World) : o = .done a w' → Q a

namespace Secludes

variable {b : EnvironmentId} {w w' : World} {Q : α → Prop} {y : Act ε α} {o : Outcome ε α}

/-- What was done before kept apart as well. -/
theorem after (h : o.Secludes b w' Q y) (hw : w'.interior b = w.interior b)
    {y' : Act ε α} (hy : ∀ i, y' (w.withInterior b i) = y (w'.withInterior b i)) :
    o.Secludes b w Q y' where
  allocated := h.allocated
  interior := h.interior.trans hw
  beside i ho := (hy i).trans (h.beside i ho)
  value := h.value

/-- Something else is done at last, or the action is given another outcome of the same kind. -/
theorem of_done {a : α} (hb : w'.Allocated b) (hw : w'.interior b = w.interior b)
    (hy : ∀ i, y (w.withInterior b i) = .done a (w'.withInterior b i)) (ha : Q a) :
    (Outcome.done a w' : Outcome ε α).Secludes b w Q y where
  allocated := hb
  interior := hw
  beside i _ := hy i
  value a' w'' h := by
    cases h
    exact ha

theorem of_raised {e : ε} (hb : w'.Allocated b) (hw : w'.interior b = w.interior b)
    (hy : ∀ i, y (w.withInterior b i) = .raised e (w'.withInterior b i)) :
    (Outcome.raised e w' : Outcome ε α).Secludes b w Q y where
  allocated := hb
  interior := hw
  beside i _ := hy i
  value a' w'' h := by cases h

theorem of_starved (hb : w'.Allocated b) (hw : w'.interior b = w.interior b) :
    (@Outcome.starved ε α w').Secludes b w Q y where
  allocated := hb
  interior := hw
  beside i ho := ho.elim
  value a' w'' h := by cases h

end Secludes

end Outcome

def Law.secluding (b : EnvironmentId) : Law where
  Holds w Q x y := w.Allocated b → (x w).Secludes b w Q y
  same hx h hb := hx ▸ h hb
  pure ha hb := .of_done hb rfl (fun _ => rfl) ha
  raise e hb := .of_raised hb rfl fun _ => rfl
  starve y hb := .of_starved hb rfl
  bind {ε α β w Q Q' x y f g} hx hf hb := by
    have hfirst := hx hb
    rw [Act.bind_apply]
    cases hrun : x w with
    | done a w' =>
      rw [hrun] at hfirst
      have hrest := hf a (hfirst.value a w' rfl) w' hfirst.allocated
      refine hrest.after hfirst.interior fun i => ?_
      rw [Act.bind_apply, hfirst.beside i trivial]
      rfl
    | raised e w' =>
      rw [hrun] at hfirst
      refine .of_raised hfirst.allocated hfirst.interior fun i => ?_
      rw [Act.bind_apply, hfirst.beside i trivial]
      rfl
    | starved =>
      rw [hrun] at hfirst
      exact .of_starved hfirst.allocated hfirst.interior
  attempt {ε ε' α w Q Q' x y} hx hok herror hb := by
    have h := hx hb
    rw [Act.attempt_apply]
    cases hrun : x w with
    | done a w' =>
      rw [hrun] at h
      refine .of_done h.allocated h.interior (fun i => ?_) (hok a (h.value a w' rfl))
      rw [Act.attempt_apply, h.beside i trivial]
      rfl
    | raised e w' =>
      rw [hrun] at h
      refine .of_done h.allocated h.interior (fun i => ?_) (herror e)
      rw [Act.attempt_apply, h.beside i trivial]
      rfl
    | starved =>
      rw [hrun] at h
      exact .of_starved h.allocated h.interior
  map_error {ε ε' α w Q x y} f hx hb := by
    have h := hx hb
    rw [Act.map_error_apply]
    cases hrun : x w with
    | done a w' =>
      rw [hrun] at h
      refine .of_done h.allocated h.interior (fun i => ?_) (h.value a w' rfl)
      rw [Act.map_error_apply, h.beside i trivial]
      rfl
    | raised e w' =>
      rw [hrun] at h
      refine .of_raised h.allocated h.interior fun i => ?_
      rw [Act.map_error_apply, h.beside i trivial]
      rfl
    | starved =>
      rw [hrun] at h
      exact .of_starved h.allocated h.interior

namespace Law

variable {b e : EnvironmentId} {ε α β : Type} {w : World} {Q : α → Prop}

/-- Looking at something that is the same whatever the environment consists of. -/
theorem secluding_look {g : World → β} {f f' : β → Act ε α}
    (hg : ∀ i, g (w.withInterior b i) = g w) (h : (secluding b).Holds w Q (f (g w)) (f' (g w))) :
    (secluding b).Holds w Q (Act.read g >>= f) (Act.read g >>= f') := by
  intro hb
  refine (h hb).after rfl fun i => ?_
  rw [Act.bind_apply, Act.read, hg i]

theorem secluding_update {f : World → World} (hf : World.Apart b f) (w : World) :
    (secluding b).Holds w (fun _ => True) (Act.update f : Act ε Unit) (Act.update f) :=
  fun hb => .of_done (hf.allocated hb) (hf.interior hb)
    (fun i => congrArg (Outcome.done ()) (hf.commutes i hb)) trivial

theorem secluding_draw (w : World) :
    (secluding b).Holds w (fun _ => True) (Act.draw : Act ε Nat) Act.draw := by
  intro hb
  have hseed (seed : UInt64) : World.Apart b fun w => { w with seed := seed } :=
    .of_same (fun _ => rfl) fun _ _ => rfl
  exact .of_done ((hseed _).allocated hb) ((hseed _).interior hb)
    (fun i => congrArg (Outcome.done _) ((hseed _).commutes i hb)) trivial

/-- Something between two changes that keep apart from the environment. -/
theorem secluding_between {first last : World → World} (hfirst : World.Apart b first)
    (hlast : World.Apart b last) {x y : Act ε α} (h : (secluding b).Holds (first w) Q x y) :
    (secluding b).Holds w Q (Act.between first last x) (Act.between first last y) := by
  intro hb
  have hx := h (hfirst.allocated hb)
  have hinterior {w' : World} (hw' : w'.Allocated b)
      (hinside : w'.interior b = (first w).interior b) :
      (last w').interior b = w.interior b :=
    calc (last w').interior b
      _ = w'.interior b := hlast.interior hw'
      _ = (first w).interior b := hinside
      _ = w.interior b := hfirst.interior hb
  have hbeside (i : Interior) : Act.between first last y (w.withInterior b i) =
      match y ((first w).withInterior b i) with
      | .done a w' => .done a (last w')
      | .raised e w' => .raised e (last w')
      | @Outcome.starved _ _ w' => @Outcome.starved _ _ w' := by
    rw [← hfirst.commutes i hb]
    rfl
  unfold Act.between
  cases hrun : x (first w) with
  | done a w' =>
    rw [hrun] at hx
    refine .of_done (hlast.allocated hx.allocated) (hinterior hx.allocated hx.interior)
      (fun i => ?_) (hx.value a w' rfl)
    have hy := hbeside i
    rw [hx.beside i trivial] at hy
    exact hy.trans (congrArg (Outcome.done a) (hlast.commutes i hx.allocated))
  | raised e w' =>
    rw [hrun] at hx
    refine .of_raised (hlast.allocated hx.allocated) (hinterior hx.allocated hx.interior)
      fun i => ?_
    have hy := hbeside i
    rw [hx.beside i trivial] at hy
    exact hy.trans (congrArg (Outcome.raised e) (hlast.commutes i hx.allocated))
  | starved =>
    rw [hrun] at hx
    -- what comes last is left out where the fuel ran out
    exact .of_starved hx.allocated (hx.interior.trans (hfirst.interior hb))

section Making

variable {x y : EnvironmentId → Act (String × String) Unit}

/-- Other environments are made where the environment is already. -/
theorem beside_extended (h : (secluding b).Holds w.extended (fun _ => True) (x w.nextEnvironment)
      (y w.nextEnvironment)) (hb : w.Allocated b) :
    (x w.nextEnvironment w.extended).world.interior b = w.interior b ∧
    (x w.nextEnvironment w.extended).Secludes b w.extended (fun _ => True) (y w.nextEnvironment) ∧
    ∀ i, (w.withInterior b i).nextEnvironment = w.nextEnvironment ∧
      (w.withInterior b i).extended = w.extended.withInterior b i := by
  have hx := h (World.Apart.extended.allocated hb)
  refine ⟨hx.interior.trans (World.Apart.extended.interior hb), hx, fun i => ⟨?_, ?_⟩⟩
  · exact congrArg EnvironmentId.mk (w.size_modifyEnvironment b _)
  · exact World.Apart.extended.commutes i hb

theorem apart_giveUp (e : EnvironmentId) (message : String) :
    World.Apart b fun w => (w.addError message).destroy e :=
  (World.Apart.complain message).comp (.destroy e)

theorem secluding_making (h : (secluding b).Holds w.extended (fun _ => True) (x w.nextEnvironment)
      (y w.nextEnvironment)) :
    (secluding b).Holds w (fun _ => True) (Environments.making x) (Environments.making y) := by
  intro hb
  obtain ⟨hsame, hx, hnext⟩ := beside_extended h hb
  have hbeside (i : Interior) := Environments.making_apply y (w.withInterior b i)
  simp only [hnext] at hbeside
  rw [Environments.making_apply]
  cases hrun : x w.nextEnvironment w.extended with
  | done u w' =>
    rw [hrun] at hx hsame
    refine .of_done hx.allocated hsame (fun i => ?_) trivial
    rw [hbeside i, hx.beside i trivial]
    rfl
  | raised failure w' =>
    rw [hrun] at hx hsame
    have hw : w'.Allocated b := hx.allocated
    have hgone := apart_giveUp (b := b) w.nextEnvironment failure.2
    refine .of_raised (hgone.allocated hw) ((hgone.interior hw).trans hsame) fun i => ?_
    rw [hbeside i, hx.beside i trivial]
    exact congrArg (Outcome.raised _) (hgone.commutes i hw)
  | starved =>
    rw [hrun] at hx hsame
    exact .of_starved hx.allocated hsame

theorem secluding_adopting (hne : b ≠ e)
    (h : (secluding b).Holds w.extended (fun _ => True) (x w.nextEnvironment)
      (y w.nextEnvironment)) :
    (secluding b).Holds w (fun _ => True) (Scripts.adopting e (Environments.making x))
      (Scripts.adopting e (Environments.making y)) := by
  intro hb
  obtain ⟨hsame, hx, hnext⟩ := beside_extended h hb
  have hbeside (i : Interior) := Scripts.adopting_making_apply e y (w.withInterior b i)
  simp only [hnext] at hbeside
  rw [Scripts.adopting_making_apply]
  cases hrun : x w.nextEnvironment w.extended with
  | done u w' =>
    rw [hrun] at hx hsame
    have hadopted : World.Apart b fun w' => w'.adopted e w.nextEnvironment :=
      (World.Apart.session _).comp (.of_other hne _)
    -- the handle is put into the heap of the other environment, which is the same in both worlds
    have huserdata (i : Interior) : ((w'.withInterior b i).heap e).nextUserdata =
        (w'.heap e).nextUserdata := World.seen_heap e (·.nextUserdata) w' b i hne
    have hw : w'.Allocated b := hx.allocated
    refine .of_done (hadopted.allocated hw) ((hadopted.interior hw).trans hsame) (fun i => ?_)
      trivial
    rw [hbeside i, hx.beside i trivial, ← huserdata i]
    exact congrArg (Outcome.done _) (hadopted.commutes i hw)
  | raised failure w' =>
    rw [hrun] at hx hsame
    have hw : w'.Allocated b := hx.allocated
    have hgone := apart_giveUp (b := b) w.nextEnvironment failure.2
    refine .of_raised (hgone.allocated hw) ((hgone.interior hw).trans hsame) fun i => ?_
    rw [hbeside i, hx.beside i trivial]
    exact congrArg (Outcome.raised _) (hgone.commutes i hw)
  | starved =>
    rw [hrun] at hx hsame
    exact .of_starved hx.allocated hsame

end Making

end Law

def Charter.isolating (b : EnvironmentId) : Charter where
  law _ := .secluding b
  Free
    | .host => True
    | .code e => b ≠ e
  free_host := trivial
  look {_ _ _ _ w _ _ _ _} hg h := Law.secluding_look (fun i => hg w b i) h
  view {_ _ _ _ w _ _ _ _} he hg h := Law.secluding_look (fun i => hg w b i he) h
  deed h := Law.secluding_update (h.apart b) _
  part h := Law.secluding_update (h.apart b) _
  change he h := Law.secluding_update (h.apart he) _
  draw _ _ w := Law.secluding_draw w
  drive _ h := h
  invoke {e _ _ _ _ _ _} _ h := Law.secluding_between (.enter e) (.leave e) h
  visit {_ s _ _ _ _ _ _} _ _ h := Law.secluding_between (.hold s) (.unhold s) h
  adopt he _ h := Law.secluding_adopting he h

def Regime.isolating (b : EnvironmentId) : Regime := (Charter.isolating b).regime

/-- What a host does by itself keeps apart from any environment but those it gives functions to. -/
theorem Regime.isolating_hosting (b : EnvironmentId) :
    (isolating b).Hosting (.secluding b) (fun _ _ => True) fun _ => True where
  permits _ := trivial
  serve h := h
  command _ _ h := h
  session w op _ := Law.secluding_update (.session op.apply) w
  advance _ _ w _ := Law.secluding_update (.session _) w
  make _ h := by
    rw [Environments.create_eq, Environments.create_eq]
    exact Law.secluding_making h
  destroy {e _ w} _ := Law.secluding_update (.destroy e) w
  controls _ _ he w := Law.secluding_update (.of_other he _) w
  lend {e _ w} _ := by
    have hlending : World.Apart b fun w => Host.lending w e :=
      .of_same (fun _ => rfl) fun _ _ => rfl
    exact Law.secluding_update hlending w
  give {e _ w} _ _ := Law.secluding_update (.giving e) w
  endSession _ w := Law.secluding_update .endSession w
  equip {belongings _} _ w := by
    have hequipped : World.Apart b fun w => Host.equipped w belongings :=
      .of_same (fun _ => rfl) fun _ _ => rfl
    exact Law.secluding_update hequipped w

end ScenarioHost
