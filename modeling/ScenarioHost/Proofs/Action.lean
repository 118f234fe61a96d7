import Mathlib.Tactic
import ScenarioHost.World

/-!
What actions keep. `Keeps R P Q x` says of an action that it leaves a world related by `R` to the
one it began in, however it ends, and gives values of `Q`; where it runs out of fuel, the world of
that moment is related by `P` to the first one.
-/
namespace ScenarioHost

structure Moment where
  world : World
  settled : Bool

namespace Outcome

variable {ε α : Type}

def world : Outcome ε α → World
  | .done _ w => w
  | .raised _ w => w
  | @starved _ _ w => w

def moment : Outcome ε α → Moment
  | .done _ w => ⟨w, true⟩
  | .raised _ w => ⟨w, true⟩
  | @starved _ _ w => ⟨w, false⟩

theorem world_moment (o : Outcome ε α) : o.moment.world = o.world := by
  cases o <;> rfl

def result? : Outcome ε α → Option α
  | .done a _ => some a
  | _ => none

theorem done_of_result {o : Outcome ε α} {a : α} (h : o.result? = some a) :
    ∃ w, o = .done a w := by
  cases o with
  | done b w =>
    obtain rfl : b = a := Option.some.inj h
    exact ⟨w, rfl⟩
  | _ => cases h

def Upholds (R P : World → World → Prop) (Q : α → Prop) (w : World) : Outcome ε α → Prop
  | .done a w' => R w w' ∧ Q a
  | .raised _ w' => R w w'
  | @starved _ _ w' => P w w'

end Outcome

class Progress (R P : World → World → Prop) : Prop where
  refl (w : World) : R w w
  trans {w w' w'' : World} : R w w' → R w' w'' → R w w''
  here (w : World) : P w w
  later {w w' w'' : World} : R w w' → P w' w'' → P w w''

namespace Outcome.Upholds

variable {ε α : Type} {R R' P P' : World → World → Prop} {Q Q' : α → Prop} {w w' : World}
  {o : Outcome ε α}

theorem imp (ho : o.Upholds R P Q w) (hr : ∀ w₁, R w w₁ → R' w' w₁) (hp : ∀ w₁, P w w₁ → P' w' w₁)
    (hq : ∀ a, Q a → Q' a) : o.Upholds R' P' Q' w' := by
  cases o with
  | done a w₁ => exact ⟨hr w₁ ho.1, hq a ho.2⟩
  | raised e w₁ => exact hr w₁ ho
  | starved => exact hp _ ho

/-- What an action keeps that began after a change. -/
theorem after [Progress R P] (ho : o.Upholds R P Q w') (hr : R w w') : o.Upholds R P Q w :=
  ho.imp (fun _ => Progress.trans P hr) (fun _ => Progress.later hr) fun _ => id

end Outcome.Upholds

namespace Act

variable {ε ε' α β σ : Type} {R P : World → World → Prop} {Q : α → Prop} {Q' : β → Prop}

instance : LawfulMonad (Act ε) :=
  LawfulMonad.mk' _
    (by
      intro α x
      funext w
      change Act.bind x Act.pure w = x w
      unfold Act.bind Act.pure
      cases x w <;> rfl)
    (fun _ _ => rfl)
    (by
      intro α β γ x f g
      funext w
      change Act.bind (Act.bind x f) g w = Act.bind x (fun a => Act.bind (f a) g) w
      unfold Act.bind
      cases x w <;> rfl)

structure Keeps (R P : World → World → Prop) (Q : α → Prop) (x : Act ε α) : Prop where
  upholds (w : World) : (x w).Upholds R P Q w

theorem bind_apply (x : Act ε α) (f : α → Act ε β) (w : World) :
    (x >>= f) w =
      match x w with
      | .done a w' => f a w'
      | .raised e w' => .raised e w'
      | @Outcome.starved _ _ w' => @Outcome.starved _ _ w' := rfl

theorem bind_done_iff {x : Act ε α} {f : α → Act ε β} {w w' : World} {b : β} :
    (x >>= f) w = .done b w' ↔ ∃ a w₁, x w = .done a w₁ ∧ f a w₁ = .done b w' := by
  rw [bind_apply]
  cases x w with
  | done a w₁ =>
    refine ⟨fun h => ⟨a, w₁, rfl, h⟩, ?_⟩
    rintro ⟨a', w₂, hx, h⟩
    cases hx
    exact h
  | raised e w₁ =>
    refine ⟨nofun, ?_⟩
    rintro ⟨a, w₂, hx, -⟩
    cases hx
  | starved =>
    refine ⟨nofun, ?_⟩
    rintro ⟨a, w₂, hx, -⟩
    cases hx

def Silent (x : Act ε α) : Prop := ∀ w e w', x w ≠ .raised e w'

theorem Silent.pure (a : α) : (Pure.pure a : Act ε α).Silent := by
  intro w e w' h
  cases h

theorem Silent.read (f : World → α) : (Act.read f : Act ε α).Silent := by
  intro w e w' h
  cases h

theorem Silent.bind {x : Act ε α} {f : α → Act ε β} (hx : x.Silent) (hf : ∀ a, (f a).Silent) :
    (x >>= f).Silent := by
  intro w e w' h
  rw [bind_apply] at h
  cases hrun : x w with
  | done a w₁ =>
    rw [hrun] at h
    exact hf a w₁ e w' h
  | raised e' w₁ => exact hx w e' w₁ hrun
  | starved =>
    rw [hrun] at h
    cases h

theorem attempt_apply (x : Act ε α) (w : World) :
    (x.attempt : Act ε' (Except ε α)) w =
      match x w with
      | .done a w' => .done (.ok a) w'
      | .raised e w' => .done (.error e) w'
      | @Outcome.starved _ _ w' => @Outcome.starved _ _ w' := rfl

theorem map_error_apply (f : ε → ε') (x : Act ε α) (w : World) :
    x.mapError f w =
      match x w with
      | .done a w' => .done a w'
      | .raised e w' => .raised (f e) w'
      | @Outcome.starved _ _ w' => @Outcome.starved _ _ w' := rfl

theorem between_apply (first last : World → World) (x : Act ε α) (w : World) :
    Act.between first last x w =
      match x (first w) with
      | .done a w' => .done a (last w')
      | .raised e w' => .raised e (last w')
      | @Outcome.starved _ _ w' => @Outcome.starved _ _ w' := rfl

theorem moment_map_error (f : ε → ε') (x : Act ε α) (w : World) :
    (x.mapError f w).moment = (x w).moment := by
  rw [map_error_apply]
  cases x w <;> rfl

theorem moment_bind_pure (x : Act ε α) (b : β) (w : World) :
    ((x >>= fun _ => (Pure.pure b : Act ε β)) w).moment = (x w).moment := by
  rw [bind_apply]
  cases x w <;> rfl

theorem map_error_done_iff (f : ε → ε') (x : Act ε α) (w w' : World) (a : α) :
    x.mapError f w = .done a w' ↔ x w = .done a w' := by
  rw [map_error_apply]
  cases x w with
  | done b w₁ =>
    constructor
    · intro h
      cases h
      rfl
    · intro h
      cases h
      rfl
  | _ =>
    constructor
    · intro h
      cases h
    · intro h
      cases h

theorem upholds_bind [Progress R P] {x : Act ε α} {f : α → Act ε β} {w : World}
    (hx : (x w).Upholds R P Q w) (hf : ∀ a, Q a → Keeps R P Q' (f a)) :
    ((x >>= f) w).Upholds R P Q' w := by
  rw [bind_apply]
  cases hw : x w with
  | done a w' =>
    rw [hw] at hx
    obtain ⟨hr, ha⟩ := hx
    exact ((hf a ha).upholds w').after hr
  | raised e w' =>
    rw [hw] at hx
    exact hx
  | starved =>
    rw [hw] at hx
    exact hx

theorem Keeps.bind [Progress R P] {x : Act ε α} {f : α → Act ε β} (hx : Keeps R P Q x)
    (hf : ∀ a, Q a → Keeps R P Q' (f a)) : Keeps R P Q' (x >>= f) :=
  ⟨fun w => upholds_bind (hx.upholds w) hf⟩

theorem Keeps.pure [Progress R P] {a : α} (ha : Q a) : Keeps R P Q (Pure.pure a : Act ε α) :=
  ⟨fun w => ⟨Progress.refl P w, ha⟩⟩

theorem Keeps.raise [Progress R P] (e : ε) : Keeps R P Q (Act.raise e : Act ε α) :=
  ⟨fun w => Progress.refl P w⟩

theorem Keeps.starve [Progress R P] : Keeps R P Q (Act.starve : Act ε α) :=
  ⟨fun w => Progress.here R w⟩

theorem Keeps.read [Progress R P] {f : World → α} (hf : ∀ w, Q (f w)) :
    Keeps R P Q (Act.read f : Act ε α) :=
  ⟨fun w => ⟨Progress.refl P w, hf w⟩⟩

theorem Keeps.update {f : World → World} {Q : Unit → Prop} (hf : ∀ w, R w (f w)) (hq : Q ()) :
    Keeps R P Q (Act.update f : Act ε Unit) :=
  ⟨fun w => ⟨hf w, hq⟩⟩

/-- Looking at the world, where nothing is to be known of what was seen. -/
theorem Keeps.look [Progress R P] (f : World → α) :
    Keeps R P (fun _ => True) (Act.read f : Act ε α) := .read fun _ => trivial

theorem Keeps.change {f : World → World} (hf : ∀ w, R w (f w)) :
    Keeps R P (fun _ => True) (Act.update f : Act ε Unit) := .update hf trivial

theorem upholds_attempt {x : Act ε α} {Q' : Except ε α → Prop} {w : World}
    (hx : (x w).Upholds R P Q w) (hok : ∀ a, Q a → Q' (.ok a)) (herror : ∀ e, Q' (.error e)) :
    ((x.attempt : Act ε' (Except ε α)) w).Upholds R P Q' w := by
  rw [attempt_apply]
  cases hw : x w with
  | done a w' =>
    rw [hw] at hx
    exact ⟨hx.1, hok a hx.2⟩
  | raised e w' =>
    rw [hw] at hx
    exact ⟨hx, herror e⟩
  | starved =>
    rw [hw] at hx
    exact hx

theorem Keeps.attempt {x : Act ε α} {Q' : Except ε α → Prop} (hx : Keeps R P Q x)
    (hok : ∀ a, Q a → Q' (.ok a)) (herror : ∀ e, Q' (.error e)) :
    Keeps R P Q' (x.attempt : Act ε' (Except ε α)) :=
  ⟨fun w => upholds_attempt (hx.upholds w) hok herror⟩

theorem Keeps.settle {x : Act ε α} (hx : Keeps R P (fun _ => True) x) :
    Keeps R P (fun _ => True) (x.attempt : Act ε' (Except ε α)) :=
  hx.attempt (fun _ _ => trivial) fun _ => trivial

theorem upholds_map_error {x : Act ε α} {f : ε → ε'} {w : World} (hx : (x w).Upholds R P Q w) :
    (x.mapError f w).Upholds R P Q w := by
  unfold Act.mapError
  cases h : x w <;> rw [h] at hx <;> exact hx

theorem Keeps.map_error {x : Act ε α} {f : ε → ε'} (hx : Keeps R P Q x) :
    Keeps R P Q (x.mapError f) := ⟨fun w => upholds_map_error (hx.upholds w)⟩

/-- An action between two changes of the world, the second of which is left out where the fuel runs
out. -/
theorem upholds_between {R' P' : World → World → Prop} {enter leave : World → World}
    {x : Act ε α} {w : World} (hx : (x (enter w)).Upholds R P Q (enter w))
    (hr : ∀ w', R (enter w) w' → R' w (leave w')) (hp : ∀ w', P (enter w) w' → P' w w') :
    (Act.between enter leave x w).Upholds R' P' Q w := by
  unfold Act.between
  cases hw : x (enter w) with
  | done a w' =>
    rw [hw] at hx
    exact ⟨hr w' hx.1, hx.2⟩
  | raised e w' =>
    rw [hw] at hx
    exact hr w' hx
  | starved =>
    rw [hw] at hx
    exact hp _ hx

/-- A weaker fact about the values. -/
theorem Keeps.weaken {Q₂ : α → Prop} {x : Act ε α} (hx : Keeps R P Q x) (h : ∀ a, Q a → Q₂ a) :
    Keeps R P Q₂ x :=
  ⟨fun w => (hx.upholds w).imp (fun _ => id) (fun _ => id) h⟩

theorem discard_eq (x : Act ε α) :
    (Functor.discard x : Act ε PUnit) = x >>= fun _ => Pure.pure ⟨⟩ := rfl

theorem iterate_succ (step : σ → Act ε (Sum σ α)) (limit : Nat) (s : σ) :
    Act.iterate step (limit + 1) s =
      step s >>= Sum.elim (Act.iterate step limit) fun a => Pure.pure a := by
  funext w
  rw [bind_apply, Act.iterate]
  cases h : step s w with
  | done r w' => cases r <;> simp only [h] <;> rfl
  | raised e w' => simp only [h]
  | starved => simp only [h]

end Act

end ScenarioHost
