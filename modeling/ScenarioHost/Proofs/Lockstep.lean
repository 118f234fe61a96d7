import ScenarioHost.Proofs.Action

/-!
Actions that are cut short. `Cut r x y` says that `x stop` does what `y` does up to a moment at which
it may give up, and then leaves the world that `stop` makes of the one at that moment; how `r` goes on
from there decides how `y` ends, should `r` raise an error. It is for all ways to stop that the
moment is the same one.
-/
namespace ScenarioHost

variable {ε α β γ σ : Type} {r : World → Outcome ε γ}

inductive Outcome.Cut (r : World → Outcome ε γ) :
    ((World → World) → Outcome ε α) → Outcome ε α → Prop where
  | same (o : Outcome ε α) : Cut r (fun _ => o) o
  | short (w : World) (o : Outcome ε α) (raised : ∀ e w', r w = .raised e w' → o = .raised e w') :
      Cut r (fun stop => @starved _ _ (stop w)) o

theorem Outcome.Cut.follow {x : (World → World) → Outcome ε α} {o : Outcome ε α}
    {f : (World → World) → α → Act ε β} {g : α → Act ε β}
    (hf : ∀ a w, Outcome.Cut r (fun stop => f stop a w) (g a w)) :
    Outcome.Cut r x o → Outcome.Cut r
      (fun stop =>
        match x stop with
        | .done a w => f stop a w
        | .raised e w => .raised e w
        | @starved _ _ w => @starved _ _ w)
      (match o with
        | .done a w => g a w
        | .raised e w => .raised e w
        | @starved _ _ w => @starved _ _ w) := by
  intro h
  cases h with
  | same =>
    cases o with
    | done a w => exact hf a w
    | raised e w => exact .same _
    | starved => exact .same _
  | short w _ hraises =>
    -- an error of what was left out ends the whole before `g` begins
    refine .short w _ fun e w' h => ?_
    rw [hraises e w' h]

/-- What is cut short stops in a known world if it matters which world it leaves there. -/
theorem Outcome.Cut.raises {x : (World → World) → Outcome ε α} {o : Outcome ε α}
    (h : Outcome.Cut r x o) {w w' : World} (hstopped : x id = @starved _ _ w)
    {stop : World → World} (hmatters : x stop ≠ @starved _ _ w) {e : ε}
    (hr : r w = .raised e w') : o = .raised e w' := by
  cases h with
  | same => exact absurd hstopped hmatters
  | short w₀ _ hraises =>
    cases hstopped
    exact hraises e w' hr

namespace Act

structure Cut (r : World → Outcome ε γ) (x : (World → World) → Act ε α) (y : Act ε α) : Prop where
  cut (w : World) : Outcome.Cut r (fun stop => x stop w) (y w)

namespace Cut

theorem same (x : Act ε α) : Cut r (fun _ => x) x := ⟨fun w => .same (x w)⟩

theorem bind {x : (World → World) → Act ε α} {y : Act ε α} {f : (World → World) → α → Act ε β}
    {g : α → Act ε β} (hx : Cut r x y) (hf : ∀ a, Cut r (fun stop => f stop a) (g a)) :
    Cut r (fun stop => x stop >>= f stop) (y >>= g) :=
  ⟨fun w => Outcome.Cut.follow (fun a w' => (hf a).cut w') (hx.cut w)⟩

/-- What comes after the first part is the same on both sides. -/
theorem then_same {x : (World → World) → Act ε α} {y : Act ε α} {f : α → Act ε β}
    (hx : Cut r x y) : Cut r (fun stop => x stop >>= f) (y >>= f) := hx.bind fun a => .same (f a)

/-- The first part is the same on both sides. -/
theorem same_then {x : Act ε α} {f : (World → World) → α → Act ε β} {g : α → Act ε β}
    (hf : ∀ a, Cut r (fun stop => f stop a) (g a)) :
    Cut r (fun stop => x >>= f stop) (x >>= g) := (Cut.same x).bind hf

theorem discard {x : (World → World) → Act ε α} {y : Act ε α} (hx : Cut r x y) :
    Cut r (fun stop => Functor.discard (x stop)) (Functor.discard y) := by
  simp only [discard_eq]
  exact hx.then_same

/-- A step that is repeated may be cut short in any of its rounds. -/
theorem iterate {f : (World → World) → σ → Act ε (Sum σ α)} {g : σ → Act ε (Sum σ α)}
    (hf : ∀ s, Cut r (fun stop => f stop s) (g s)) (limit : Nat) (s : σ) :
    Cut r (fun stop => Act.iterate (f stop) limit s) (Act.iterate g limit s) := by
  induction limit generalizing s with
  | zero => exact .same _
  | succ limit ih =>
    simp only [iterate_succ]
    refine (hf s).bind ?_
    rintro (s | a)
    · exact ih s
    · exact .same _

end Cut

end Act

end ScenarioHost
