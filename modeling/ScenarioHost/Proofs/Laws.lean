import ScenarioHost.Proofs.Action

/-!
Laws of two actions carried out side by side. `L.Holds w Q x y` says that the law `L` holds of `x`
where it begins in the world `w`, and of `y` beside it; `Q` is what is known of the values. A law of
one action only has nothing to say of the other one. All that a law has to respect are the ways in
which actions are put together, so that one induction over an evaluator proves any law of it.
-/
namespace ScenarioHost

structure Law where
  Holds {ε α : Type} (w : World) (Q : α → Prop) (x y : Act ε α) : Prop
  /-- The first action counts only in the world that it begins in. -/
  same {ε α : Type} {w : World} {Q : α → Prop} {x x' y : Act ε α} (hx : x w = x' w)
    (h : Holds w Q x' y) : Holds w Q x y
  pure {ε α : Type} {w : World} {Q : α → Prop} {a : α} (ha : Q a) :
    Holds w Q (Pure.pure a : Act ε α) (Pure.pure a)
  raise {ε α : Type} {w : World} {Q : α → Prop} (e : ε) :
    Holds w Q (Act.raise e : Act ε α) (Act.raise e)
  /-- Nothing is asked beside an action that gives up. -/
  starve {ε α : Type} {w : World} {Q : α → Prop} (y : Act ε α) : Holds w Q Act.starve y
  bind {ε α β : Type} {w : World} {Q : α → Prop} {Q' : β → Prop} {x y : Act ε α}
    {f g : α → Act ε β} (hx : Holds w Q x y) (hf : ∀ a, Q a → ∀ w', Holds w' Q' (f a) (g a)) :
    Holds w Q' (x >>= f) (y >>= g)
  attempt {ε ε' α : Type} {w : World} {Q : α → Prop} {Q' : Except ε α → Prop} {x y : Act ε α}
    (hx : Holds w Q x y) (hok : ∀ a, Q a → Q' (.ok a)) (herror : ∀ e, Q' (.error e)) :
    Holds w Q' (x.attempt : Act ε' (Except ε α)) y.attempt
  map_error {ε ε' α : Type} {w : World} {Q : α → Prop} {x y : Act ε α} (f : ε → ε')
    (hx : Holds w Q x y) : Holds w Q (x.mapError f) (y.mapError f)

namespace Law

structure Admits (L : Law) {ε α : Type} (Q : α → Prop) (x y : Act ε α) : Prop where
  holds (w : World) : L.Holds w Q x y

variable {L : Law} {ε ε' α β σ : Type} {Q : α → Prop} {Q' : β → Prop}

theorem bind_admits {w : World} {x y : Act ε α} {f g : α → Act ε β} (hx : L.Holds w Q x y)
    (hf : ∀ a, Q a → L.Admits Q' (f a) (g a)) : L.Holds w Q' (x >>= f) (y >>= g) :=
  L.bind hx fun a ha w' => (hf a ha).holds w'

namespace Admits

theorem bind {x y : Act ε α} {f g : α → Act ε β} (hx : L.Admits Q x y)
    (hf : ∀ a, Q a → L.Admits Q' (f a) (g a)) : L.Admits Q' (x >>= f) (y >>= g) :=
  ⟨fun w => bind_admits (hx.holds w) hf⟩

theorem pure {a : α} (ha : Q a) : L.Admits Q (Pure.pure a : Act ε α) (Pure.pure a) :=
  ⟨fun _ => L.pure ha⟩

theorem raise (e : ε) : L.Admits Q (Act.raise e : Act ε α) (Act.raise e) := ⟨fun _ => L.raise e⟩

theorem starve (y : Act ε α) : L.Admits Q Act.starve y := ⟨fun _ => L.starve y⟩

theorem attempt {x y : Act ε α} {Q' : Except ε α → Prop} (hx : L.Admits Q x y)
    (hok : ∀ a, Q a → Q' (.ok a)) (herror : ∀ e, Q' (.error e)) :
    L.Admits Q' (x.attempt : Act ε' (Except ε α)) y.attempt :=
  ⟨fun w => L.attempt (hx.holds w) hok herror⟩

theorem settle {x y : Act ε α} (hx : L.Admits (fun _ => True) x y) :
    L.Admits (fun _ => True) (x.attempt : Act ε' (Except ε α)) y.attempt :=
  hx.attempt (fun _ _ => trivial) fun _ => trivial

theorem map_error {x y : Act ε α} {f : ε → ε'} (hx : L.Admits Q x y) :
    L.Admits Q (x.mapError f) (y.mapError f) := ⟨fun w => L.map_error f (hx.holds w)⟩

theorem of_except {x : Except ε α} (hx : ∀ a, x = .ok a → Q a) :
    L.Admits Q (Act.ofExcept x) (Act.ofExcept x) := by
  cases x with
  | ok a => exact pure (hx a rfl)
  | error e => exact raise e

theorem discard {x y : Act ε α} (hx : L.Admits Q x y) :
    L.Admits (fun _ => True) (Functor.discard x) (Functor.discard y) := by
  rw [Act.discard_eq, Act.discard_eq]
  exact hx.bind fun _ _ => pure trivial

/-- A repeated step obeys what each of its rounds obeys; `S` holds of the state between rounds. -/
theorem iterate {f g : σ → Act ε (Sum σ α)} (S : σ → Prop)
    (hf : ∀ s, S s → L.Admits (Sum.elim S Q) (f s) (g s)) (limit : Nat) (s : σ) (hs : S s) :
    L.Admits Q (Act.iterate f limit s) (Act.iterate g limit s) := by
  -- on the rounds that are left
  induction limit generalizing s with
  | zero => exact starve _
  | succ limit ih =>
    rw [Act.iterate_succ, Act.iterate_succ]
    refine (hf s hs).bind ?_
    rintro (s | a) h
    · exact ih s h
    · exact pure h

theorem map_m {f g : σ → Act ε α} (l : List σ)
    (hf : ∀ s ∈ l, L.Admits (fun _ => True) (f s) (g s)) :
    L.Admits (fun _ => True) (l.mapM f) (l.mapM g) := by
  induction l with
  | nil =>
    rw [List.mapM_nil, List.mapM_nil]
    exact pure trivial
  | cons s l ih =>
    rw [List.mapM_cons, List.mapM_cons]
    refine (hf s List.mem_cons_self).bind fun a _ => ?_
    refine (ih fun s hs => hf s (List.mem_cons_of_mem _ hs)).bind fun as _ => ?_
    exact pure trivial

theorem for_m {f g : σ → Act ε PUnit} (l : List σ)
    (hf : ∀ s ∈ l, L.Admits (fun _ => True) (f s) (g s)) :
    L.Admits (fun _ => True) (l.forM f) (l.forM g) := by
  induction l with
  | nil => exact pure trivial
  | cons s l ih =>
    refine bind (hf s List.mem_cons_self) fun _ _ => ?_
    exact ih fun s hs => hf s (List.mem_cons_of_mem _ hs)

end Admits

def given (p : Prop) (L : Law) : Law where
  Holds w Q x y := p → L.Holds w Q x y
  same hx h hp := L.same hx (h hp)
  pure ha _ := L.pure ha
  raise e _ := L.raise e
  starve y _ := L.starve y
  bind hx hf hp := L.bind (hx hp) fun a ha w' => hf a ha w' hp
  attempt hx hok herror hp := L.attempt (hx hp) hok herror
  map_error f hx hp := L.map_error f (hx hp)

theorem admits_given_iff {p : Prop} {x y : Act ε α} :
    (L.given p).Admits Q x y ↔ (p → L.Admits Q x y) :=
  ⟨fun h hp => ⟨fun w => h.holds w hp⟩, fun h => ⟨fun w hp => (h hp).holds w⟩⟩

def keeping (R P : World → World → Prop) [Progress R P] : Law where
  Holds w Q x _ := (x w).Upholds R P Q w
  same hx h := hx ▸ h
  pure ha := (Act.Keeps.pure ha).upholds _
  raise e := (Act.Keeps.raise e).upholds _
  starve _ := Act.Keeps.starve.upholds _
  bind hx hf := Act.upholds_bind hx fun a ha => ⟨fun w' => hf a ha w'⟩
  attempt hx hok herror := Act.upholds_attempt hx hok herror
  map_error _ hx := Act.upholds_map_error hx

end Law

end ScenarioHost
