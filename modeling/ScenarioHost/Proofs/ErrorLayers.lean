import Mathlib.Data.List.Basic
import ScenarioHost.Failure

/-!
Errors and the layers around them. Any error of an interpreter is a root, which has no cause, inside
a list of layers. A script error is recovered if it is the root and all layers are those of calls
and contexts, however many there are; nothing else is taken for one.
-/
namespace ScenarioHost

/-- What can stand around an error. -/
inductive Layer where
  | badArgument (function : Option String) (place : ArgumentPlace)
  | callback
  | context (text : String)

namespace Layer

def around : Layer → HostError → HostError
  | badArgument function place, e => .badArgument function place e
  | callback, e => .callback e
  | context text, e => .context text e

def clear : Layer → Bool
  | badArgument .. => false
  | callback => true
  | context _ => true

end Layer

namespace HostError

def inside (layers : List Layer) (e : HostError) : HostError := layers.foldr Layer.around e

def root : HostError → HostError
  | .badArgument _ _ cause => cause.root
  | .callback cause => cause.root
  | .context _ cause => cause.root
  | e => e

def layers : HostError → List Layer
  | .badArgument function place cause => .badArgument function place :: cause.layers
  | .callback cause => .callback :: cause.layers
  | .context text cause => .context text :: cause.layers
  | _ => []

theorem inside_layers_root (e : HostError) : inside e.layers e.root = e := by
  induction e with
  | badArgument function place cause ih => exact congrArg (badArgument function place) ih
  | callback cause ih => exact congrArg callback ih
  | context text cause ih => exact congrArg (context text) ih
  | _ => rfl

theorem layers_root (e : HostError) : e.root.layers = [] := by
  induction e with
  | badArgument function place cause ih => exact ih
  | callback cause ih => exact ih
  | context text cause ih => exact ih
  | _ => rfl

theorem script_error_around (l : Layer) (e : HostError) :
    (l.around e).scriptError? = if l.clear then e.scriptError? else none := by
  cases l with
  | _ => rfl

/-- One layer that is not looked through hides what is inside, wherever it stands. -/
theorem script_error_inside (ls : List Layer) (e : HostError) :
    (inside ls e).scriptError? = if ls.all Layer.clear then e.scriptError? else none := by
  induction ls with
  | nil => rfl
  | cons l ls ih =>
    change (l.around (inside ls e)).scriptError? = _
    rw [script_error_around, ih, List.all_cons]
    cases l.clear with
    | true => rw [if_pos rfl, Bool.true_and]
    | false => rfl

/-- A root is recovered only if it is a script error. -/
theorem script_error_of_root {e : HostError} (h : e.layers = []) (s : ScriptError) :
    e.scriptError? = some s ↔ e = .script s := by
  cases e with
  | script s' => exact Option.some_inj.trans ⟨congrArg script, script.inj⟩
  | badArgument function place cause => cases h
  | callback cause => cases h
  | context text cause => cases h
  | _ =>
    constructor
    · intro hread
      cases hread
    · intro heq
      cases heq

theorem script_error_eq (e : HostError) :
    e.scriptError? = if e.layers.all Layer.clear then e.root.scriptError? else none := by
  rw [← script_error_inside, inside_layers_root]

theorem script_error_eq_some_iff (e : HostError) (s : ScriptError) :
    e.scriptError? = some s ↔
      ∃ ls : List Layer, ls.all Layer.clear = true ∧ e = inside ls (.script s) := by
  constructor
  · intro hread
    rw [script_error_eq, Option.ite_none_right_eq_some] at hread
    obtain ⟨hclear, hroot⟩ := hread
    refine ⟨e.layers, hclear, ?_⟩
    rw [← (script_error_of_root e.layers_root s).mp hroot, inside_layers_root]
  · rintro ⟨ls, hclear, rfl⟩
    rw [script_error_inside, if_pos hclear]
    rfl

theorem script_error_eq_none_iff (e : HostError) :
    e.scriptError? = none ↔ e.layers.all Layer.clear = false ∨ ∀ s, e.root ≠ .script s := by
  rw [script_error_eq]
  cases e.layers.all Layer.clear with
  | false => exact iff_of_true rfl (Or.inl rfl)
  | true =>
    rw [if_pos rfl, Option.eq_none_iff_forall_ne_some, or_iff_right (by decide)]
    exact forall_congr' fun s => not_congr (script_error_of_root e.layers_root s)

/-- A script error is recovered from an error just if this is the script error inside layers of calls
and contexts, in any number and order. Every error is a root inside layers; a layer of another kind
hides whatever is inside it, and no other root is taken for a script error. -/
theorem script_errors_are_recovered :
    (∀ e s, scriptError? e = some s ↔
      ∃ ls : List Layer, ls.all Layer.clear = true ∧ e = inside ls (.script s)) ∧
    (∀ ls e, (inside ls e).scriptError? = if ls.all Layer.clear then e.scriptError? else none) ∧
    (∀ e, inside e.layers e.root = e ∧ e.root.layers = []) ∧
    ∀ e, scriptError? e = none ↔ e.layers.all Layer.clear = false ∨ ∀ s, e.root ≠ .script s :=
  ⟨script_error_eq_some_iff, script_error_inside,
    fun e => ⟨e.inside_layers_root, e.layers_root⟩, script_error_eq_none_iff⟩

-- A wrong argument on the way hides the kind of the error.
example : (inside [.callback, .badArgument none .receiver, .context "at start"]
    (.script .invalidHandle)).scriptError? = none := rfl

end HostError

end ScenarioHost
