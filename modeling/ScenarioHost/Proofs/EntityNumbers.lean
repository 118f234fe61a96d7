import Mathlib.Tactic
import ScenarioHost.Proofs.Operations
import ScenarioHost.Proofs.WholeDoubles

/-!
Ids of entities as scripts see them. An id has up to 64 bits and a script's number has room for 53,
so an id that needs more comes back as its neighbour, and ids that have one neighbour are the same
to a script. Ids of rows that were given out less than `2 ^ 21` times are whole.
-/
namespace ScenarioHost

open Conversion (ofEntity toEntity)
open Double (Short rounded)
open Lua (Evaluator Heap Site Spot Value)

/-- What becomes of ids of entities that are handed to scripts. -/
structure EntityNumberLaw (run : Evaluator) (s : Spot) (w : World) : Prop where
  /-- A script gets the nearest number for which a double has room. -/
  closest (id r : Nat) : Short (rounded id) ∧
    (Short r → ((id : Int) - rounded id).natAbs ≤ ((id : Int) - r).natAbs)
  /-- That number is what comes back, unless it has been rounded up to `2 ^ 64`. -/
  returned (id : Nat) : id < 2 ^ 64 →
    toEntity (w.heap s.env) (ofEntity id) =
      if rounded id < 2 ^ 64 then .ok (rounded id)
      else Conversion.mismatch (w.heap s.env) (ofEntity id) "u64" (some "out of range")
  /-- The id itself comes back if it has room, and only then. -/
  whole (id : Nat) : id < 2 ^ 64 →
    (toEntity (w.heap s.env) (ofEntity id) = .ok id ↔ Short id)
  /-- Scripts cannot tell ids apart that are rounded to the same number. -/
  compared (id id' : Nat) : id < 2 ^ 64 → id' < 2 ^ 64 →
    Lua.equal run s (ofEntity id) (ofEntity id') w = .done (decide (rounded id = rounded id')) w
  distinct (id id' : Nat) : id < 2 ^ 64 → id' < 2 ^ 64 → Short id → Short id' →
    Lua.equal run s (ofEntity id) (ofEntity id') w = .done (decide (id = id')) w
  /-- Ids of few generations have room. -/
  young (row generation : Nat) : generation < 2 ^ 21 → Short (Entities.pack row generation)
  /-- This is how an id reaches the script that makes the entity, the hook for new ships, and the
  callback of a reply. -/
  created (args : List Value) :
    Interface.callHost run s .createEntity args w =
      .done [ofEntity w.entities.create.1] { w with entities := w.entities.create.2 }
  announced (site : Site) (ship : Nat) (c : Callback) :
    w.session.bind (·.playerShipHook) = some c →
    Callbacks.firePlayerShip run site ship w =
      Callbacks.report run site "onNewPlayerShip" c [ofEntity ship] w
  replied (site : Site) (i source target : Nat) (r : Choice) :
    w.session.bind (·.reply? i) = some r →
    Callbacks.selectReply run site i source target w =
      Callbacks.report run site r.label r.callback [ofEntity source, ofEntity target]
        (w.modifySession Session.beginReply)

theorem toEntity_ofEntity (h : Heap) {id : Nat} (hid : id < 2 ^ 64) :
    toEntity h (ofEntity id) =
      if rounded id < 2 ^ 64 then .ok (rounded id)
      else Conversion.mismatch h (ofEntity id) "u64" (some "out of range") := by
  have hnumber : (ofEntity id).toNumber? = some (Double.ofNat id) := rfl
  have hbelow : Double.toNatBelow? 0x10000000000000000 (Double.ofNat id) =
      if rounded id < 2 ^ 64 then some (rounded id) else none := Double.toNatBelow_ofNat hid _
  unfold toEntity Conversion.toNatural
  rw [hnumber]
  dsimp only
  rw [hbelow]
  by_cases hlt : rounded id < 2 ^ 64
  · rw [if_pos hlt, if_pos hlt]
  · rw [if_neg hlt, if_neg hlt]

theorem toEntity_eq_iff (h : Heap) {id : Nat} (hid : id < 2 ^ 64) :
    toEntity h (ofEntity id) = .ok id ↔ Short id := by
  rw [toEntity_ofEntity h hid, ← Double.rounded_eq_iff]
  constructor
  · intro heq
    split at heq
    · exact Except.ok.inj heq
    · cases heq
  · intro heq
    rw [heq, if_pos hid]

theorem equal_ofEntity (run : Evaluator) (s : Spot) {id id' : Nat} (w : World) (hid : id < 2 ^ 64)
    (hid' : id' < 2 ^ 64) :
    Lua.equal run s (ofEntity id) (ofEntity id') w = .done (decide (rounded id = rounded id')) w := by
  have hsame : (ofEntity id).same (ofEntity id') = decide (rounded id = rounded id') := by
    rw [Bool.eq_iff_iff, decide_eq_true_eq]
    exact Double.ofNat_beq_iff hid hid'
  unfold Lua.equal
  rw [hsame]
  by_cases heq : rounded id = rounded id'
  · rw [decide_eq_true heq]
    rfl
  · rw [decide_eq_false heq]
    rfl

theorem short_pack {row generation : Nat} (h : generation < 2 ^ 21) :
    Short (Entities.pack row generation) := by
  -- 21 bits of the generation and 32 of the row
  refine ⟨Entities.pack row generation, 0, ?_, (Nat.mul_one _).symm⟩
  unfold Entities.pack
  omega

/-- Scripts see the nearest numbers of ids, which are the ids where there is room for all bits. -/
theorem entity_ids_are_rounded (run : Evaluator) (s : Spot) (w : World) :
    EntityNumberLaw run s w where
  closest id _ := ⟨Double.short_rounded id, Double.rounded_closest⟩
  returned _ := toEntity_ofEntity _
  whole _ := toEntity_eq_iff _
  compared _ _ := equal_ofEntity run s w
  distinct id id' hid hid' hshort hshort' := by
    rw [equal_ofEntity run s w hid hid', Double.rounded_eq_iff.mpr hshort,
      Double.rounded_eq_iff.mpr hshort']
  young _ _ := short_pack
  created _ := rfl
  announced site ship c hc := by
    have hhook : (Callbacks.Invocation.playerShip ship).target? w =
        some ⟨"onNewPlayerShip", c, [ofEntity ship]⟩ := congrArg (Option.map _) hc
    have hannounced := Callbacks.Invocation.perform_present run site w hhook
    exact hannounced
  replied site i source target r hr := by
    have hreply : (Callbacks.Invocation.reply i source target).target? w =
        some ⟨r.label, r.callback, [ofEntity source, ofEntity target]⟩ := congrArg (Option.map _) hr
    have hreplied := Callbacks.Invocation.perform_present run site w hreply
    exact hreplied

/-- The two ids of generation `2 ^ 21` that come first are one number to scripts, and the second one
comes back as the first. -/
theorem neighbours_are_confused :
    2 ^ 53 ≠ 2 ^ 53 + 1 ∧ (ofEntity (2 ^ 53)).same (ofEntity (2 ^ 53 + 1)) = true ∧
      toEntity Heap.empty (ofEntity (2 ^ 53 + 1)) = .ok (2 ^ 53) := by
  have hrounded : rounded (2 ^ 53 + 1) = 2 ^ 53 := by decide
  have hkept : rounded (2 ^ 53) = 2 ^ 53 := by decide
  refine ⟨by decide, ?_, ?_⟩
  · exact (Double.ofNat_beq_iff (by decide) (by decide)).mpr (hkept.trans hrounded.symm)
  · rw [toEntity_ofEntity _ (by decide), hrounded, if_pos (by decide)]

end ScenarioHost
