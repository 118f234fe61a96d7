import Mathlib.Data.List.DropRight
import ScenarioHost.Console

/-!
What a console holds, told from its history: the last of the lines recorded since it was emptied, as
many as there is room for. Nothing is lost as long as it is drained in time.
-/
namespace ScenarioHost

namespace Console

/-- What can be done with a console. -/
inductive Step : Type 1 where
  | addLog (message : String)
  | addError (message : String)
  | check {α : Type} (result : Except String α)
  | entries
  | drain
  | clear

namespace Step

def apply : Step → Console → Console
  | addLog message, c => c.addLog message
  | addError message, c => c.addError message
  | check result, c => (c.check result).2
  | entries, c => c
  | drain, c => c.drain.2
  | clear, c => c.clear

def taken : Step → Console → List ConsoleLine
  | drain, c => c.drain.1
  | _, _ => []

def line? : Step → Option ConsoleLine
  | addLog message => some ⟨.info, message⟩
  | addError message => some ⟨.error, message⟩
  | check (.error message) => some ⟨.error, message⟩
  | _ => none

def drains : Step → Bool
  | drain => true
  | _ => false

def empties : Step → Bool
  | drain => true
  | clear => true
  | _ => false

end Step

def run (c : Console) (steps : List Step) : Console := steps.foldl (fun c step => step.apply c) c

def drained (c : Console) : List Step → List ConsoleLine
  | [] => []
  | step :: rest => step.taken c ++ drained (step.apply c) rest

def recorded (steps : List Step) : List ConsoleLine := steps.filterMap Step.line?

def sinceEmptied (steps : List Step) : List ConsoleLine :=
  recorded (steps.rtakeWhile fun step => !step.empties)

def batches (steps : List Step) : List (List ConsoleLine) :=
  (steps.splitOnP Step.drains).map recorded

theorem make_room_succ (n : Nat) (lines : List ConsoleLine) :
    makeRoom (n + 1) lines = lines.rtake n := by
  induction lines with
  | nil => exact (List.rtake_nil ..).symm
  | cons line rest ih =>
    unfold makeRoom
    split
    case isTrue hfull =>
      -- the oldest line goes, and it is among those that `rtake` leaves out
      have hlength : (line :: rest).length - n = rest.length - n + 1 := by
        rw [List.length_cons]
        omega
      rw [ih, List.rtake, List.rtake, hlength, List.drop_succ_cons]
    case isFalse hroom =>
      have hlength : (line :: rest).length - n = 0 := by
        rw [List.length_cons]
        omega
      rw [List.rtake, hlength, List.drop_zero]

def keeping (room : Nat) (lines : List ConsoleLine) : Console := ⟨room, lines.rtake room⟩

theorem keeping_nil (capacity : Nat) : keeping (max capacity 1) [] = ofCapacity capacity := by
  rw [keeping, List.rtake_nil, ofCapacity]

theorem length_rtake {α : Type} (l : List α) (n : Nat) : (l.rtake n).length = min l.length n := by
  rw [List.rtake, List.length_drop]
  omega

theorem push_keeping {room : Nat} (hroom : 0 < room) (lines : List ConsoleLine)
    (line : ConsoleLine) : (keeping room lines).push line = keeping room (lines ++ [line]) := by
  obtain ⟨n, rfl⟩ : ∃ n, room = n + 1 := ⟨room - 1, by omega⟩
  -- Room is made among the lines that were kept, but these end as all of them do.
  have hlast : (lines.rtake (n + 1)).rtake n = lines.rtake n := by
    rw [List.rtake, length_rtake, List.rtake, List.rtake, List.drop_drop]
    congr 1
    omega
  rw [push, keeping, make_room_succ, hlast, keeping, List.rtake_concat_succ]

namespace Step

def onRecorded (step : Step) (lines : List ConsoleLine) : List ConsoleLine :=
  if step.empties then [] else lines ++ step.line?.toList

theorem apply_keeping {room : Nat} (hroom : 0 < room) (lines : List ConsoleLine) (step : Step) :
    step.apply (keeping room lines) = keeping room (step.onRecorded lines) := by
  have hsame : keeping room (lines ++ []) = keeping room lines := by rw [List.append_nil]
  have hnone : (⟨room, []⟩ : Console) = keeping room [] := by rw [keeping, List.rtake_nil]
  cases step with
  | addLog message => exact push_keeping hroom lines _
  | addError message => exact push_keeping hroom lines _
  | check result =>
    cases result with
    | ok value => exact hsame.symm
    | error message => exact push_keeping hroom lines _
  | entries => exact hsame.symm
  | drain => exact hnone
  | clear => exact hnone

end Step

theorem since_emptied_concat (steps : List Step) (step : Step) :
    sinceEmptied (steps ++ [step]) = step.onRecorded (sinceEmptied steps) := by
  rw [sinceEmptied, List.rtakeWhile_concat, Step.onRecorded]
  cases step.empties with
  | true => rfl
  | false =>
    show recorded (steps.rtakeWhile _ ++ [step]) = sinceEmptied steps ++ step.line?.toList
    rw [recorded, List.filterMap_append, List.filterMap_eq_flatMap_toList _ [step],
      List.flatMap_singleton, sinceEmptied, recorded]

theorem run_eq_keeping (capacity : Nat) (steps : List Step) :
    run (ofCapacity capacity) steps = keeping (max capacity 1) (sinceEmptied steps) := by
  have hroom : 0 < max capacity 1 := by omega
  induction steps using List.reverseRecOn with
  | nil => exact (keeping_nil capacity).symm
  | append_singleton steps step ih =>
    have hlast : run (ofCapacity capacity) (steps ++ [step]) =
        step.apply (run (ofCapacity capacity) steps) := List.foldl_append
    rw [hlast, ih, since_emptied_concat]
    exact step.apply_keeping hroom _

theorem recorded_cons (step : Step) (rest : List Step) :
    recorded (step :: rest) = step.line?.toList ++ recorded rest := by
  rw [recorded, recorded, List.filterMap_eq_flatMap_toList, List.flatMap_cons,
    List.filterMap_eq_flatMap_toList]

theorem batches_cons (step : Step) (rest : List Step) :
    batches (step :: rest) =
      if step.drains then [] :: batches rest
      else (batches rest).modifyHead (step.line?.toList ++ ·) := by
  rw [batches, List.splitOnP_cons_eq_if_modifyHead]
  split
  case isTrue => rfl
  case isFalse =>
    unfold batches
    cases rest.splitOnP Step.drains with
    | nil => rfl
    | cons first others => exact congrArg (· :: others.map recorded) (recorded_cons step first)

theorem flatten_batches (steps : List Step) : (batches steps).flatten = recorded steps := by
  induction steps with
  | nil => rfl
  | cons step rest ih =>
    rw [batches_cons, recorded_cons, ← ih]
    split
    case isTrue hdrains =>
      -- a drain begins a batch and records nothing
      have hdrain : step.line? = none := by
        cases step <;> first | rfl | cases hdrains
      rw [hdrain]
      rfl
    case isFalse =>
      cases hbatches : batches rest with
      | nil => exact absurd (List.map_eq_nil_iff.mp hbatches) (List.splitOnP_ne_nil _ rest)
      | cons first others => exact List.append_assoc ..

/-- What is taken out and what remains are the last lines of each batch. -/
theorem drained_keeping {room : Nat} (hroom : 0 < room) (steps : List Step)
    (hclear : Step.clear ∉ steps) (lines : List ConsoleLine) :
    drained (keeping room lines) steps ++ (run (keeping room lines) steps).lines =
      ((batches steps).modifyHead (lines ++ ·)).flatMap (·.rtake room) := by
  induction steps generalizing lines with
  | nil =>
    show lines.rtake room = (lines ++ []).rtake room ++ []
    rw [List.append_nil, List.append_nil]
  | cons step rest ih =>
    obtain ⟨hstep, hrest⟩ : Step.clear ≠ step ∧ Step.clear ∉ rest := by
      rwa [List.mem_cons, not_or] at hclear
    have hrun : run (keeping room lines) (step :: rest) =
        run (keeping room (step.onRecorded lines)) rest :=
      congrArg (run · rest) (step.apply_keeping hroom lines)
    rw [hrun, drained, step.apply_keeping hroom, List.append_assoc, ih hrest, batches_cons]
    -- A drain closes the batch that `lines` begin; any other step adds to it.
    cases hbatches : batches rest with
    | nil => exact absurd (List.map_eq_nil_iff.mp hbatches) (List.splitOnP_ne_nil _ rest)
    | cons first others =>
      cases hdrains : step.drains with
      | true =>
        obtain rfl : step = .drain := by
          cases step <;> first | rfl | cases hdrains
        show lines.rtake room ++ (first :: others).flatMap _ =
          ((lines ++ []) :: first :: others).flatMap _
        rw [List.append_nil, List.flatMap_cons (x := lines)]
      | false =>
        have htaken : step.taken (keeping room lines) = [] := by
          cases step <;> first | rfl | cases hdrains
        have hrecorded : step.onRecorded lines = lines ++ step.line?.toList := by
          cases step <;> first | rfl | exact absurd rfl hstep | cases hdrains
        rw [htaken, hrecorded, List.nil_append, if_neg Bool.false_ne_true, List.modifyHead_cons,
          List.modifyHead_cons, List.modifyHead_cons, List.append_assoc]

/-- Cutting lists down to `n` loses nothing exactly if none of them is longer. -/
theorem flat_map_rtake {α : Type} (n : Nat) (ls : List (List α)) :
    ls.flatMap (·.rtake n) = ls.flatten ↔ ∀ l ∈ ls, l.length ≤ n := by
  induction ls with
  | nil => exact ⟨fun _ l hl => absurd hl List.not_mem_nil, fun _ => rfl⟩
  | cons l rest ih =>
    -- Lists only get shorter, so that equal lengths in all leave no list shorter.
    have hshorter (ls : List (List α)) : (ls.flatMap (·.rtake n)).length ≤ ls.flatten.length := by
      induction ls with
      | nil => exact le_rfl
      | cons l rest ih =>
        rw [List.flatMap_cons, List.flatten_cons, List.length_append, List.length_append,
          length_rtake]
        omega
    rw [List.flatMap_cons, List.flatten_cons, List.forall_mem_cons, ← ih]
    constructor
    · intro hall
      have hlength := congrArg List.length hall
      rw [List.length_append, List.length_append, length_rtake] at hlength
      have hrest := hshorter rest
      have hfits : l.length ≤ n := by omega
      refine ⟨hfits, ?_⟩
      rw [List.rtake, Nat.sub_eq_zero_of_le hfits, List.drop_zero] at hall
      exact List.append_cancel_left hall
    · rintro ⟨hfits, hrest⟩
      rw [hrest, List.rtake, Nat.sub_eq_zero_of_le hfits, List.drop_zero]

/-- A console shows the last lines recorded since it was emptied, and never more than it has room
for. If it is only emptied by draining, what is drained and what remains are the last lines of each
batch, and these are all the lines ever recorded exactly if no batch was larger than the room. -/
theorem shows_last_recorded (capacity : Nat) (steps : List Step) :
    let room := max capacity 1
    let c := run (ofCapacity capacity) steps
    c.lines = (sinceEmptied steps).rtake room ∧
      c.lines.length ≤ room ∧
      (Step.clear ∉ steps →
        drained (ofCapacity capacity) steps ++ c.lines = (batches steps).flatMap (·.rtake room) ∧
          (drained (ofCapacity capacity) steps ++ c.lines = recorded steps ↔
            ∀ batch ∈ batches steps, batch.length ≤ room)) := by
  intro room c
  have hlines : c.lines = (sinceEmptied steps).rtake room :=
    congrArg Console.lines (run_eq_keeping capacity steps)
  refine ⟨hlines, ?_, fun hclear => ?_⟩
  · rw [hlines, length_rtake]
    exact Nat.min_le_right ..
  · have hroom : 0 < room := by omega
    have hall : drained (ofCapacity capacity) steps ++ c.lines =
        (batches steps).flatMap (·.rtake room) := by
      have hkept := drained_keeping hroom steps hclear []
      rw [keeping_nil] at hkept
      exact hkept.trans (congrArg (List.flatMap _) (congrFun List.modifyHead_id _))
    refine ⟨hall, ?_⟩
    rw [hall, ← flatten_batches]
    exact flat_map_rtake room _

/-- With room for one line, draining after every line keeps them all. -/
theorem drained_in_time :
    let steps : List Step :=
      [.addLog "one", .drain, .check (.error "two" : Except String Unit), .entries]
    (run (ofCapacity 0) steps).lines = [⟨.error, "two"⟩] ∧
      drained (ofCapacity 0) steps ++ (run (ofCapacity 0) steps).lines =
        [⟨.info, "one"⟩, ⟨.error, "two"⟩] := by
  intro steps
  obtain ⟨hlines, -, hkept⟩ := shows_last_recorded 0 steps
  have hclear : Step.clear ∉ steps := by simp [steps]
  have hfits : ∀ batch ∈ batches steps, batch.length ≤ max 0 1 := by decide
  exact ⟨hlines.trans rfl, (hkept hclear).2.mpr hfits⟩

example : (run (ofCapacity 2) [.addLog "one", .addLog "two", .addLog "three"]).lines =
    [⟨.info, "two"⟩, ⟨.info, "three"⟩] := by
  decide

end Console

end ScenarioHost
