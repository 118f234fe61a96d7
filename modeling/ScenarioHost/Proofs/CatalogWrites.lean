import Mathlib.Data.List.Basic
import Mathlib.Data.List.Induction
import ScenarioHost.Catalog

/-!
The catalog as a log of writes. Loading an overlay writes the entries last registered for its name, and
each text is translated as it was last written.
-/
namespace ScenarioHost

namespace Bindings

variable {κ α : Type} [DecidableEq κ]

theorem get_insert (bs : Bindings κ α) (k k' : κ) (a : α) :
    (bs.insert k a).get? k' = if k = k' then some a else bs.get? k' := by
  unfold get? insert
  rw [List.find?_cons]
  by_cases h : k = k'
  · rw [if_pos h, decide_eq_true h]
    rfl
  · rw [if_neg h, decide_eq_false h, List.find?_filter]
    -- what was dropped is not bound to the other key
    have hother (b : κ × α) : (b.1 ≠ k ∧ b.1 = k') ↔ b.1 = k' :=
      and_iff_right_of_imp fun hb heq => h (heq.symm.trans hb)
    simp only [decide_eq_true_eq, hother]

def insertAll (bs : Bindings κ α) (new : List (κ × α)) : Bindings κ α :=
  new.foldl (fun bs b => bs.insert b.1 b.2) bs

def last? (new : List (κ × α)) (k : κ) : Option α := get? new.reverse k

theorem last_append (first second : List (κ × α)) (k : κ) :
    last? (first ++ second) k = (last? second k).or (last? first k) := by
  unfold last? get?
  rw [List.reverse_append, List.find?_append, Option.map_or]

theorem last_singleton (b : κ × α) (k : κ) : last? [b] k = if b.1 = k then some b.2 else none := by
  unfold last? get?
  rw [List.reverse_singleton, List.find?_cons]
  by_cases h : b.1 = k
  · rw [if_pos h, decide_eq_true h]
    rfl
  · rw [if_neg h, decide_eq_false h]
    rfl

theorem get_insertAll (bs : Bindings κ α) (new : List (κ × α)) (k : κ) :
    (bs.insertAll new).get? k = (last? new k).or (bs.get? k) := by
  induction new generalizing bs with
  | nil => rfl
  | cons b new ih =>
    have hnext : (bs.insertAll (b :: new)).get? k = ((bs.insert b.1 b.2).insertAll new).get? k := rfl
    rw [hnext, ih, get_insert, ← List.singleton_append, last_append, last_singleton, Option.or_assoc]
    by_cases h : b.1 = k
    · rw [if_pos h, if_pos h, Option.some_or]
    · rw [if_neg h, if_neg h, Option.none_or]

end Bindings

namespace Catalog

abbrev Write := (Option String × String) × String

def plain (entries : List (String × String)) : List Write := entries.map fun e => ((none, e.1), e.2)

theorem insertAll_plain (bs : Bindings (Option String × String) String)
    (entries : List (String × String)) :
    bs.insertAll (plain entries) = entries.foldl (fun bs e => bs.insert (none, e.1) e.2) bs :=
  List.foldl_map

/-- The entries of an overlay that is asked for replace those of the same texts. -/
theorem load_eq (c : Catalog) (name : String) :
    (c.load name).2 = { c with
      entries := ((c.overlays.get? name).getD []).foldl (fun bs e => bs.insert (none, e.1) e.2) c.entries
      requests := name :: c.requests } := by
  have hinserts (entries : List (String × String)) (c : Catalog) :
      entries.foldl (fun c e => c.insert none e.1 e.2) c =
        { c with entries := entries.foldl (fun bs e => bs.insert (none, e.1) e.2) c.entries } := by
    induction entries generalizing c with
    | nil => rfl
    | cons e entries ih => exact ih (c.insert none e.1 e.2)
  unfold load
  dsimp only
  cases c.overlays.get? name with
  | none => rfl
  | some entries => exact hinserts entries _

/-- An overlay that is asked for is noted last, whether or not there are entries to take over. -/
theorem requested_load (c : Catalog) (name : String) :
    (c.load name).2.requested = c.requested ++ [name] := by
  rw [load_eq]
  exact List.reverse_cons

/-- What can be done with a catalog, reading apart. -/
inductive Step where
  | insert (text translated : String)
  | insertIn (context text translated : String)
  | register (name : String) (entries : List (String × String))
  | load (name : String)

namespace Step

def apply : Step → Catalog → Catalog
  | insert text translated, c => c.insert none text translated
  | insertIn context text translated, c => c.insert (some context) text translated
  | register name entries, c => c.register name entries
  | load name, c => (c.load name).2

def overlay? : Step → Option (String × List (String × String))
  | register name entries => some (name, entries)
  | _ => none

end Step

def run (c : Catalog) (steps : List Step) : Catalog := steps.foldl (fun c step => step.apply c) c

def registered (steps : List Step) (name : String) : Option (List (String × String)) :=
  Bindings.last? (steps.filterMap Step.overlay?) name

def Step.writes (before : List Step) : Step → List Write
  | insert text translated => [((none, text), translated)]
  | insertIn context text translated => [((some context, text), translated)]
  | register .. => []
  | load name => plain ((registered before name).getD [])

def writesAfter (before : List Step) : List Step → List Write
  | [] => []
  | step :: rest => step.writes before ++ writesAfter (before ++ [step]) rest

def writes (steps : List Step) : List Write := writesAfter [] steps

theorem writes_after_append (before first second : List Step) :
    writesAfter before (first ++ second) =
      writesAfter before first ++ writesAfter (before ++ first) second := by
  induction first generalizing before with
  | nil => rw [List.append_nil]; rfl
  | cons step first ih =>
    rw [List.cons_append, writesAfter, ih, writesAfter, List.append_assoc, List.append_assoc,
      List.singleton_append]

theorem writes_append (first second : List Step) :
    writes (first ++ second) = writes first ++ writesAfter first second :=
  writes_after_append [] first second

theorem run_append (c : Catalog) (first second : List Step) :
    c.run (first ++ second) = (c.run first).run second := List.foldl_append

structure Represents (c : Catalog) (steps : List Step) : Prop where
  overlays (name : String) : c.overlays.get? name = registered steps name
  entries (key : Option String × String) : c.entries.get? key = Bindings.last? (writes steps) key

theorem represents_empty : Represents empty [] := ⟨fun _ => rfl, fun _ => rfl⟩

theorem Represents.step {c : Catalog} {steps : List Step} (h : c.Represents steps) (step : Step) :
    (step.apply c).Represents (steps ++ [step]) where
  overlays name := by
    have hregistered : (step.apply c).overlays = c.overlays.insertAll step.overlay?.toList := by
      cases step with
      | load name =>
        rw [Step.apply, load_eq]
        rfl
      | _ => rfl
    rw [hregistered, Bindings.get_insertAll, h.overlays name, registered, registered,
      List.filterMap_append, Bindings.last_append, List.filterMap_eq_flatMap_toList _ [step],
      List.flatMap_singleton]
  entries key := by
    have hwritten : (step.apply c).entries = c.entries.insertAll (step.writes steps) := by
      cases step with
      | load name =>
        rw [Step.apply, load_eq, h.overlays name]
        exact (insertAll_plain ..).symm
      | _ => rfl
    have hnew : writes (steps ++ [step]) = writes steps ++ step.writes steps := by
      rw [writes_append, writesAfter, writesAfter, List.append_nil]
    rw [hwritten, Bindings.get_insertAll, h.entries key, hnew, Bindings.last_append]

theorem represents_run (steps : List Step) : (empty.run steps).Represents steps := by
  -- from the last step back, because a step writes what was registered before it
  induction steps using List.reverseRecOn with
  | nil => exact represents_empty
  | append_singleton steps step ih =>
    rw [run_append]
    exact ih.step step

/-- The first value of `load`: whether there is such an overlay. -/
theorem load_finds (c : Catalog) (name : String) :
    (c.load name).1 = (c.overlays.get? name).isSome := by
  unfold load
  dsimp only
  cases c.overlays.get? name <;> rfl

theorem registered_isSome (steps : List Step) (name : String) :
    (registered steps name).isSome = true ↔ ∃ entries, .register name entries ∈ steps := by
  unfold registered Bindings.last? Bindings.get?
  rw [Option.isSome_map, List.find?_isSome]
  constructor
  · rintro ⟨⟨name', entries⟩, hmem, hname⟩
    obtain rfl : name' = name := of_decide_eq_true hname
    obtain ⟨step, hstep, hoverlay⟩ := List.mem_filterMap.mp (List.mem_reverse.mp hmem)
    cases step with
    | register name entries' =>
      obtain ⟨rfl, rfl⟩ := Prod.mk.inj (Option.some.inj hoverlay)
      exact ⟨_, hstep⟩
    | _ => cases hoverlay
  · rintro ⟨entries, hmem⟩
    refine ⟨(name, entries), List.mem_reverse.mpr ?_, decide_eq_true rfl⟩
    exact List.mem_filterMap.mpr ⟨_, hmem, rfl⟩

def Agree (c c' : Catalog) : Prop :=
  (∀ text, c.translate text = c'.translate text) ∧
    ∀ context text, c.translateIn context text = c'.translateIn context text

theorem Agree.of_get {c c' : Catalog} (h : ∀ key, c.entries.get? key = c'.entries.get? key) :
    Agree c c' := by
  have hplain (text : String) : c.translate text = c'.translate text :=
    congrArg (·.getD text) (h (none, text))
  refine ⟨hplain, fun context text => ?_⟩
  rw [translateIn, translateIn, h, hplain]

/-- Catalogs that differ in what is registered for one name differ in no translation, as long as it is
not loaded. -/
theorem agree_until_load {c c' : Catalog} (name : String) (later : List Step)
    (hlater : .load name ∉ later) (hentries : c.entries = c'.entries)
    (hothers : ∀ other, other ≠ name → c.overlays.get? other = c'.overlays.get? other) :
    Agree (c.run later) (c'.run later) := by
  -- Entries stay equal, since only loading `name` would tell what is registered for it.
  induction later generalizing c c' with
  | nil => exact .of_get fun key => congrArg (Bindings.get? · key) hentries
  | cons step rest ih =>
    obtain ⟨hstep, hrest⟩ : .load name ≠ step ∧ .load name ∉ rest := by
      rwa [List.mem_cons, not_or] at hlater
    have hentries' : (step.apply c).entries = (step.apply c').entries := by
      cases step with
      | load other =>
        have hother : other ≠ name := fun h => hstep (congrArg Step.load h.symm)
        rw [Step.apply, Step.apply, load_eq, load_eq, hothers other hother, hentries]
      | insert text translated => exact congrArg (·.insert (none, text) translated) hentries
      | insertIn context text translated =>
        exact congrArg (·.insert (some context, text) translated) hentries
      | register known entries => exact hentries
    have hothers' (other : String) (hother : other ≠ name) :
        (step.apply c).overlays.get? other = (step.apply c').overlays.get? other := by
      cases step with
      | register known entries =>
        show (c.overlays.insert known entries).get? other =
          (c'.overlays.insert known entries).get? other
        rw [Bindings.get_insert, Bindings.get_insert, hothers other hother]
      | load known =>
        rw [Step.apply, Step.apply, load_eq, load_eq]
        exact hothers other hother
      | _ => exact hothers other hother
    exact ih hrest hentries' hothers'

/-- What is loaded twice is written again as it was. -/
theorem agree_load_load (c : Catalog) (name : String) :
    Agree (c.run [.load name, .load name]) (c.run [.load name]) := by
  have hload (c : Catalog) : (c.load name).2.entries =
      c.entries.insertAll (plain ((c.overlays.get? name).getD [])) := by
    rw [load_eq, insertAll_plain]
  have hsame : (c.load name).2.overlays = c.overlays := by rw [load_eq]
  refine .of_get fun key => ?_
  show ((c.load name).2.load name).2.entries.get? key = (c.load name).2.entries.get? key
  rw [hload, hsame, Bindings.get_insertAll, hload, Bindings.get_insertAll, ← Option.or_assoc,
    Option.or_self]

/-- A catalog reads as the log of what was written into it. A text has the translation last written
for it, in the context if there is one and else without; an overlay is found once it was registered.
Registering one again does nothing before it is loaded, nor does loading it again at once. -/
theorem reads_last_write (steps : List Step) :
    let c := empty.run steps
    (∀ text, c.translate text = (Bindings.last? (writes steps) (none, text)).getD text) ∧
      (∀ context text, c.translateIn context text =
        (Bindings.last? (writes steps) (some context, text)).getD (c.translate text)) ∧
      (∀ name, (c.load name).1 = true ↔ ∃ entries, .register name entries ∈ steps) ∧
      (∀ name entries later, .load name ∉ later →
        Agree (c.run (.register name entries :: later)) (c.run later)) ∧
      ∀ name, Agree (c.run [.load name, .load name]) (c.run [.load name]) := by
  intro c
  have hc : c.Represents steps := represents_run steps
  refine ⟨fun text => ?_, fun context text => ?_, fun name => ?_, ?_, agree_load_load c⟩
  · rw [translate, hc.entries]
  · rw [translateIn, hc.entries]
  · rw [load_finds, hc.overlays, registered_isSome]
  · intro name entries later hlater
    have hothers (other : String) (hother : other ≠ name) :
        (c.register name entries).overlays.get? other = c.overlays.get? other := by
      rw [register, Bindings.get_insert, if_neg hother.symm]
    exact agree_until_load (c := c.register name entries) name later hlater rfl hothers

/-- The last of two entries for a text counts, and goes on counting when others are registered. -/
theorem translates_until_loaded_again :
    let c := empty.run
      [.register "locale/m.de.po" [("Dock", "Anlegen"), ("Dock", "Andocken")], .load "locale/m.de.po"]
    c.translate "Dock" = "Andocken" ∧
      Agree (c.run [.register "locale/m.de.po" [("Dock", "Docken")], .load "locale/n.de.po"])
        (c.run [.load "locale/n.de.po"]) := by
  intro c
  obtain ⟨hplain, -, -, hagain, -⟩ := reads_last_write
    [.register "locale/m.de.po" [("Dock", "Anlegen"), ("Dock", "Andocken")], .load "locale/m.de.po"]
  have hdock : c.translate "Dock" = "Andocken" := (hplain "Dock").trans (by decide)
  have hother : Step.load "locale/m.de.po" ∉ [Step.load "locale/n.de.po"] := by simp
  exact ⟨hdock, hagain _ _ _ hother⟩

end Catalog

end ScenarioHost
