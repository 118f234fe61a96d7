import ScenarioHost.Proofs.Containment
import ScenarioHost.Proofs.Texts

/-!
Spellings of module names. A name in normal form has one kind of slash, does not begin with a part
that means "here", and has no white space at its ends; such a name is its own normal form. Names are
trimmed once, before the parts in front are dropped, so white space behind these parts is kept: the
name that is left begins with it, and is spelled differently when it is used as a name again.
-/
namespace ScenarioHost

open Loading (loadOverlay openModule overlayName)

namespace ModuleName

def here : List Char := ['.', '/']

def slash (c : Char) : Char := if c = '\\' then '/' else c

def slashed (name : String) : List Char := (trimChars name.toList).map slash

structure Normal (cs : List Char) : Prop where
  slashes : '\\' ∉ cs
  bare : ¬ here <+: cs
  unpadded : Unpadded cs

theorem toList_normalize (name : String) : (normalize name).toList = dropHere (slashed name) :=
  String.toList_ofList

/-! Parts in front. -/

/-- A text either begins with such a part, or nothing is dropped from it. -/
theorem here_or_kept (cs : List Char) :
    (∃ rest, cs = here ++ rest) ∨ (¬ here <+: cs ∧ dropHere cs = cs) := by
  unfold dropHere
  split
  · rename_i rest
    exact Or.inl ⟨rest, rfl⟩
  · rename_i hother
    refine Or.inr ⟨?_, rfl⟩
    intro hprefix
    obtain ⟨rest, hrest⟩ := hprefix
    exact hother rest hrest.symm

theorem dropHere_append (cs : List Char) : dropHere (here ++ cs) = dropHere cs := rfl

theorem dropHere_of_bare {cs : List Char} (h : ¬ here <+: cs) : dropHere cs = cs := by
  rcases here_or_kept cs with ⟨rest, rfl⟩ | ⟨-, hkept⟩
  · exact absurd (List.prefix_append here rest) h
  · exact hkept

/-- The parts in front are dropped one after the other, until the text begins with none. -/
theorem dropHere_ends (cs : List Char) :
    ¬ here <+: dropHere cs ∧ ∃ k, cs = (List.replicate k here).flatten ++ dropHere cs := by
  -- each part that is dropped makes the text shorter
  induction hlength : cs.length using Nat.strong_induction_on generalizing cs with
  | _ length ih =>
    rcases here_or_kept cs with ⟨rest, rfl⟩ | ⟨hbare, hkept⟩
    · have hshorter : rest.length < length := by
        rw [← hlength, List.length_append]
        exact Nat.lt_add_of_pos_left (by decide)
      obtain ⟨hbare, k, hrest⟩ := ih rest.length hshorter rest rfl
      rw [dropHere_append]
      refine ⟨hbare, k + 1, ?_⟩
      rw [List.replicate_succ, List.flatten_cons, List.append_assoc, ← hrest]
    · rw [hkept]
      exact ⟨hbare, 0, rfl⟩

theorem dropHere_flatten (k : ℕ) (cs : List Char) :
    dropHere ((List.replicate k here).flatten ++ cs) = dropHere cs := by
  induction k with
  | zero => rfl
  | succ k ih => rw [List.replicate_succ, List.flatten_cons, List.append_assoc, dropHere_append, ih]

/-! Slashes and white space. -/

theorem not_mem_slashed (name : String) : '\\' ∉ slashed name := by
  intro hmem
  obtain ⟨c, -, hc⟩ := List.mem_map.mp hmem
  unfold slash at hc
  split at hc
  · exact absurd hc (by decide)
  · rename_i hother
    exact hother hc

theorem is_blank_slash (c : Char) : isBlank (slash c) = isBlank c := by
  unfold slash
  split
  · rename_i hc
    subst hc
    decide
  · rfl

/-- White space stays where it is. -/
theorem unpadded_slashed (name : String) : Unpadded (slashed name) := by
  have htrimmed := unpadded_trim name.toList
  constructor
  · intro c hc
    rw [slashed, List.head?_map] at hc
    obtain ⟨d, hd, rfl⟩ := Option.map_eq_some_iff.mp hc
    rw [is_blank_slash]
    exact htrimmed.first d hd
  · intro c hc
    rw [slashed, List.getLast?_map] at hc
    obtain ⟨d, hd, rfl⟩ := Option.map_eq_some_iff.mp hc
    rw [is_blank_slash]
    exact htrimmed.last d hd

theorem slashed_of_normal {name : String} (h : Normal name.toList) : slashed name = name.toList := by
  rw [slashed, trim_unpadded h.unpadded]
  have hsame : ∀ c ∈ name.toList, slash c = c := by
    intro c hc
    apply if_neg
    intro heq
    exact h.slashes (heq ▸ hc)
  exact (List.map_congr_left hsame).trans (List.map_id _)

theorem normalize_of_normal {name : String} (h : Normal name.toList) : normalize name = name := by
  rw [← String.toList_inj, toList_normalize, slashed_of_normal h, dropHere_of_bare h.bare]

/-! What is left of a name. -/

theorem suffix_slashed (name : String) : (normalize name).toList <:+ slashed name := by
  obtain ⟨-, k, hk⟩ := dropHere_ends (slashed name)
  rw [toList_normalize]
  exact ⟨_, hk.symm⟩

theorem bare_normalize (name : String) : ¬ here <+: (normalize name).toList := by
  rw [toList_normalize]
  exact (dropHere_ends (slashed name)).1

theorem not_mem_normalize (name : String) : '\\' ∉ (normalize name).toList :=
  fun hmem => not_mem_slashed name ((suffix_slashed name).subset hmem)

/-- At its end a name has lost its white space for good. -/
theorem last_normalize {name : String} {c : Char} (hc : (normalize name).toList.getLast? = some c) :
    isBlank c = false := by
  obtain ⟨front, hfront⟩ := suffix_slashed name
  have hne : (normalize name).toList ≠ [] := by
    intro hnil
    rw [hnil] at hc
    cases hc
  apply (unpadded_slashed name).last c
  rw [← hfront, List.getLast?_append_of_ne_nil _ hne, hc]

/-- Only at its front a name can still have white space. -/
theorem normal_of_front {name : String}
    (h : ∀ c, (normalize name).toList.head? = some c → isBlank c = false) :
    Normal (normalize name).toList :=
  ⟨not_mem_normalize name, bare_normalize name, h, fun _ => last_normalize⟩

/-- White space behind the parts that mean "here". -/
def Uncovers (name : String) : Prop :=
  ∃ k c rest, slashed name = (List.replicate k here).flatten ++ c :: rest ∧ isBlank c = true

theorem normal_normalize_iff (name : String) : Normal (normalize name).toList ↔ ¬ Uncovers name := by
  constructor
  · intro hnormal huncovers
    obtain ⟨k, c, rest, hname, hblank⟩ := huncovers
    have hbare : ¬ here <+: c :: rest := by
      intro hprefix
      obtain ⟨rfl, -⟩ := List.cons_prefix_cons.mp hprefix
      exact absurd hblank (by decide)
    have hleft : (normalize name).toList = c :: rest := by
      rw [toList_normalize, hname, dropHere_flatten, dropHere_of_bare hbare]
    rw [hleft] at hnormal
    have hsolid : isBlank c = false := hnormal.unpadded.first c rfl
    rw [hblank] at hsolid
    cases hsolid
  · intro hcovered
    apply normal_of_front
    intro c hc
    obtain ⟨-, k, hk⟩ := dropHere_ends (slashed name)
    rw [← toList_normalize] at hk
    obtain ⟨rest, hrest⟩ := List.head?_eq_some_iff.mp hc
    by_contra hblank
    rw [Bool.not_eq_false] at hblank
    rw [hrest] at hk
    exact hcovered ⟨k, c, rest, hk, hblank⟩

theorem length_trim_le (cs : List Char) : (trimChars cs).length ≤ cs.length := by
  rw [trim_chars_eq]
  exact (List.rdropWhile_prefix ..).length_le.trans (List.dropWhile_suffix _).length_le

/-- A name that begins with white space is shorter the second time. -/
theorem normal_of_fixed {name : String} (h : normalize (normalize name) = normalize name) :
    Normal (normalize name).toList := by
  apply normal_of_front
  intro c hc
  by_contra hblank
  rw [Bool.not_eq_false] at hblank
  obtain ⟨rest, hrest⟩ := List.head?_eq_some_iff.mp hc
  have htrimmed : (slashed (normalize name)).length < (normalize name).toList.length := by
    rw [slashed, List.length_map, hrest, trim_cons_blank hblank, List.length_cons]
    exact Nat.lt_succ_of_le (length_trim_le rest)
  have hleft := (suffix_slashed (normalize name)).length_le
  rw [h] at hleft
  omega

theorem normalize_normalize_iff (name : String) :
    normalize (normalize name) = normalize name ↔ ¬ Uncovers name := by
  rw [← normal_normalize_iff]
  exact ⟨normal_of_fixed, normalize_of_normal⟩

/-! Modules by the names that are reported for them. -/

/-- Two names stand for one module: wherever it is looked for, the same source is opened, and the same
translations are asked for. -/
def SameModule (name other : String) : Prop :=
  ∀ (w : World) (ε : Type), (openModule name : Act ε (Option Source)) w = openModule other w ∧
    overlayName w name = overlayName w other ∧
    (loadOverlay name : Act ε Unit) w = loadOverlay other w

def lone (name : String) : Library := .ofList [(name, .bytes (.ofText ""))]

theorem source_of_lone (name other : String) :
    ((lone name).source? other).isSome = decide (name = other) := by
  change (([(name, Source.bytes (.ofText ""))].find? fun s => decide (s.1 = other)).map
    Prod.snd).isSome = decide (name = other)
  rw [List.find?_singleton]
  cases decide (name = other) with
  | _ => rfl

theorem same_module_iff (name other : String) :
    SameModule name other ↔ normalize name = normalize other := by
  constructor
  · intro hsame
    -- a library that knows the one name alone tells it from all others
    let w := World.new Config.default (lone (normalize name))
    have hopened := (hsame w Empty).1
    rw [open_module_apply, open_module_apply] at hopened
    have hsource : w.library.source? (normalize name) = w.library.source? (normalize other) :=
      (Outcome.done.inj hopened).1
    have hknown := congrArg Option.isSome hsource
    change ((lone (normalize name)).source? (normalize name)).isSome =
      ((lone (normalize name)).source? (normalize other)).isSome at hknown
    rw [source_of_lone, source_of_lone, decide_eq_true rfl] at hknown
    exact of_decide_eq_true hknown.symm
  · intro heq w ε
    have hoverlay : overlayName w name = overlayName w other := by
      rw [overlayName, overlayName, heq]
    refine ⟨?_, hoverlay, ?_⟩
    · rw [open_module_apply, open_module_apply, heq]
    · unfold loadOverlay
      change Outcome.done () (w.loadOverlay (overlayName w name)) =
        .done () (w.loadOverlay (overlayName w other))
      rw [hoverlay]

/-- The name that is reported for a module has one kind of slash and no part in front that means "here":
these have all been dropped, one after the other. It is its own normal form, and stands for the same
module as the name that was asked for, exactly if no white space comes behind those parts. -/
theorem reported_names_are_normal (name : String) :
    ('\\' ∉ (normalize name).toList ∧ ¬ here <+: (normalize name).toList) ∧
    (∃ k, slashed name = (List.replicate k here).flatten ++ (normalize name).toList) ∧
    (normalize (normalize name) = normalize name ↔ ¬ Uncovers name) ∧
    (SameModule (normalize name) name ↔ ¬ Uncovers name) := by
  refine ⟨⟨not_mem_normalize name, bare_normalize name⟩, ?_, normalize_normalize_iff name, ?_⟩
  · rw [toList_normalize]
    exact (dropHere_ends (slashed name)).2
  · rw [same_module_iff]
    exact normalize_normalize_iff name

/-- White space between two parts in front is kept when the first of them is dropped. The module that
is found then is reported under a name by which it is not found again. -/
theorem uncovered_name_is_lost :
    let w := World.new Config.default (lone " ./a.lua")
    normalize "./ ./a.lua" = " ./a.lua" ∧ normalize " ./a.lua" = "a.lua" ∧
      (w.library.source? (normalize "./ ./a.lua")).isSome = true ∧
      (openModule (normalize "./ ./a.lua") : Act Empty (Option Source)) w = .done none w := by
  intro w
  have hreported : normalize "./ ./a.lua" = " ./a.lua" := by decide
  have hagain : normalize " ./a.lua" = "a.lua" := by decide
  have hsource (name : String) :
      (w.library.source? name).isSome = decide (" ./a.lua" = name) := source_of_lone _ name
  have hunknown : w.library.source? "a.lua" = none := by
    rw [← Option.not_isSome_iff_eq_none, hsource]
    decide
  refine ⟨hreported, hagain, ?_, ?_⟩
  · rw [hsource, hreported]
    decide
  · rw [hreported, open_module_apply, hagain, hunknown]
    rfl

-- White space at the ends does no harm, whatever stands between it.
example : normalize " .\\./api\\all.lua\n" = "api/all.lua" := by decide

end ModuleName

end ScenarioHost
