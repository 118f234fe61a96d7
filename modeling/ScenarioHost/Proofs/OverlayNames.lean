import ScenarioHost.Proofs.Operations

/-!
Names of translations. The name is made from what is left of a module's name when a final `.lua` is
taken off, and nothing else of it is lost: in one language two modules have the same translations
only if their names differ by such an ending at most. A module that is found carries the name that
is asked for when it is loaded with its translations, and requiring it asks for no other.
-/
namespace ScenarioHost

namespace ModuleName

/-- What is left of a name without `.lua` at its end; this is taken off once only. -/
inductive Stem : String → String → Prop where
  | script (rest : String) : Stem (rest ++ ".lua") rest
  | bare {name : String} (h : ¬ ".lua".toList <:+ name.toList) : Stem name name

theorem stem_script (rest : String) : stem (rest ++ ".lua") = rest := by
  have hsuffix : ".lua".toList.isSuffixOf (rest ++ ".lua").toList = true := by
    rw [List.isSuffixOf_iff_suffix, String.toList_append]
    exact List.suffix_append _ _
  have hlength : (rest ++ ".lua").toList.length - 4 = rest.toList.length := by
    rw [String.toList_append, List.length_append]
    exact Nat.add_sub_cancel _ 4
  unfold stem
  dsimp only
  rw [if_pos hsuffix, hlength, String.toList_append, List.take_left, String.ofList_toList]

theorem stem_bare {name : String} (h : ¬ ".lua".toList <:+ name.toList) : stem name = name := by
  rw [← List.isSuffixOf_iff_suffix] at h
  exact if_neg h

theorem exists_of_suffix {name : String} (h : ".lua".toList <:+ name.toList) :
    ∃ rest, name = rest ++ ".lua" := by
  obtain ⟨front, hfront⟩ := h
  refine ⟨String.ofList front, ?_⟩
  rw [← String.toList_inj, String.toList_append, String.toList_ofList, hfront]

theorem stem_iff (name rest : String) : Stem name rest ↔ stem name = rest := by
  constructor
  · intro h
    cases h with
    | script => exact stem_script rest
    | bare h => exact stem_bare h
  · rintro rfl
    by_cases hsuffix : ".lua".toList <:+ name.toList
    · obtain ⟨rest, rfl⟩ := exists_of_suffix hsuffix
      rw [stem_script]
      exact .script rest
    · rw [stem_bare hsuffix]
      exact .bare hsuffix

theorem existsUnique_stem (name : String) : ∃! rest, Stem name rest :=
  ⟨stem name, (stem_iff name _).mpr rfl, fun rest h => ((stem_iff name rest).mp h).symm⟩

theorem overlay_eq_iff (a b language : String) :
    overlay a language = overlay b language ↔ ∃ rest, Stem a rest ∧ Stem b rest := by
  have hstem : overlay a language = overlay b language ↔ stem a = stem b := by
    unfold overlay
    rw [String.append_left_inj, String.append_left_inj, String.append_left_inj,
      String.append_right_inj]
  simp only [hstem, stem_iff]
  constructor
  · intro h
    exact ⟨stem b, h, rfl⟩
  · rintro ⟨rest, ha, hb⟩
    exact ha.trans hb.symm

end ModuleName

namespace Loading

open Lua (Evaluator Site)
open ModuleName (Stem normalize overlay)

/-- In each language the translations of two modules have one name just if the normal forms of the
modules' names leave the same when a final `.lua` is taken off. A module that the library knows is
opened with the name of translations that its own name stands for, and whether it is required or run
with its translations, these are asked for before its source is compiled and run. -/
theorem overlay_names_tell_modules_apart :
    (∀ name, ∃! rest, Stem name rest) ∧
    (∀ language a b, overlay (normalize a) language = overlay (normalize b) language ↔
      ∃ rest, Stem (normalize a) rest ∧ Stem (normalize b) rest) ∧
    ∀ (w : World) (name : String) (source : Source),
      w.library.source? (normalize name) = some source →
      ∃ found : OpenModule,
        (∀ ε : Type, (findModule name : Act ε (Option OpenModule)) w =
          .done (some found) { w with streams := w.streams.open_ }) ∧
        found.source = source ∧ found.overlay = overlayName w name ∧
        (w.loadOverlay found.overlay).catalog.requested =
          w.catalog.requested ++ [found.overlay] ∧
        ∀ (run : Evaluator) (env : EnvironmentId) (site : Site),
          (requireModule run env site name w).moment =
            (runSource run env site name source (w.loadOverlay found.overlay).streamed).moment ∧
          (runLocalized run env site name w).moment =
            (runSource run env site name source (w.loadOverlay found.overlay).streamed).moment := by
  refine ⟨ModuleName.existsUnique_stem, fun language a b => ModuleName.overlay_eq_iff _ _ _, ?_⟩
  intro w name source hname
  refine ⟨_, fun ε => find_module_known hname, rfl, rfl, Catalog.requested_load _ _, ?_⟩
  intro run env site
  exact ⟨Loader.moment_of_known run env site name w hname .required,
    Loader.moment_of_known run env site name w hname .localized⟩

/-- A module whose name has the ending inside as well, opened by another spelling. -/
theorem overlay_of_other_spelling :
    let w := World.new Config.default (.ofList [("a.lua/b.lua.lua", .bytes ⟨"return 1"⟩)])
    let name := ".\\a.lua\\b.lua.lua "
    w.library.source? (normalize name) = some (.bytes ⟨"return 1"⟩) ∧
      ∃ found, (findModule name : Act Empty (Option OpenModule)) w =
          .done (some found) { w with streams := w.streams.open_ } ∧
        found.overlay = "locale/a.lua/b.lua.en.po" := by
  intro w name
  have hname : w.library.source? (normalize name) = some (.bytes ⟨"return 1"⟩) := by
    decide
  have hoverlay : overlayName w name = "locale/a.lua/b.lua.en.po" := by
    decide
  obtain ⟨found, hfound, -, hasked, -, -⟩ := overlay_names_tell_modules_apart.2.2 w name _ hname
  exact ⟨hname, found, hfound Empty, hasked.trans hoverlay⟩

end Loading

end ScenarioHost
