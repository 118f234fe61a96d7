import Mathlib
import ScenarioHost.Program
import ScenarioHost.Proofs.Classes
import ScenarioHost.Proofs.ScenarioCalls
import ScenarioHost.Proofs.StubLines

/-!
Files for editors. The stub file and the settings file are made from one list: the documented names
that an environment has functions for. The settings file names them in order; the stub file is the
same for all environments, and there is none for an environment that lacks one of the names.
-/
namespace ScenarioHost

open Lua (Evaluator Value)

def World.HasFunction (w : World) (env : EnvironmentId) (name : String) : Prop :=
  ∃ f, w.global env (Conversion.ofText name) = .function f

/-- The bytes of a name are its characters. -/
theorem Reference.IsWord.ofText_eq {name : String} (h : IsWord name) :
    ByteString.ofText name = ⟨name⟩ := by
  unfold ByteString.ofText
  refine if_pos (List.all_eq_true.mpr fun c hc => decide_eq_true ?_)
  have hcodes := word_codes (List.all_eq_true.mp h c hc)
  omega

/-- What the host provides under a documented name is a function. -/
theorem World.Provides.hasFunction {w : World} {env : EnvironmentId} {name : String}
    (h : w.Provides env name) (hname : name ∈ Reference.names) : w.HasFunction env name := by
  obtain ⟨provided, -, hbinds⟩ := h
  obtain ⟨f, hf, -⟩ := Lua.Heap.function_of_builtin hbinds
  refine ⟨f, ?_⟩
  unfold World.global Conversion.ofText
  rw [(Reference.word_of_name name hname).ofText_eq]
  exact hf

namespace EditorSettings

/-! The text of settings. -/

def field (key value : String) : String := "  \"" ++ key ++ "\": " ++ value

def globalsText (globals : List String) : String :=
  if globals.isEmpty then "[]"
  else
    "[\n" ++ String.intercalate ",\n" (globals.map fun name => "    \"" ++ name ++ "\"") ++ "\n  ]"

def settingsText (globals : List String) (stubs : String) : String :=
  "\x7b\n" ++ String.intercalate ",\n"
    [field "$schema"
        "\"https://raw.githubusercontent.com/LuaLS/vscode-lua/master/setting/schema.json\"",
      field "completion.autoRequire" "false",
      field "diagnostics.globals" (globalsText globals),
      field "runtime.version" "\"LuaJIT\"",
      field "workspace.library" ("[\n    " ++ Json.quoted stubs ++ "\n  ]")]
    ++ "\n\x7d"

theorem quoted_plain {s : String} (h : s.toList.flatMap Json.escaped = s.toList) :
    Json.quoted s = "\"" ++ s ++ "\"" := by
  unfold Json.quoted
  rw [h, String.ofList_toList]

/-- A text in which nothing has to be escaped. -/
theorem quoted_literal {cs : List Char} (h : cs.flatMap Json.escaped = cs) :
    Json.quoted (String.ofList cs) = "\"" ++ String.ofList cs ++ "\"" := by
  refine quoted_plain ?_
  rwa [String.toList_ofList]

/-- No character of a name is escaped. -/
theorem escaped_word {c : Char} (h : (c.isAlpha || c == '_') = true) : Json.escaped c = [c] := by
  have hcodes := Reference.word_codes h
  have hother (d : Char) (hd : (d.isAlpha || d == '_') = false) : c ≠ d := by
    rintro rfl
    rw [h] at hd
    cases hd
  unfold Json.escaped
  split
  · exact absurd rfl (hother '"' rfl)
  · exact absurd rfl (hother '\\' rfl)
  · exact absurd rfl (hother '\n' rfl)
  · exact absurd rfl (hother '\r' rfl)
  · exact absurd rfl (hother '\t' rfl)
  · rw [if_neg (by omega), if_neg (by omega), if_neg (by omega)]

theorem quoted_word {name : String} (h : Reference.IsWord name) :
    Json.quoted name = "\"" ++ name ++ "\"" := by
  refine quoted_plain ?_
  have hescaped : ∀ c ∈ name.toList, Json.escaped c = [c] :=
    fun c hc => escaped_word (List.all_eq_true.mp h c hc)
  rw [List.flatMap_congr hescaped, List.flatMap_singleton']

/-- Items in brackets stand on lines of their own. -/
theorem bracketed_cons (opening closing : String) (depth : ℕ) (item : String)
    (items : List String) : Json.bracketed opening closing depth (item :: items) =
      opening ++ "\n"
        ++ String.intercalate ",\n" ((item :: items).map (Json.margin (depth + 1) ++ ·))
        ++ "\n" ++ Json.margin depth ++ closing := if_neg Bool.false_ne_true

theorem bracketed_values (item : String) (items : List String) :
    Json.bracketed "[" "]" 1 (item :: items) =
      "[\n" ++ String.intercalate ",\n" ((item :: items).map ("    " ++ ·)) ++ "\n  ]" := by
  have hinner : Json.margin (1 + 1) = "    " := by decide
  have houter : Json.margin 1 = "  " := by decide
  have hend (s : String) : s ++ "\n" ++ "  " ++ "]" = s ++ "\n  ]" := by
    rw [String.append_assoc, String.append_assoc]
    rfl
  rw [bracketed_cons, hinner, houter, hend]
  rfl

theorem render_strings {names : List String} (h : ∀ name ∈ names, Reference.IsWord name) :
    Json.render 1 (Json.strings names) = globalsText names := by
  have hitems : Json.renderItems 2 (names.map .string) =
      names.map fun name => "\"" ++ name ++ "\"" := by
    induction names with
    | nil => rfl
    | cons name names ih =>
      rw [List.forall_mem_cons] at h
      rw [List.map_cons, Json.renderItems, ih h.2, Json.render, quoted_word h.1, List.map_cons]
  have hname (name : String) : "    " ++ ("\"" ++ name ++ "\"") = "    \"" ++ name ++ "\"" := by
    rw [← String.append_assoc, ← String.append_assoc]
    rfl
  unfold Json.strings
  rw [Json.render, hitems]
  cases names with
  | nil => rfl
  | cons name names =>
    rw [List.map_cons, bracketed_values, List.map_cons, List.map_map]
    simp only [Function.comp_def, hname]
    rfl

theorem render_library (stubs : String) :
    Json.render 1 (Json.strings [stubs]) = "[\n    " ++ Json.quoted stubs ++ "\n  ]" := by
  have hitem : Json.renderItems 2 [Json.string stubs] = [Json.quoted stubs] := by
    simp only [Json.renderItems, Json.render]
  change Json.bracketed "[" "]" 1 (Json.renderItems 2 [Json.string stubs]) = _
  rw [hitem, bracketed_values, List.map_singleton, String.intercalate_singleton,
    ← String.append_assoc]
  rfl

theorem margin_field {key quoted : String} (hquoted : quoted = "\"" ++ key ++ "\"")
    (value : String) : Json.margin 1 ++ (quoted ++ ": " ++ value) = field key value := by
  have hmargin : Json.margin 1 = "  " := by decide
  have hcolon (s : String) : s ++ "\"" ++ ": " = s ++ "\": " := by
    rw [String.append_assoc]
    rfl
  unfold field
  rw [hmargin, hquoted, hcolon]
  simp only [← String.append_assoc]
  rfl

/-- The settings file is the text of its globals in order. -/
theorem text_eq {bound : List String} (h : ∀ name ∈ bound, Reference.IsWord name) (stubs : String) :
    text bound stubs = settingsText (sorted bound) stubs := by
  have hsorted : ∀ name ∈ sorted bound, Reference.IsWord name :=
    fun name hname => h name (List.mem_mergeSort.mp hname)
  have hend (s : String) : s ++ "\n" ++ Json.margin 0 ++ "\x7d" = s ++ "\n\x7d" := by
    rw [String.append_assoc, String.append_assoc]
    rfl
  have hschema : Json.quoted "$schema" = "\"" ++ "$schema" ++ "\"" := quoted_literal rfl
  have hrequire : Json.quoted "completion.autoRequire" = "\"" ++ "completion.autoRequire" ++ "\"" :=
    quoted_literal rfl
  have hglobals : Json.quoted "diagnostics.globals" = "\"" ++ "diagnostics.globals" ++ "\"" :=
    quoted_literal rfl
  have hversion : Json.quoted "runtime.version" = "\"" ++ "runtime.version" ++ "\"" :=
    quoted_literal rfl
  have hlibrary : Json.quoted "workspace.library" = "\"" ++ "workspace.library" ++ "\"" :=
    quoted_literal rfl
  unfold text document Json.pretty settingsText
  rw [Json.render]
  simp only [Json.renderFields, zero_add, Json.render, bracketed_cons, render_strings hsorted,
    render_library, List.map_cons, List.map_nil, hend, margin_field hschema, margin_field hrequire,
    margin_field hglobals, margin_field hversion, margin_field hlibrary]
  rw [quoted_literal rfl, quoted_literal rfl]
  rfl

/-! The order of names. -/

/-- Names come in the order of their bytes, none of them twice. -/
theorem sorted_increasing {bound : List String} (h : ∀ name ∈ bound, Reference.IsWord name)
    (hnodup : bound.Nodup) : (sorted bound).Pairwise fun a b =>
      (ByteString.ofText a).less (ByteString.ofText b) = true := by
  have hbytes : ∀ name ∈ sorted bound, ByteString.ofText name = ⟨name⟩ :=
    fun name hname => (h name (List.mem_mergeSort.mp hname)).ofText_eq
  have hordered : (sorted bound).Pairwise fun a b => decide (a ≤ b) = true := by
    refine List.pairwise_mergeSort ?_ ?_ bound
    · intro a b c hab hbc
      exact decide_eq_true ((of_decide_eq_true hab).trans (of_decide_eq_true hbc))
    · intro a b
      rw [Bool.or_eq_true, decide_eq_true_eq, decide_eq_true_eq]
      exact le_total a b
  have hdistinct : (sorted bound).Nodup := (List.mergeSort_perm bound _).nodup_iff.mpr hnodup
  -- names are ordered as texts, which is the order of their bytes since they are ASCII
  refine (hordered.and hdistinct).imp_of_mem ?_
  rintro a b ha hb ⟨hle, hne⟩
  rw [hbytes a ha, hbytes b hb]
  exact decide_eq_true (lt_of_le_of_ne (of_decide_eq_true hle) hne)

end EditorSettings

/-- The stub file is there when no name is missing, in whatever order the names come. -/
theorem Stubs.generate_eq {bound globals : List String}
    (h : ∀ name, name ∈ globals ↔ name ∈ bound) : Stubs.generate bound =
      if ∀ name ∈ Reference.names, name ∈ globals then .ok text
      else .error ("Documented functions are not registered: " ++
        String.intercalate ", " (Reference.names.filter fun name => name ∉ globals)) := by
  have hmissing : Reference.names.filter (fun name => name ∉ globals) = missing bound := by
    refine List.filter_congr fun name _ => ?_
    rw [decide_not, decide_eq_decide.mpr (h name), List.contains_eq_mem]
  have hnone : (∀ name ∈ Reference.names, name ∈ globals) ↔ missing bound = [] := by
    rw [← hmissing, List.filter_eq_nil_iff]
    simp only [decide_eq_true_eq, not_not]
  rw [hmissing]
  unfold generate
  cases hcase : missing bound with
  | nil => rw [if_pos (hnone.mpr hcase)]
  | cons name names =>
    rw [if_neg fun hall => List.cons_ne_nil name names (hcase.symm.trans (hnone.mp hall))]

namespace Headless

section Definitions

variable (run : Evaluator) (env : EnvironmentId) (ε : Type)

def stubFile : Act ε (Except String String) := do
  let bound ← boundNames run env Reference.names
  return Stubs.generate bound

def settingsFile (stubs : String) : Act ε String := do
  let bound ← boundNames run env Reference.names
  return EditorSettings.text bound stubs

/-- Names are looked up one after another. A handler of a script may take part, and the next name is
looked up in the world that it leaves. -/
inductive Asked : World → List (String × Bool) → World → Prop where
  | nil (w : World) : Asked w [] w
  | cons {w w₁ w₂ : World} {name : String} {bound : Bool} {rest : List (String × Bool)} :
      (Boundary.hasFunction run env .outside name : Act ε Bool) w = .done bound w₁ →
      Asked w₁ rest w₂ → Asked w ((name, bound) :: rest) w₂

/-- What both generators make of the names that are functions. -/
structure Generates (w w' : World) (globals : List String) : Prop where
  increasing : globals.Pairwise fun a b =>
    (ByteString.ofText a).less (ByteString.ofText b) = true
  settings (stubs : String) : settingsFile run env ε stubs w =
    .done (EditorSettings.settingsText globals stubs) w'
  stubs : stubFile run env ε w =
    .done (if ∀ name ∈ Reference.names, name ∈ globals then .ok Stubs.text
      else .error ("Documented functions are not registered: " ++
        String.intercalate ", " (Reference.names.filter fun name => name ∉ globals))) w'

end Definitions

section Generators

variable {run : Evaluator} {env : EnvironmentId} {ε : Type} {w w' : World}

def confirmed (answers : List (String × Bool)) : List String :=
  (answers.filter fun a => a.2).map Prod.fst

theorem mem_confirmed {answers : List (String × Bool)} {name : String} :
    name ∈ confirmed answers ↔ (name, true) ∈ answers := by
  simp [confirmed]

theorem mem_sorted_confirmed {answers : List (String × Bool)} {name : String} :
    name ∈ EditorSettings.sorted (confirmed answers) ↔ (name, true) ∈ answers :=
  List.mem_mergeSort.trans mem_confirmed

theorem boundNames_asked {answers : List (String × Bool)} (h : Asked run env ε w answers w') :
    (boundNames run env (answers.map Prod.fst) : Act ε (List String)) w =
      .done (confirmed answers) w' := by
  induction h with
  | nil => rfl
  | @cons w w₁ w₂ name bound rest hasked _ ih =>
    rw [List.map_cons, boundNames, Act.bind_apply, hasked]
    dsimp only
    rw [Act.bind_apply, ih]
    cases bound with
    | _ => rfl

/-- Either all names are looked up, or one look does not come to its end. -/
theorem asked_or_starved (names : List String) (w : World) :
    (∃ answers w', answers.map Prod.fst = names ∧ Asked run env ε w answers w') ∨
      ∃ w', (boundNames run env names : Act ε (List String)) w = @Outcome.starved _ _ w' := by
  -- on the names that are left, from whatever world the looks before have led to
  induction names generalizing w with
  | nil => exact Or.inl ⟨[], w, rfl, .nil w⟩
  | cons name names ih =>
    cases hasked : (Boundary.hasFunction run env .outside name : Act ε Bool) w with
    | done bound w₁ =>
      obtain ⟨answers, w₂, hnames, hanswers⟩ | ⟨w₂, hstarved⟩ := ih w₁
      · refine Or.inl ⟨(name, bound) :: answers, w₂, ?_, .cons hasked hanswers⟩
        rw [List.map_cons, hnames]
      · refine Or.inr ⟨w₂, ?_⟩
        rw [boundNames, Act.bind_apply, hasked]
        dsimp only
        rw [Act.bind_apply, hstarved]
    | raised e w₁ =>
      have hplan : (Boundary.hasFunction run env .outside name : Act ε Bool) w ≠ .raised e w₁ :=
        look_not_raised (p := ⟨env, "", 0, Single.zero⟩) name w e w₁
      exact absurd hasked hplan
    | @starved w₁ =>
      refine Or.inr ⟨w₁, ?_⟩
      rw [boundNames, Act.bind_apply, hasked]

/-- The answers decide what both files are. -/
theorem Asked.generates {answers : List (String × Bool)} (h : Asked run env ε w answers w')
    (hnames : answers.map Prod.fst = Reference.names) :
    Generates run env ε w w' (EditorSettings.sorted (confirmed answers)) := by
  -- answers come in the order of the table, and so do the names that are left of it
  have hsub : (confirmed answers).Sublist Reference.names := by
    rw [← hnames]
    exact List.filter_sublist.map Prod.fst
  have hwords : ∀ name ∈ confirmed answers, Reference.IsWord name :=
    fun name hname => Reference.word_of_name name (hsub.subset hname)
  have hmem (name : String) :
      name ∈ EditorSettings.sorted (confirmed answers) ↔ name ∈ confirmed answers :=
    List.mem_mergeSort
  have hbound := boundNames_asked h
  rw [hnames] at hbound
  constructor
  case increasing =>
    exact EditorSettings.sorted_increasing hwords (hsub.nodup Reference.names_distinct)
  case settings =>
    intro stubs
    rw [settingsFile, Act.bind_apply, hbound, ← EditorSettings.text_eq hwords]
    rfl
  case stubs =>
    rw [stubFile, Act.bind_apply, hbound, ← Stubs.generate_eq hmem]
    rfl

/-- A look at a global comes to no handler: the global has a value, or there is no handler for what
the table of globals lacks. -/
def Direct (env : EnvironmentId) (w : World) (name : String) : Prop :=
  w.global env (Conversion.ofText name) = .nil →
    (w.heap env).handler (.table (w.environment env).globals) "__index" = .nil

variable (run ε) in
/-- A look at a global for which no handler is asked leaves the world as it is. -/
theorem has_function_direct {name : String} (h : Direct env w name) :
    ∃ bound : Bool, (bound = true ↔ w.HasFunction env name) ∧
      (Boundary.hasFunction run env .outside name : Act ε Bool) w = .done bound w := by
  have hget : Boundary.getGlobal run env .outside name w =
      .done (w.global env (Conversion.ofText name)) w := by
    have hindex : Lua.index run ⟨env, .outside, none⟩ 100 none
        (.table (w.environment env).globals) (Conversion.ofText name) w =
          .done (w.global env (Conversion.ofText name)) w := Lua.index_plain 99 none h
    unfold Boundary.getGlobal Boundary.getField Boundary.fromHost
    rw [Act.bind_apply]
    dsimp only [Boundary.globals, Act.read]
    rw [Act.bind_apply, Act.attempt_apply, Lua.chainLimit, hindex]
    rfl
  unfold Boundary.hasFunction
  rw [Act.bind_apply, Act.attempt_apply, hget]
  unfold World.HasFunction
  cases w.global env (Conversion.ofText name) with
  | function f => exact ⟨true, ⟨fun _ => ⟨f, rfl⟩, fun _ => rfl⟩, rfl⟩
  | _ =>
    refine ⟨false, ⟨fun h => absurd h Bool.false_ne_true, ?_⟩, rfl⟩
    rintro ⟨f, h⟩
    cases h

variable (run ε) in
/-- Looks that come to no handler find what the world holds. -/
theorem asked_direct {names : List String} (h : ∀ name ∈ names, Direct env w name) :
    ∃ answers, answers.map Prod.fst = names ∧ Asked run env ε w answers w ∧
      ∀ name, (name, true) ∈ answers ↔ name ∈ names ∧ w.HasFunction env name := by
  induction names with
  | nil =>
    refine ⟨[], rfl, .nil w, fun name => ?_⟩
    simp only [List.not_mem_nil, false_and]
  | cons name names ih =>
    rw [List.forall_mem_cons] at h
    obtain ⟨bound, hbound, hlook⟩ := has_function_direct run ε h.1
    obtain ⟨answers, hnames, hasked, hmem⟩ := ih h.2
    refine ⟨(name, bound) :: answers, by rw [List.map_cons, hnames], .cons hlook hasked, ?_⟩
    intro other
    rw [List.mem_cons, List.mem_cons, hmem, or_and_right, Prod.mk.injEq]
    refine or_congr_left (and_congr_right fun hother => ?_)
    rw [hother, eq_comm]
    exact hbound

end Generators

/-- A new environment has all the names. -/
theorem generates_new (run : Evaluator) (ε : Type) (w : World) :
    ∃ globals, (∀ name, name ∈ globals ↔ name ∈ Reference.names) ∧
      Generates run w.nextEnvironment ε w.extended w.extended globals := by
  have hfunction : ∀ name ∈ Reference.names, w.extended.HasFunction w.nextEnvironment name :=
    fun name hname => (w.provides_extended hname).hasFunction hname
  have hdirect : ∀ name ∈ Reference.names, Direct w.nextEnvironment w.extended name := by
    intro name hname hnil
    obtain ⟨f, hf⟩ := hfunction name hname
    rw [hf] at hnil
    cases hnil
  obtain ⟨answers, hnames, hasked, hmem⟩ := asked_direct run ε hdirect
  refine ⟨_, fun name => ?_, hasked.generates hnames⟩
  rw [mem_sorted_confirmed, hmem]
  exact and_iff_left_of_imp (hfunction name)

/-- Both files for an environment come from the same names. What the world holds decides them, or
else what handlers answer; if an answer never comes, there is neither file. A new environment has all
names, and so a stub file, which has one stub of every documented function. -/
theorem generators_agree (run : Evaluator) (env : EnvironmentId) (ε : Type) (w : World) :
    ((∀ name ∈ Reference.names, Direct env w name) →
      ∃ globals, (∀ name, name ∈ globals ↔ name ∈ Reference.names ∧ w.HasFunction env name) ∧
        Generates run env ε w w globals) ∧
    (∀ answers w', answers.map Prod.fst = Reference.names → Asked run env ε w answers w' →
      ∃ globals, (∀ name, name ∈ globals ↔ (name, true) ∈ answers) ∧
        Generates run env ε w w' globals) ∧
    ((¬ ∃ answers w', answers.map Prod.fst = Reference.names ∧ Asked run env ε w answers w') →
      ∃ w', (∀ stubs, settingsFile run env ε stubs w = @Outcome.starved _ _ w') ∧
        stubFile run env ε w = @Outcome.starved _ _ w') ∧
    (∃ globals, (∀ name, name ∈ globals ↔ name ∈ Reference.names) ∧
      Generates run w.nextEnvironment ε w.extended w.extended globals) ∧
    ∀ name ∈ Reference.names, Stubs.stubCount name (splitChars '\n' Stubs.text.toList) = 1 := by
  refine ⟨?_, ?_, ?_, generates_new run ε w, ?_⟩
  · intro hdirect
    obtain ⟨answers, hnames, hasked, hmem⟩ := asked_direct run ε hdirect
    refine ⟨_, fun name => ?_, hasked.generates hnames⟩
    rw [mem_sorted_confirmed, hmem]
  · intro answers w' hnames hasked
    exact ⟨_, fun name => mem_sorted_confirmed, hasked.generates hnames⟩
  · intro hnone
    obtain ⟨answers, w', hasked⟩ | ⟨w', hstarved⟩ := asked_or_starved Reference.names w
    · exact absurd ⟨answers, w', hasked⟩ hnone
    · refine ⟨w', fun stubs => ?_, ?_⟩
      · rw [settingsFile, Act.bind_apply, hstarved]
      · rw [stubFile, Act.bind_apply, hstarved]
  · intro name hname
    exact Stubs.stub_count_text hname

end Headless

end ScenarioHost
