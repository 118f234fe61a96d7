import Mathlib.Tactic
import ScenarioHost.ConfigFile
import ScenarioHost.Proofs.Files
import ScenarioHost.Proofs.Numerals
import ScenarioHost.Proofs.SettingsFiles

/-!
Settings that survive being saved and loaded: exactly those whose texts a reader does not take
apart, in whatever order the sections and keys are written. Nothing is escaped in a file, so
whatever is loaded over the settings that a host begins with has such texts, and other settings
come back changed.
-/
namespace ScenarioHost

open Ini (Clear Rearranged Word Writable)

/-! Texts of numbers. -/

def Solid (cs : List Char) : Prop :=
  ∀ c ∈ cs, isBlank c = false ∧ Ini.isCommentMark c = false ∧ c ≠ '\n'

instance (cs : List Char) : Decidable (Solid cs) :=
  List.decidableBAll (fun c => isBlank c = false ∧ Ini.isCommentMark c = false ∧ c ≠ '\n') cs

theorem Solid.clear {cs : List Char} (h : Solid cs) : Clear cs := fun c hc => (h c hc).2

theorem Solid.unpadded {cs : List Char} (h : Solid cs) : Unpadded cs :=
  ⟨fun c hc => (h c (List.mem_of_head? hc)).1, fun c hc => (h c (List.mem_of_getLast? hc)).1⟩

theorem solid_append {cs ds : List Char} (hc : Solid cs) (hd : Solid ds) : Solid (cs ++ ds) := by
  intro c h
  exact (List.mem_append.mp h).elim (hc c) (hd c)

theorem solid_digits {cs : List Char} (h : ∀ c ∈ cs, isDigit c = true) : Solid cs := by
  intro c hc
  have hbounds := (is_digit_iff c).mp (h c hc)
  have hother (d : Char) (hd : d.toNat < 48 ∨ 57 < d.toNat) : c ≠ d := by
    rintro rfl
    omega
  refine ⟨?_, ?_, hother '\n' (by decide)⟩
  · simp only [isBlank, Bool.or_eq_false_iff, Bool.and_eq_false_iff, decide_eq_false_iff_not,
      beq_eq_false_iff_ne]
    omega
  · simp only [Ini.isCommentMark, hother ';' (by decide), hother '#' (by decide), decide_false,
      Bool.or_false]

theorem solid_nat (n : Nat) : Solid (toString n).toList := by
  rw [toList_toString_nat]
  exact solid_digits fun c hc => is_digit_of_mem_toDigits hc

theorem solid_zeros (n : Nat) : Solid (Layout.zeros n).toList := by
  rw [Layout.zeros, String.toList_ofList]
  apply solid_digits
  intro c hc
  rw [List.eq_of_mem_replicate hc]
  decide

theorem Solid.subset {cs ds : List Char} (h : Solid cs) (hsub : ds ⊆ cs) : Solid ds :=
  fun c hc => h c (hsub hc)

theorem solid_positional (d : Decimal) : Solid (Layout.positional d).toList := by
  have hdigits := solid_nat d.digits
  unfold Layout.positional
  dsimp only
  generalize toString d.digits = text at hdigits
  -- the digits stand before zeros, after them, or on both sides of the point
  split
  · rw [String.toList_append]
    refine solid_append hdigits ?_
    split
    · decide
    · exact solid_zeros _
  · split
    · rw [String.toList_append, String.toList_append]
      exact solid_append (solid_append (by decide) (solid_zeros _)) hdigits
    · simp only [String.toList_append, String.toList_ofList]
      have hwhole (n : Nat) : Solid (text.toList.take n) := hdigits.subset (List.take_subset n _)
      have hplaces (n : Nat) : Solid (text.toList.drop n) := hdigits.subset (List.drop_subset n _)
      exact solid_append (solid_append (hwhole _) (by decide)) (hplaces _)

theorem solid_plain (x : Single) : Solid x.toPlain.toList := by
  have hminus (negative : Bool) : Solid (Layout.minus negative).toList := by
    cases negative <;> decide
  unfold Single.toPlain
  cases x.reading with
  | nan => decide
  | infinite negative =>
    rw [PlainText.render, String.toList_append]
    exact solid_append (hminus negative) (by decide)
  | finite negative m q =>
    rw [PlainText.render, String.toList_append]
    exact solid_append (hminus negative) (solid_positional _)

namespace Config

/-! Which settings can be stored. -/

structure Plain (marks : List Char) (s : String) : Prop where
  nonempty : s.toList ≠ []
  unpadded : Unpadded s.toList
  free : ∀ c ∈ s.toList, c ∉ marks

def lineMarks : List Char := [';', '#', '\n']

def itemMarks : List Char := [',', ';', '#', '\n']

structure Storable (c : Config) : Prop where
  language : Plain lineMarks c.language
  hasDirs : c.scriptDirs ≠ []
  scriptDirs : ∀ dir ∈ c.scriptDirs, Plain itemMarks dir
  bootstrap : ∀ name ∈ c.bootstrap, Plain itemMarks name

/-- Settings that agree in all that is written to a file except the timeout. -/
structure SameSettings (c d : Config) : Prop where
  language : c.language = d.language
  scriptDirs : c.scriptDirs = d.scriptDirs
  bootstrap : c.bootstrap = d.bootstrap
  consoleCapacity : c.consoleCapacity = d.consoleCapacity

theorem Storable.same {c d : Config} (h : SameSettings c d) (hc : Storable c) : Storable d :=
  ⟨h.language ▸ hc.language, h.scriptDirs ▸ hc.hasDirs, h.scriptDirs ▸ hc.scriptDirs,
    h.bootstrap ▸ hc.bootstrap⟩

theorem clear_iff {cs : List Char} : Clear cs ↔ ∀ c ∈ cs, c ∉ lineMarks := by
  unfold Clear lineMarks
  refine forall₂_congr fun c _ => ?_
  simp only [Ini.isCommentMark, Bool.or_eq_false_iff, decide_eq_false_iff_not, List.mem_cons,
    List.not_mem_nil, or_false, not_or, ne_eq, and_assoc]

theorem free_of_item {c : Char} (h : c ∉ itemMarks) : c ∉ lineMarks ∧ c ≠ ',' := by
  unfold itemMarks at h
  rw [List.mem_cons, not_or] at h
  exact ⟨h.2, h.1⟩

theorem plain_language {s : String} (h : Solid s.toList) (hne : s.toList ≠ []) : Plain lineMarks s :=
  ⟨hne, h.unpadded, clear_iff.mp h.clear⟩

theorem plain_item {s : String} (h : Solid s.toList) (hne : s.toList ≠ []) (hcomma : ',' ∉ s.toList) :
    Plain itemMarks s := by
  refine ⟨hne, h.unpadded, ?_⟩
  intro c hc
  rw [itemMarks, List.mem_cons, not_or]
  exact ⟨fun heq => hcomma (heq ▸ hc), clear_iff.mp h.clear c hc⟩

theorem default_storable : Storable default := by
  refine ⟨plain_language (by decide) (by decide), by decide, ?_, ?_⟩
  · intro dir hmem
    rw [List.mem_singleton.mp hmem]
    exact plain_item (by decide) (by decide) (by decide)
  · intro name hmem
    cases hmem

/-! Saved settings are read back. -/

theorem clear_joined {items : List String} (h : ∀ item ∈ items, Plain itemMarks item) :
    Clear (joined ", " items).toList := by
  have hseparator : Clear ", ".toList := by
    intro c hc
    rw [show ", ".toList = [',', ' '] from rfl, List.mem_cons, List.mem_singleton] at hc
    obtain rfl | rfl := hc <;> decide
  intro c hc
  rw [toList_joined] at hc
  obtain hc | ⟨item, hitem, hc⟩ := mem_of_mem_intercalate hc
  · exact hseparator c hc
  · obtain ⟨s, hs, rfl⟩ := List.mem_map.mp hitem
    exact clear_iff.mpr (fun d hd => (free_of_item ((h s hs).free d hd)).1) c hc

theorem unpadded_joined {items : List String} (h : ∀ item ∈ items, Plain itemMarks item) :
    Unpadded (joined ", " items).toList := by
  rw [toList_joined]
  apply unpadded_intercalate
  intro item hitem
  obtain ⟨s, hs, rfl⟩ := List.mem_map.mp hitem
  exact ⟨(h s hs).nonempty, (h s hs).unpadded⟩

theorem splitList_joined {items : List String} (h : ∀ item ∈ items, Plain itemMarks item) :
    splitList (joined ", " items) = items := by
  cases items with
  | nil => rfl
  | cons first rest =>
    have hitems : ∀ item ∈ (first :: rest).map String.toList, Unpadded item ∧ ',' ∉ item := by
      intro item hitem
      obtain ⟨s, hs, rfl⟩ := List.mem_map.mp hitem
      exact ⟨(h s hs).unpadded, fun hc => (free_of_item ((h s hs).free _ hc)).2 rfl⟩
    have hkept : ∀ item ∈ (first :: rest).map String.toList, (!item.isEmpty) = true := by
      intro item hitem
      obtain ⟨s, hs, rfl⟩ := List.mem_map.mp hitem
      rw [List.isEmpty_eq_false_iff.mpr (h s hs).nonempty]
      rfl
    have hparts : (splitChars ',' ([',', ' '].intercalate ((first :: rest).map String.toList))).map
        trimChars = (first :: rest).map String.toList := split_joined (List.cons_ne_nil _ _) hitems
    unfold splitList
    rw [toList_joined, show ", ".toList = [',', ' '] from rfl, hparts,
      List.filter_eq_self.mpr hkept, List.map_map]
    exact (List.map_congr_left fun s _ => String.ofList_toList).trans (List.map_id _)

theorem sections_writable {c : Config} (h : Storable c) : ∀ s ∈ c.sections, Writable s := by
  have hlanguage : Clear c.language.toList := clear_iff.mpr h.language.free
  have hcapacity := solid_nat c.consoleCapacity
  have htimeout := solid_plain c.messageTimeout
  have hscripting : Writable ("scripting", [("language", c.language),
      ("script_dirs", joined ", " c.scriptDirs), ("bootstrap", joined ", " c.bootstrap)]) := by
    have hkeys : Word "language" ∧ Word "script_dirs" ∧ Word "bootstrap" := by decide
    have hname : Word "scripting" := by decide
    refine ⟨hname, ?_, ?_, ?_⟩ <;>
      rw [List.forall_mem_cons, List.forall_mem_cons, List.forall_mem_singleton]
    · exact hkeys
    · exact ⟨hlanguage, clear_joined h.scriptDirs, clear_joined h.bootstrap⟩
    · exact ⟨h.language.unpadded, unpadded_joined h.scriptDirs, unpadded_joined h.bootstrap⟩
  have hnumber (name key value : String) (hname : Word name) (hkey : Word key)
      (hvalue : Solid value.toList) : Writable (name, [(key, value)]) := by
    refine ⟨hname, ?_, ?_, ?_⟩ <;> rw [List.forall_mem_singleton]
    · exact hkey
    · exact hvalue.clear
    · exact hvalue.unpadded
  unfold sections
  rw [List.forall_mem_cons, List.forall_mem_cons, List.forall_mem_singleton]
  exact ⟨hscripting, hnumber _ _ _ (by decide) (by decide) hcapacity,
    hnumber _ _ _ (by decide) (by decide) htimeout⟩

/-- No key is written twice. -/
theorem keys_distinct (c : Config) :
    ((c.sections.flatMap Ini.entries).map fun e => (e.section_, e.key)).Nodup := by
  change [("scripting", "language"), ("scripting", "script_dirs"), ("scripting", "bootstrap"),
    ("console", "capacity"), ("scenario", "global_message_timeout")].Nodup
  decide

/-- Each key has its value, whatever the order in which they were written. -/
theorem values_read_back {c : Config} (h : Storable c) {written : List Ini.Section}
    (hw : Rearranged written c.sections) :
    ∃ ini, Ini.parse (Ini.render written) = .ok ini ∧
      ∀ e ∈ c.sections.flatMap Ini.entries, ini.get? e.section_ e.key = e.value := by
  have horder := Ini.entries_rearranged hw
  -- no key is written twice, so the place of an assignment does not matter
  refine ⟨_, Ini.parse_render (Ini.writable_rearranged hw (sections_writable h)), ?_⟩
  intro e he
  apply Ini.get_of_mem
  · exact (horder.map fun e => (e.section_, e.key)).nodup_iff.mpr c.keys_distinct
  · exact horder.mem_iff.mpr he

theorem capacity_toString {n : Nat} (h : n ≤ 0xFFFFFFFFFFFFFFFF) : capacity? (toString n) = some n := by
  have hread : parseWhole 0 0xFFFFFFFFFFFFFFFF (toString n) = .ok n :=
    parse_whole_toString n 0xFFFFFFFFFFFFFFFF h
  rw [capacity?, hread]
  rfl

theorem someItems_of_ne_nil {value : String} (h : splitList value ≠ []) :
    someItems? value = some (splitList value) := by
  unfold someItems?
  split
  · rename_i hnil
    exact absurd hnil h
  · rfl

theorem trimmed_unpadded {s : String} (h : Unpadded s.toList) : trimmed s = s := by
  rw [trimmed, trim_unpadded h, String.ofList_toList]

theorem override_stored {c d : Config} (h : Storable c)
    (hcapacity : c.consoleCapacity ≤ 0xFFFFFFFFFFFFFFFF) {ini : Ini}
    (hget : ∀ e ∈ c.sections.flatMap Ini.entries, ini.get? e.section_ e.key = e.value) :
    SameSettings (d.override ini) c := by
  have hvalue (section_ key value : String)
      (he : ⟨section_, key, some value⟩ ∈ c.sections.flatMap Ini.entries) :
      ini.get? section_ key = some value := hget ⟨section_, key, some value⟩ he
  have hentries : c.sections.flatMap Ini.entries =
      [⟨"scripting", "language", some c.language⟩,
        ⟨"scripting", "script_dirs", some (joined ", " c.scriptDirs)⟩,
        ⟨"scripting", "bootstrap", some (joined ", " c.bootstrap)⟩,
        ⟨"console", "capacity", some (toString c.consoleCapacity)⟩,
        ⟨"scenario", "global_message_timeout", some c.messageTimeout.toPlain⟩] := rfl
  rw [hentries] at hvalue
  have hlanguage := hvalue "scripting" "language" c.language (by simp)
  have hdirs := hvalue "scripting" "script_dirs" (joined ", " c.scriptDirs) (by simp)
  have hbootstrap := hvalue "scripting" "bootstrap" (joined ", " c.bootstrap) (by simp)
  have hconsole := hvalue "console" "capacity" (toString c.consoleCapacity) (by simp)
  -- lists are joined by a comma, which no item of a storable list has
  have hitems := splitList_joined h.scriptDirs
  have hnames := splitList_joined h.bootstrap
  constructor
  · have hnonempty : c.language.isEmpty = false := by
      rw [Bool.eq_false_iff, ne_eq, String.isEmpty_iff, ← String.toList_eq_nil_iff]
      exact h.language.nonempty
    unfold override
    dsimp only
    rw [hlanguage, Option.map_some, trimmed_unpadded h.language.unpadded]
    dsimp only
    rw [hnonempty, if_neg Bool.false_ne_true]
  · have hsome : someItems? (joined ", " c.scriptDirs) = some c.scriptDirs := by
      rw [someItems_of_ne_nil (by rw [hitems]; exact h.hasDirs), hitems]
    unfold override
    dsimp only
    rw [hdirs, Option.bind_some, hsome, Option.getD_some]
  · unfold override
    dsimp only
    rw [hbootstrap, Option.map_some, hnames, Option.getD_some]
  · unfold override
    dsimp only
    rw [hconsole, Option.bind_some, capacity_toString hcapacity, Option.getD_some]

/-! Whatever is loaded can be stored. -/

theorem plain_of_mem_splitList {value item : String} (hclear : Clear value.toList)
    (h : item ∈ splitList value) : Plain itemMarks item := by
  unfold splitList at h
  obtain ⟨cs, hcs, rfl⟩ := List.mem_map.mp h
  obtain ⟨hpart, hkept⟩ := List.mem_filter.mp hcs
  obtain ⟨part, hmem, rfl⟩ := List.mem_map.mp hpart
  refine ⟨?_, ?_, ?_⟩
  · rw [String.toList_ofList]
    rintro hnil
    rw [hnil] at hkept
    cases hkept
  · rw [String.toList_ofList]
    exact unpadded_trim part
  · intro c hc
    rw [String.toList_ofList] at hc
    obtain ⟨hvalue, hcomma⟩ := mem_of_mem_split hmem (mem_of_mem_trim hc)
    rw [itemMarks, List.mem_cons, not_or]
    exact ⟨hcomma, clear_iff.mp hclear c hvalue⟩

theorem plain_trimmed {value : String} (hclear : Clear value.toList)
    (hnonempty : (trimmed value).isEmpty ≠ true) : Plain lineMarks (trimmed value) := by
  refine ⟨?_, ?_, ?_⟩
  · rwa [ne_eq, String.toList_eq_nil_iff, ← String.isEmpty_iff]
  · rw [trimmed, String.toList_ofList]
    exact unpadded_trim value.toList
  · intro c hc
    rw [trimmed, String.toList_ofList] at hc
    exact clear_iff.mp hclear c (mem_of_mem_trim hc)

/-- The language is kept unless the file has one that is not blank. -/
theorem language_override (d : Config) (ini : Ini) :
    (d.override ini).language = d.language ∨
      ∃ value, ini.get? "scripting" "language" = some value ∧ (trimmed value).isEmpty ≠ true ∧
        (d.override ini).language = trimmed value := by
  unfold override
  dsimp only
  cases hlanguage : ini.get? "scripting" "language" with
  | none => exact Or.inl rfl
  | some value =>
    rw [Option.map_some]
    dsimp only
    split
    case isTrue => exact Or.inl rfl
    case isFalse hnonempty => exact Or.inr ⟨value, rfl, hnonempty, rfl⟩

/-- Directories are kept unless the file has some. -/
theorem scriptDirs_override (d : Config) (ini : Ini) :
    (d.override ini).scriptDirs = d.scriptDirs ∨
      ∃ value, ini.get? "scripting" "script_dirs" = some value ∧ splitList value ≠ [] ∧
        (d.override ini).scriptDirs = splitList value := by
  unfold override
  dsimp only
  cases hdirs : ini.get? "scripting" "script_dirs" with
  | none => exact Or.inl rfl
  | some value =>
    by_cases hitems : splitList value = []
    · rw [Option.bind_some, someItems?, hitems]
      exact Or.inl rfl
    · rw [Option.bind_some, someItems_of_ne_nil hitems]
      exact Or.inr ⟨value, rfl, hitems, rfl⟩

/-- Modules are those of the file, be it none, where it says anything about them. -/
theorem bootstrap_override (d : Config) (ini : Ini) :
    (d.override ini).bootstrap = d.bootstrap ∨
      ∃ value, ini.get? "scripting" "bootstrap" = some value ∧
        (d.override ini).bootstrap = splitList value := by
  unfold override
  dsimp only
  cases hbootstrap : ini.get? "scripting" "bootstrap" with
  | none => exact Or.inl rfl
  | some value => exact Or.inr ⟨value, rfl, rfl⟩

theorem override_storable {d : Config} (hd : Storable d) {text : String} {ini : Ini}
    (hparse : Ini.parse text = .ok ini) : Storable (d.override ini) := by
  have hclear {section_ key value : String} (h : ini.get? section_ key = some value) :
      Clear value.toList := Ini.get_clear hparse h
  constructor
  case language =>
    obtain hkept | ⟨value, hvalue, hnonempty, hread⟩ := d.language_override ini
    · rw [hkept]
      exact hd.language
    · rw [hread]
      exact plain_trimmed (hclear hvalue) hnonempty
  case hasDirs =>
    obtain hkept | ⟨value, -, hitems, hread⟩ := d.scriptDirs_override ini
    · rw [hkept]
      exact hd.hasDirs
    · rw [hread]
      exact hitems
  case scriptDirs =>
    obtain hkept | ⟨value, hvalue, -, hread⟩ := d.scriptDirs_override ini
    · rw [hkept]
      exact hd.scriptDirs
    · rw [hread]
      exact fun dir hdir => plain_of_mem_splitList (hclear hvalue) hdir
  case bootstrap =>
    obtain hkept | ⟨value, hvalue, hread⟩ := d.bootstrap_override ini
    · rw [hkept]
      exact hd.bootstrap
    · rw [hread]
      exact fun name hname => plain_of_mem_splitList (hclear hvalue) hname

/-! Files. -/

def saveAs (written : List Ini.Section) (files : FileTree) (path : String) :
    Except ConfigFileError FileTree :=
  (files.write path (.ofText (Ini.render written))).mapError .unwritable

theorem readText_saved {written : List Ini.Section} {files files' : FileTree} {path : String}
    (h : saveAs written files path = .ok files') :
    files'.readText path = .ok (Ini.render written) := by
  unfold saveAs at h
  cases hwrite : files.write path (.ofText (Ini.render written)) with
  | error e =>
    rw [hwrite] at h
    cases h
  | ok t =>
    rw [hwrite] at h
    cases h
    exact FileTree.readText_write hwrite

/-- Settings that are saved, in any order of sections and keys, come back from the file over the
ones that a host begins with exactly if they can be stored; and if not, then no attempt to load
the file leaves a host with them. Settings are saved in one of these orders. -/
theorem saved_settings_survive_iff_storable (c : Config)
    (hcapacity : c.consoleCapacity ≤ 0xFFFFFFFFFFFFFFFF) {written : List Ini.Section}
    (horder : Rearranged written c.sections) {files files' : FileTree} {path : String}
    (hsaved : saveAs written files path = .ok files') :
    ((∃ loaded, default.loadFile files' path = .ok loaded ∧ SameSettings loaded c) ↔ Storable c) ∧
    (SameSettings (default.loadedOver files' path) c ↔ Storable c) ∧
    ∃ own, Rearranged own c.sections ∧ c.saveFile = saveAs own := by
  have htext := readText_saved hsaved
  have hload : default.loadFile files' path =
      (default.load (Ini.render written)).mapError (.malformed path) := by
    rw [loadFile, htext]
  have hback (hc : Storable c) : ∃ loaded, default.loadFile files' path = .ok loaded ∧
      SameSettings loaded c := by
    obtain ⟨ini, hparse, hget⟩ := values_read_back hc horder
    refine ⟨default.override ini, ?_, override_stored hc hcapacity hget⟩
    rw [hload, load, hparse]
    rfl
  -- whatever is loaded can be stored, so other settings never come back
  have honly {loaded : Config} (h : default.loadFile files' path = .ok loaded) :
      Storable loaded := by
    rw [hload, load] at h
    cases hparse : Ini.parse (Ini.render written) with
    | error e =>
      rw [hparse] at h
      cases h
    | ok ini =>
      rw [hparse] at h
      cases h
      exact override_storable default_storable hparse
  refine ⟨⟨?_, hback⟩, ⟨?_, ?_⟩, c.sections, Ini.rearranged_refl c.sections, rfl⟩
  · rintro ⟨loaded, hloaded, hsame⟩
    exact (honly hloaded).same hsame
  · intro hsame
    unfold loadedOver at hsame
    cases hloaded : default.loadFile files' path with
    | ok loaded =>
      rw [hloaded] at hsame
      exact (honly hloaded).same hsame
    | error e =>
      rw [hloaded] at hsame
      exact default_storable.same hsame
  · intro hc
    obtain ⟨loaded, hloaded, hsame⟩ := hback hc
    rwa [loadedOver, hloaded]

def backwards (sections : List Ini.Section) : List Ini.Section :=
  (sections.map fun s => (s.1, s.2.reverse)).reverse

def germanSettings : Config := ⟨"de", ["a", "b"], ["luax.lua", "api/all.lua"], 16, .ofInt 5⟩

/-- They survive a writer that goes through everything backwards. -/
theorem german_settings_survive :
    Rearranged (backwards germanSettings.sections) germanSettings.sections ∧
      ∃ files', saveAs (backwards germanSettings.sections) FileTree.empty "bridge.ini" = .ok files' ∧
        SameSettings (default.loadedOver files' "bridge.ini") germanSettings := by
  have horder : Rearranged (backwards germanSettings.sections) germanSettings.sections := by
    refine ⟨_, ?_, List.reverse_perm _⟩
    rw [List.forall₂_map_left_iff, List.forall₂_same]
    exact fun s _ => ⟨rfl, List.reverse_perm s.2⟩
  have hwrite (content : ByteString) : FileTree.empty.write "bridge.ini" content =
      .ok (FileTree.empty.set ["bridge.ini"] (.file content false)) := rfl
  have hsaved : saveAs (backwards germanSettings.sections) FileTree.empty "bridge.ini" = .ok
      (FileTree.empty.set ["bridge.ini"]
        (.file (.ofText (Ini.render (backwards germanSettings.sections))) false)) := by
    rw [saveAs, hwrite]
    rfl
  have hstorable : Storable germanSettings := by
    refine ⟨plain_language (by decide) (by decide), by decide, ?_, ?_⟩
    · change ∀ dir ∈ ["a", "b"], Plain itemMarks dir
      rw [List.forall_mem_cons, List.forall_mem_singleton]
      exact ⟨plain_item (by decide) (by decide) (by decide),
        plain_item (by decide) (by decide) (by decide)⟩
    · change ∀ name ∈ ["luax.lua", "api/all.lua"], Plain itemMarks name
      rw [List.forall_mem_cons, List.forall_mem_singleton]
      exact ⟨plain_item (by decide) (by decide) (by decide),
        plain_item (by decide) (by decide) (by decide)⟩
  have hsurvives := saved_settings_survive_iff_storable germanSettings (by decide) horder hsaved
  exact ⟨horder, _, hsaved, hsurvives.2.1.mpr hstorable⟩

end Config

end ScenarioHost
