import ScenarioHost.Proofs.LoadedSettings
import ScenarioHost.Proofs.SavedSettings
import ScenarioHost.Proofs.TimeoutTexts

/-!
Timeouts in settings files. Other settings may be written with marks that a reader takes for
something else, and lose a part of themselves; as long as they have no lines of their own, the
timeout stands where it is looked for, and loading the file over any settings takes it over.
-/
namespace ScenarioHost

namespace Ini

def kept (value : String) : String :=
  String.ofList (trimChars (value.toList.takeWhile fun c => !isCommentMark c))

structure OneLine (s : Section) : Prop where
  name : Word s.1
  keys : ∀ e ∈ s.2, Word e.1
  values : ∀ e ∈ s.2, '\n' ∉ e.2.toList

def keptSection (s : Section) : Section := (s.1, s.2.map fun e => (e.1, kept e.2))

theorem kept_clear {value : String} (h : '\n' ∉ value.toList) : Clear (kept value).toList := by
  intro c hc
  rw [kept, String.toList_ofList] at hc
  have htaken := mem_of_mem_trim hc
  refine ⟨by simpa using List.mem_takeWhile_imp htaken, ?_⟩
  rintro rfl
  exact h ((List.takeWhile_prefix _).subset htaken)

theorem kept_unpadded (value : String) : Unpadded (kept value).toList := by
  rw [kept, String.toList_ofList]
  exact unpadded_trim _

theorem kept_solid {value : String} (h : Solid value.toList) : kept value = value := by
  rw [kept, takeWhile_clear h.clear, trim_unpadded h.unpadded, String.ofList_toList]

theorem OneLine.writable {s : Section} (h : OneLine s) : Writable (keptSection s) := by
  have hmem {e : String × String} (he : e ∈ (keptSection s).2) : ∃ e₀ ∈ s.2, (e₀.1, kept e₀.2) = e :=
    List.mem_map.mp he
  refine ⟨h.name, ?_, ?_, ?_⟩
  · intro e he
    obtain ⟨e₀, he₀, rfl⟩ := hmem he
    exact h.keys e₀ he₀
  · intro e he
    obtain ⟨e₀, he₀, rfl⟩ := hmem he
    exact kept_clear (h.values e₀ he₀)
  · intro e he
    obtain ⟨e₀, he₀, rfl⟩ := hmem he
    exact kept_unpadded e₀.2

theorem trim_append_blanks (cs : List Char) {blanks : List Char}
    (h : ∀ c ∈ blanks, isBlank c = true) : trimChars (cs ++ blanks) = trimChars cs := by
  induction blanks using List.reverseRecOn with
  | nil => rw [List.append_nil]
  | append_singleton front c ih =>
    have hc : isBlank c = true := h c (List.mem_append_right _ List.mem_cons_self)
    rw [← ih fun d hd => h d (List.mem_append_left _ hd), ← List.append_assoc, trim_chars_eq,
      trim_chars_eq, List.dropWhile_append]
    split
    · rename_i hempty
      rw [List.isEmpty_iff.mp hempty, List.dropWhile_cons_of_pos hc, List.dropWhile_nil]
    · exact List.rdropWhile_concat_pos _ _ _ hc

/-- The end of a value is the end of its line. -/
theorem rdropWhile_entry (key value : List Char) :
    (key ++ '=' :: value).rdropWhile isBlank = key ++ '=' :: value.rdropWhile isBlank := by
  induction value using List.reverseRecOn with
  | nil => exact List.rdropWhile_concat_neg _ _ _ (by decide)
  | append_singleton front c ih =>
    have hassoc : key ++ '=' :: (front ++ [c]) = key ++ '=' :: front ++ [c] := by simp
    rw [hassoc]
    by_cases hc : isBlank c = true
    · rw [List.rdropWhile_concat_pos _ _ _ hc, List.rdropWhile_concat_pos _ _ _ hc, ih]
    · rw [List.rdropWhile_concat_neg _ _ _ hc, List.rdropWhile_concat_neg _ _ _ hc, hassoc]

/-- White space at the end of a line is not part of its value in any case. -/
theorem trim_entry {key : String} (hkey : Word key) (value : List Char) :
    ∃ rest, trimChars (key.toList ++ '=' :: value) = key.toList ++ '=' :: rest ∧
      trimChars rest = trimChars value := by
  obtain ⟨first, others, hcons⟩ := List.exists_cons_of_ne_nil hkey.1
  have hfirst : ¬ isBlank first = true := by
    rw [(word_char (hkey.2 first (by rw [hcons]; exact .head _))).1]
    exact Bool.false_ne_true
  have hleft : (key.toList ++ '=' :: value).dropWhile isBlank = key.toList ++ '=' :: value := by
    rw [hcons, List.cons_append, List.dropWhile_cons_of_neg hfirst]
  refine ⟨value.rdropWhile isBlank, ?_, ?_⟩
  · rw [trim_chars_eq, hleft, rdropWhile_entry]
  · have hblanks : ∀ c ∈ value.rtakeWhile isBlank, isBlank c = true :=
      fun c hc => List.mem_rtakeWhile_imp hc
    rw [← trim_append_blanks _ hblanks, List.rdropWhile_append_rtakeWhile]

/-- A line is read as the assignment of what is kept of its value. -/
theorem read_kept {key : String} (hkey : Word key) (value : String) :
    readLine (key.toList ++ '=' :: value.toList) = .entry key (some (kept value)) := by
  let cut := value.toList.takeWhile fun c => !isCommentMark c
  obtain ⟨rest, htrim, hrest⟩ := trim_entry hkey cut
  have hsaid : said (key.toList ++ '=' :: value.toList) = key.toList ++ '=' :: rest := by
    have hclear : ∀ c ∈ key.toList, (!isCommentMark c) = true := by
      intro c hc
      rw [(hkey.clear c hc).1]
      rfl
    rw [said, List.takeWhile_append_of_pos hclear, List.takeWhile_cons_of_pos (by decide)]
    exact htrim
  have hdelimiters : ∀ c ∈ key.toList, isDelimiter c = false :=
    fun c hc => (word_char (hkey.2 c hc)).2.2.1
  have htrimmed := trim_unpadded hkey.unpadded
  rw [read_line_plain, hsaid, read_plain_entry hdelimiters (by decide)]
  · rw [htrimmed, hkey.lowered, hrest]
    rfl
  · rw [htrimmed]
    exact hkey.1
  · rw [hsaid]
    exact List.append_ne_nil_of_left_ne_nil hkey.1 _
  · -- a key does not begin with a bracket
    rw [hsaid, List.head?_append_of_ne_nil _ hkey.1]
    intro hbracket
    exact (word_char (hkey.2 _ (List.mem_of_head? hbracket))).2.2.2.1 rfl

theorem read_lines_congr {lines lines' : List (List Char)}
    (h : List.Forall₂ (fun raw raw' => readLine raw = readLine raw') lines lines') (line : ℕ)
    (section_ : String) : readLines line section_ lines = readLines line section_ lines' := by
  induction h generalizing line section_ with
  | nil => rfl
  | cons hraw _ ih =>
    rw [readLines, readLines, hraw]
    simp only [ih]

def keptEntry (e : IniEntry) : IniEntry := { e with value := e.value.map kept }

theorem entries_kept (sections : List Section) :
    (sections.map keptSection).flatMap entries = (sections.flatMap entries).map keptEntry := by
  have hsection (s : Section) : entries (keptSection s) = (entries s).map keptEntry := by
    unfold entries keptSection
    rw [List.map_map, List.map_map]
    rfl
  rw [List.flatMap_map, List.map_flatMap]
  simp only [hsection]

/-- A section is read line by line as if its values had been written as they are kept. -/
theorem section_lines_kept {s : Section} (h : OneLine s) :
    List.Forall₂ (fun raw raw' => readLine raw = readLine raw') (sectionLines s)
      (sectionLines (keptSection s)) := by
  unfold sectionLines keptSection
  rw [List.map_map]
  refine .cons rfl ?_
  rw [List.forall₂_map_left_iff, List.forall₂_map_right_iff, List.forall₂_same]
  intro e he
  have hkey := h.keys e he
  change readLine _ = readLine (e.1.toList ++ '=' :: (kept e.2).toList)
  rw [read_kept hkey, read_entry hkey (kept_clear (h.values e he)) (kept_unpadded e.2)]

theorem section_lines_oneLine {s : Section} (h : OneLine s) :
    ∀ line ∈ sectionLines s, '\n' ∉ line := by
  have hword {name : String} (hname : Word name) : '\n' ∉ name.toList := fun hmem =>
    (hname.clear _ hmem).2 rfl
  intro line hline
  rw [sectionLines, List.mem_cons, List.mem_map] at hline
  obtain rfl | ⟨e, he, rfl⟩ := hline
  · intro hmem
    rw [List.mem_append, List.mem_cons, List.mem_singleton] at hmem
    obtain (hbracket | hname) | hbracket := hmem
    · exact absurd hbracket (by decide)
    · exact hword h.name hname
    · exact absurd hbracket (by decide)
  · intro hmem
    rw [List.mem_append, List.mem_cons] at hmem
    obtain hkey | hmark | hvalue := hmem
    · exact hword (h.keys e he) hkey
    · exact absurd hmark (by decide)
    · exact h.values e he hvalue

/-- A written file says what its sections say, as far as their values are kept. -/
theorem parse_render_kept {sections : List Section} (h : ∀ s ∈ sections, OneLine s) :
    parse (render sections) = .ok ((sections.map keptSection).flatMap entries) := by
  have hlines : ∀ line ∈ sections.flatMap sectionLines, '\n' ∉ line := by
    intro line hline
    obtain ⟨s, hs, hmem⟩ := List.mem_flatMap.mp hline
    exact section_lines_oneLine (h s hs) line hmem
  -- it reads line by line like the file of the sections with their values as they are kept
  have hsame : List.Forall₂ (fun raw raw' => readLine raw = readLine raw')
      (sections.flatMap sectionLines ++ [[]])
      ((sections.map keptSection).flatMap sectionLines ++ [[]]) := by
    refine List.rel_append ?_ (.cons rfl .nil)
    rw [List.flatMap_map]
    refine List.rel_flatMap (R := fun s t => s = t ∧ OneLine s) ?_ ?_
    · exact List.forall₂_same.mpr fun s hs => ⟨rfl, h s hs⟩
    · rintro s _ ⟨rfl, hs⟩
      exact section_lines_kept hs
  rw [parse, toList_render, split_terminated '\n' _ hlines, read_lines_congr hsame]
  apply read_sections
  intro s hs
  obtain ⟨original, horiginal, rfl⟩ := List.mem_map.mp hs
  exact (h original horiginal).writable

/-- Whatever is written comes from a section of the same name. -/
theorem original_of_rearranged {written original : List Section} (h : Rearranged written original)
    {s : Section} (hs : s ∈ written) : ∃ t ∈ original, s.1 = t.1 ∧ s.2.Perm t.2 := by
  obtain ⟨shuffled, hkeys, horder⟩ := h
  have hmem := horder.mem_iff.mp hs
  clear horder
  induction hkeys with
  | nil => cases hmem
  | cons hst _ ih =>
    cases hmem with
    | head => exact ⟨_, List.mem_cons_self, hst⟩
    | tail _ hrest =>
      obtain ⟨t, ht, hsame⟩ := ih hrest
      exact ⟨t, List.mem_cons_of_mem _ ht, hsame⟩

theorem oneLine_rearranged {written original : List Section} (h : Rearranged written original)
    (hone : ∀ s ∈ original, OneLine s) : ∀ s ∈ written, OneLine s := by
  intro s hs
  obtain ⟨t, ht, hname, hperm⟩ := original_of_rearranged h hs
  obtain ⟨htname, htkeys, htvalues⟩ := hone t ht
  exact ⟨hname ▸ htname, fun e he => htkeys e (hperm.mem_iff.mp he),
    fun e he => htvalues e (hperm.mem_iff.mp he)⟩

end Ini

open Ini (OneLine Rearranged Word)

namespace Config

/-- Settings none of whose texts has an end of line in it. -/
structure OneLiners (c : Config) : Prop where
  language : '\n' ∉ c.language.toList
  scriptDirs : ∀ dir ∈ c.scriptDirs, '\n' ∉ dir.toList
  bootstrap : ∀ name ∈ c.bootstrap, '\n' ∉ name.toList

theorem oneLine_joined {items : List String} (h : ∀ item ∈ items, '\n' ∉ item.toList) :
    '\n' ∉ (joined ", " items).toList := by
  intro hmem
  rw [toList_joined] at hmem
  obtain hseparator | ⟨item, hitem, hc⟩ := mem_of_mem_intercalate hmem
  · exact absurd hseparator (by decide)
  · obtain ⟨s, hs, rfl⟩ := List.mem_map.mp hitem
    exact h s hs hc

theorem sections_oneLine {c : Config} (h : c.OneLiners) : ∀ s ∈ c.sections, OneLine s := by
  have hscripting : OneLine ("scripting", [("language", c.language),
      ("script_dirs", joined ", " c.scriptDirs), ("bootstrap", joined ", " c.bootstrap)]) := by
    have hkeys : Word "language" ∧ Word "script_dirs" ∧ Word "bootstrap" := by decide
    have hname : Word "scripting" := by decide
    refine ⟨hname, ?_, ?_⟩ <;>
      rw [List.forall_mem_cons, List.forall_mem_cons, List.forall_mem_singleton]
    · exact hkeys
    · exact ⟨h.language, oneLine_joined h.scriptDirs, oneLine_joined h.bootstrap⟩
  have hnumber (name key value : String) (hname : Word name) (hkey : Word key)
      (hvalue : Solid value.toList) : OneLine (name, [(key, value)]) := by
    refine ⟨hname, ?_, ?_⟩ <;> rw [List.forall_mem_singleton]
    · exact hkey
    · exact fun hmem => (hvalue.clear _ hmem).2 rfl
  unfold sections
  rw [List.forall_mem_cons, List.forall_mem_cons, List.forall_mem_singleton]
  exact ⟨hscripting, hnumber _ _ _ (by decide) (by decide) (solid_nat c.consoleCapacity),
    hnumber _ _ _ (by decide) (by decide) (solid_plain c.messageTimeout)⟩

/-- The timeout is found in the file, whatever becomes of the other settings. -/
theorem timeout_found {c : Config} (h : c.OneLiners) {written : List Ini.Section}
    (hw : Rearranged written c.sections) :
    ∃ ini, Ini.parse (Ini.render written) = .ok ini ∧
      ini.get? "scenario" "global_message_timeout" = some c.messageTimeout.toPlain := by
  let e : IniEntry := ⟨"scenario", "global_message_timeout", some c.messageTimeout.toPlain⟩
  have horder := Ini.entries_rearranged hw
  have hmem : e ∈ c.sections.flatMap Ini.entries := by
    change e ∈ [_, _, _, _, e]
    simp
  have hkept : Ini.keptEntry e = e := by
    change (⟨_, _, some (Ini.kept c.messageTimeout.toPlain)⟩ : IniEntry) = e
    rw [Ini.kept_solid (solid_plain c.messageTimeout)]
  refine ⟨_, Ini.parse_render_kept (Ini.oneLine_rearranged hw (sections_oneLine h)), ?_⟩
  rw [Ini.entries_kept]
  refine Ini.get_of_mem (e := e) ?_ ?_
  · rw [List.map_map]
    exact (horder.map fun e => (e.section_, e.key)).nodup_iff.mpr c.keys_distinct
  · exact List.mem_map.mpr ⟨e, horder.mem_iff.mpr hmem, hkept⟩

/-- What is loaded from a saved file has its timeout, as far as that is read back from its text. -/
theorem loaded_timeout (c d : Config) (hfinite : c.messageTimeout.value?.isSome = true)
    (h : c.OneLiners) {written : List Ini.Section} (horder : Rearranged written c.sections)
    {files files' : FileTree} {path : String} (hsaved : saveAs written files path = .ok files') :
    ∃ loaded, d.loadFile files' path = .ok loaded ∧ loaded.messageTimeout =
      if c.messageTimeout.Lost then ⟨c.messageTimeout.bits + 1⟩ else c.messageTimeout := by
  obtain ⟨v, hv⟩ := Option.isSome_iff_exists.mp hfinite
  obtain ⟨ini, hparse, hfound⟩ := timeout_found h horder
  have hread := read_text_eq.mp (readText_saved hsaved)
  refine ⟨d.override ini, loaded_iff.mpr ⟨_, ini, hread, hparse, rfl⟩, ?_⟩
  change ((ini.get? "scenario" "global_message_timeout").bind timeout?).getD d.messageTimeout = _
  rw [hfound, Option.bind_some, timeout_toPlain hv, Option.getD_some]

/-- Saving settings and loading the file over any others brings the timeout back, unless it is the
one magnitude that is lost on the way: that comes back one place farther from zero. -/
theorem timeout_comes_back_unless_lost (c d : Config)
    (hfinite : c.messageTimeout.value?.isSome = true) (h : c.OneLiners)
    {written : List Ini.Section} (horder : Rearranged written c.sections)
    {files files' : FileTree} {path : String} (hsaved : saveAs written files path = .ok files') :
    ∃ loaded, d.loadFile files' path = .ok loaded ∧
      (loaded.messageTimeout = c.messageTimeout ↔ ¬ c.messageTimeout.Lost) ∧
      (c.messageTimeout.Lost → loaded.messageTimeout.bits = c.messageTimeout.bits + 1) := by
  obtain ⟨loaded, hloaded, htimeout⟩ := loaded_timeout c d hfinite h horder hsaved
  refine ⟨loaded, hloaded, ?_, ?_⟩
  · rw [htimeout]
    by_cases hlost : c.messageTimeout.Lost
    · rw [if_pos hlost]
      refine iff_of_false ?_ (not_not_intro hlost)
      -- no pattern is its own neighbour, not even the last one
      intro hsame
      have hone : (1 : UInt32) = 0 := add_eq_left.mp (congrArg Single.bits hsame)
      exact absurd hone (by decide)
    · rw [if_neg hlost]
      exact iff_of_true rfl hlost
  · intro hlost
    rw [htimeout, if_pos hlost]

/-- Saving into a directory without files. -/
theorem saved_alone (c : Config) :
    saveAs c.sections FileTree.empty "bridge.ini" =
      .ok (FileTree.empty.set ["bridge.ini"] (.file (.ofText (Ini.render c.sections)) false)) := by
  have hwrite (content : ByteString) : FileTree.empty.write "bridge.ini" content =
      .ok (FileTree.empty.set ["bridge.ini"] (.file content false)) := rfl
  rw [saveAs, hwrite]
  rfl

def commentedSettings : Config := ⟨"en ; British", ["./scripts"], [], 200, ⟨0x40f00000⟩⟩

/-- The timeout is read back all the same. -/
theorem commented_timeout_comes_back :
    commentedSettings.messageTimeout.value?.isSome = true ∧ commentedSettings.OneLiners ∧
      ∃ files' loaded, commentedSettings.saveFile FileTree.empty "bridge.ini" = .ok files' ∧
        default.loadFile files' "bridge.ini" = .ok loaded ∧
        loaded.messageTimeout = ⟨0x40f00000⟩ := by
  have hfinite : commentedSettings.messageTimeout.value?.isSome = true := by decide
  have hlines : commentedSettings.OneLiners := by
    refine ⟨by decide, ?_, nofun⟩
    change ∀ dir ∈ ["./scripts"], '\n' ∉ dir.toList
    rw [List.forall_mem_singleton]
    decide
  have hsaved := saved_alone commentedSettings
  obtain ⟨loaded, hloaded, hback, -⟩ := timeout_comes_back_unless_lost commentedSettings default
    hfinite hlines (Ini.rearranged_refl _) hsaved
  exact ⟨hfinite, hlines, _, loaded, hsaved, hloaded, hback.mpr (by decide)⟩

def lostSettings : Config := { default with messageTimeout := ⟨0x15ae43fd⟩ }

theorem lost_timeout_changes :
    ∃ files' loaded, lostSettings.saveFile FileTree.empty "bridge.ini" = .ok files' ∧
      default.loadFile files' "bridge.ini" = .ok loaded ∧
      loaded.messageTimeout = ⟨0x15ae43fe⟩ ∧
      loaded.messageTimeout ≠ lostSettings.messageTimeout := by
  have hlines : lostSettings.OneLiners := by
    refine ⟨by decide, ?_, nofun⟩
    change ∀ dir ∈ ["./scripts"], '\n' ∉ dir.toList
    rw [List.forall_mem_singleton]
    decide
  have hsaved := saved_alone lostSettings
  obtain ⟨loaded, hloaded, htimeout⟩ := loaded_timeout lostSettings default (by decide)
    hlines (Ini.rearranged_refl _) hsaved
  have hneighbour : loaded.messageTimeout = ⟨0x15ae43fe⟩ := by
    rw [htimeout]
    decide
  refine ⟨_, loaded, hsaved, hloaded, hneighbour, ?_⟩
  rw [hneighbour]
  decide

end Config

end ScenarioHost
