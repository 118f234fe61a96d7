import Mathlib.Tactic
import ScenarioHost.Ini
import ScenarioHost.Proofs.Texts

/-!
Settings files. A file that was written says what its sections say, in whatever order sections and
keys come, as long as its texts have nothing in them that a reader takes for something else. What a
reader finds in any file at all has no comment marks and no ends of lines in it.
-/
namespace ScenarioHost.Ini

def Clear (cs : List Char) : Prop := ∀ c ∈ cs, isCommentMark c = false ∧ c ≠ '\n'

def isWordChar (c : Char) : Bool := ('a' ≤ c && c ≤ 'z') || c = '_'

def Word (name : String) : Prop := name.toList ≠ [] ∧ ∀ c ∈ name.toList, isWordChar c = true

-- named, since the search may also find the instance that tries every character there is
instance (name : String) : Decidable (Word name) :=
  @instDecidableAnd _ _ _ (List.decidableBAll (isWordChar · = true) name.toList)

structure Writable (s : Section) : Prop where
  name : Word s.1
  keys : ∀ e ∈ s.2, Word e.1
  clear : ∀ e ∈ s.2, Clear e.2.toList
  unpadded : ∀ e ∈ s.2, Unpadded e.2.toList

def entries (s : Section) : List IniEntry := s.2.map fun e => ⟨s.1, e.1, some e.2⟩

/-! Words. -/

/-- Letters and underscores mean nothing to a reader. -/
theorem word_char {c : Char} (h : isWordChar c = true) :
    isBlank c = false ∧ isCommentMark c = false ∧ isDelimiter c = false ∧ c ≠ '[' ∧ c ≠ '\n' ∧
      lowerAscii c = c := by
  have hbounds : (97 ≤ c.toNat ∧ c.toNat ≤ 122) ∨ c = '_' := by
    simp only [isWordChar, Bool.or_eq_true, Bool.and_eq_true, decide_eq_true_eq, Char.le_def,
      UInt32.le_iff_toNat_le] at h
    exact h
  obtain hletter | rfl := hbounds
  · have hother (d : Char) (hd : d.toNat < 97) : c ≠ d := by
      rintro rfl
      omega
    refine ⟨?_, ?_, ?_, hother '[' (by decide), hother '\n' (by decide), ?_⟩
    · simp only [isBlank, Bool.or_eq_false_iff, Bool.and_eq_false_iff, decide_eq_false_iff_not,
        beq_eq_false_iff_ne]
      omega
    · simp only [isCommentMark, hother ';' (by decide), hother '#' (by decide), decide_false,
        Bool.or_false]
    · simp only [isDelimiter, hother '=' (by decide), hother ':' (by decide), decide_false,
        Bool.or_false]
    · have hnot : ¬ ('A' ≤ c ∧ c ≤ 'Z') := by
        rw [Char.le_def, Char.le_def, UInt32.le_iff_toNat_le, UInt32.le_iff_toNat_le]
        rintro ⟨-, hz⟩
        have hcode : c.toNat ≤ 90 := hz
        omega
      rw [lowerAscii, if_neg hnot]
  · decide

theorem Word.clear {name : String} (h : Word name) : Clear name.toList := by
  intro c hc
  obtain ⟨-, hmark, -, -, hline, -⟩ := word_char (h.2 c hc)
  exact ⟨hmark, hline⟩

theorem Word.unpadded {name : String} (h : Word name) : Unpadded name.toList := by
  constructor
  · intro c hc
    exact (word_char (h.2 c (List.mem_of_head? hc))).1
  · intro c hc
    exact (word_char (h.2 c (List.mem_of_getLast? hc))).1

theorem Word.lowered {name : String} (h : Word name) : lowered name.toList = name := by
  have hsame : name.toList.map lowerAscii = name.toList := by
    conv_rhs => rw [← List.map_id name.toList]
    apply List.map_congr_left
    intro c hc
    exact (word_char (h.2 c hc)).2.2.2.2.2
  rw [Ini.lowered, hsame, String.ofList_toList]

/-! Lines. -/

theorem takeWhile_clear {cs : List Char} (h : Clear cs) :
    (cs.takeWhile fun c => !isCommentMark c) = cs := by
  rw [List.takeWhile_eq_self_iff]
  intro c hc
  rw [(h c hc).1]
  rfl

theorem clear_header {name : String} (h : Word name) : Clear ('[' :: name.toList ++ [']']) := by
  intro c hc
  rw [List.mem_append, List.mem_cons, List.mem_singleton] at hc
  obtain (rfl | hc) | rfl := hc
  · decide
  · exact h.clear c hc
  · decide

theorem clear_entry {key value : String} (hkey : Word key) (hvalue : Clear value.toList) :
    Clear (key.toList ++ '=' :: value.toList) := by
  intro c hc
  rw [List.mem_append, List.mem_cons] at hc
  obtain hc | rfl | hc := hc
  · exact hkey.clear c hc
  · decide
  · exact hvalue c hc

/-- The line ends in its value, or in the delimiter if there is none. -/
theorem unpadded_entry {key value : String} (hkey : Word key) (hvalue : Unpadded value.toList) :
    Unpadded (key.toList ++ '=' :: value.toList) := by
  constructor
  · intro c hc
    rw [List.head?_append_of_ne_nil _ hkey.1] at hc
    exact hkey.unpadded.first c hc
  · intro c hc
    rw [List.getLast?_append_of_ne_nil _ (List.cons_ne_nil _ _)] at hc
    cases hlast : value.toList with
    | nil =>
      rw [hlast] at hc
      cases hc
      decide
    | cons d rest =>
      rw [hlast, List.getLast?_cons_cons, ← hlast] at hc
      exact hvalue.last c hc

theorem read_header {name : String} (h : Word name) :
    readLine ('[' :: name.toList ++ [']']) = .header name := by
  have hclear := clear_header h
  have hunpadded : Unpadded ('[' :: name.toList ++ [']']) := by
    constructor
    · intro c hc
      cases hc
      decide
    · intro c hc
      rw [List.getLast?_concat] at hc
      cases hc
      decide
  have hname : headerName? (name.toList ++ [']']) = some name.toList := by
    rw [headerName?, List.reverse_concat, List.dropWhile_cons_of_neg (by decide)]
    dsimp only
    rw [List.reverse_reverse]
  unfold readLine
  rw [takeWhile_clear hclear, trim_unpadded hunpadded]
  split
  · rename_i hnil
    cases hnil
  · rename_i rest hrest
    have hafter : rest = name.toList ++ [']'] := (List.cons.inj hrest).2.symm
    rw [hafter, hname]
    dsimp only
    rw [trim_unpadded h.unpadded, h.lowered]
  · rename_i hother
    exact absurd rfl (hother (name.toList ++ [']']))

theorem takeWhile_key {key : String} (h : Word key) (rest : List Char) :
    ((key.toList ++ '=' :: rest).takeWhile fun c => !isDelimiter c) = key.toList ∧
      ((key.toList ++ '=' :: rest).dropWhile fun c => !isDelimiter c) = '=' :: rest := by
  have hkey : ∀ c ∈ key.toList, (!isDelimiter c) = true := by
    intro c hc
    rw [(word_char (h.2 c hc)).2.2.1]
    rfl
  exact cut_at hkey (by decide) rest

theorem read_entry {key value : String} (hkey : Word key) (hclear : Clear value.toList)
    (hvalue : Unpadded value.toList) :
    readLine (key.toList ++ '=' :: value.toList) = .entry key (some value) := by
  obtain ⟨htake, hdrop⟩ := takeWhile_key hkey value.toList
  have hcs : trimChars ((key.toList ++ '=' :: value.toList).takeWhile fun c => !isCommentMark c) =
      key.toList ++ '=' :: value.toList := by
    rw [takeWhile_clear (clear_entry hkey hclear), trim_unpadded (unpadded_entry hkey hvalue)]
  unfold readLine
  rw [hcs]
  split
  · rename_i hnil
    exact absurd hnil (List.append_ne_nil_of_left_ne_nil hkey.1 _)
  · -- a key does not begin with a bracket
    rename_i rest hbracket
    have hhead : key.toList.head? = some '[' := by
      rw [← List.head?_append_of_ne_nil _ hkey.1, hbracket, List.head?_cons]
    exact absurd rfl (word_char (hkey.2 _ (List.mem_of_head? hhead))).2.2.2.1
  · rw [hdrop]
    dsimp only
    rw [htake, trim_unpadded hkey.unpadded, trim_unpadded hvalue]
    split
    · rename_i hnil
      exact absurd hnil hkey.1
    · rw [hkey.lowered, String.ofList_toList]

/-! Files that were written. -/

def sectionLines (s : Section) : List (List Char) :=
  ('[' :: s.1.toList ++ [']']) :: s.2.map fun e => e.1.toList ++ '=' :: e.2.toList

theorem toList_render (sections : List Section) :
    (render sections).toList =
      (sections.flatMap sectionLines).flatMap fun line => line ++ ['\n'] := by
  have hkeys (keys : List (String × String)) :
      (String.join (keys.map fun e => e.1 ++ "=" ++ e.2 ++ "\n")).toList =
        (keys.map fun e => e.1.toList ++ '=' :: e.2.toList).flatMap fun line => line ++ ['\n'] := by
    induction keys with
    | nil => rfl
    | cons e keys ih =>
      rw [List.map_cons, String.join_cons, String.toList_append, ih, List.map_cons,
        List.flatMap_cons]
      simp only [String.toList_append, List.append_assoc, List.cons_append]
      rfl
  unfold render
  induction sections with
  | nil => rfl
  | cons s sections ih =>
    rw [List.map_cons, String.join_cons, String.toList_append, ih, List.flatMap_cons,
      List.flatMap_append]
    congr 1
    rw [renderSection, String.toList_append, hkeys, sectionLines, List.flatMap_cons]
    simp only [String.toList_append, List.append_assoc, List.cons_append]
    rfl

theorem section_lines_clear {s : Section} (h : Writable s) : ∀ line ∈ sectionLines s, Clear line := by
  intro line hline
  rw [sectionLines, List.mem_cons, List.mem_map] at hline
  obtain rfl | ⟨e, he, rfl⟩ := hline
  · exact clear_header h.name
  · exact clear_entry (h.keys e he) (h.clear e he)

/-- The keys of a section, read in the section that the last header named. -/
theorem read_keys {section_ : String} {keys : List (String × String)} {after : List (List Char)}
    {ini : Ini} (hkeys : ∀ e ∈ keys, Word e.1) (hclear : ∀ e ∈ keys, Clear e.2.toList)
    (hunpadded : ∀ e ∈ keys, Unpadded e.2.toList)
    (hafter : ∀ line, readLines line section_ after = .ok ini) (line : Nat) :
    readLines line section_ ((keys.map fun e => e.1.toList ++ '=' :: e.2.toList) ++ after) =
      .ok ((keys.map fun e => ⟨section_, e.1, some e.2⟩) ++ ini) := by
  induction keys generalizing line with
  | nil => exact hafter line
  | cons e keys ih =>
    have hmem : e ∈ e :: keys := List.mem_cons_self
    have hrest := ih (fun d hd => hkeys d (List.mem_cons_of_mem e hd))
      (fun d hd => hclear d (List.mem_cons_of_mem e hd))
      (fun d hd => hunpadded d (List.mem_cons_of_mem e hd)) (line + 1)
    rw [List.map_cons, List.cons_append, readLines,
      read_entry (hkeys e hmem) (hclear e hmem) (hunpadded e hmem)]
    dsimp only
    rw [hrest]
    rfl

/-- After the last line there is an empty one. -/
theorem read_sections {sections : List Section} (h : ∀ s ∈ sections, Writable s) (line : Nat)
    (section_ : String) :
    readLines line section_ (sections.flatMap sectionLines ++ [[]]) =
      .ok (sections.flatMap entries) := by
  induction sections generalizing line section_ with
  | nil => rfl
  | cons s sections ih =>
    have hs := h s List.mem_cons_self
    have hrest := ih fun t ht => h t (List.mem_cons_of_mem s ht)
    rw [List.flatMap_cons, List.append_assoc, sectionLines, List.cons_append, readLines,
      read_header hs.name]
    exact read_keys hs.keys hs.clear hs.unpadded (fun line => hrest line s.1) (line + 1)

/-- A written file says what its sections say. -/
theorem parse_render {sections : List Section} (h : ∀ s ∈ sections, Writable s) :
    parse (render sections) = .ok (sections.flatMap entries) := by
  have hlines : ∀ line ∈ sections.flatMap sectionLines, '\n' ∉ line := by
    intro line hline hnewline
    obtain ⟨s, hs, hmem⟩ := List.mem_flatMap.mp hline
    exact (section_lines_clear (h s hs) line hmem _ hnewline).2 rfl
  rw [parse, toList_render, split_terminated '\n' _ hlines]
  exact read_sections h 1 "default"

/-! Values. -/

/-- An assignment that is the only one to its key is the one that counts. -/
theorem get_of_mem {ini : Ini} {e : IniEntry}
    (hdistinct : (ini.map fun e => (e.section_, e.key)).Nodup) (he : e ∈ ini) :
    get? ini e.section_ e.key = e.value := by
  have hfound : (ini.findRev? fun d => decide (d.section_ = e.section_ ∧ d.key = e.key)) = some e := by
    rw [List.findRev?_eq_find?_reverse]
    cases hfind : ini.reverse.find? fun d => decide (d.section_ = e.section_ ∧ d.key = e.key) with
    | none =>
      have hnone := List.find?_eq_none.mp hfind e (List.mem_reverse.mpr he)
      exact absurd (decide_eq_true ⟨rfl, rfl⟩) hnone
    | some d =>
      have hd : d ∈ ini := List.mem_reverse.mp (List.mem_of_find?_eq_some hfind)
      have hsatisfied := List.find?_some hfind
      obtain ⟨hsection, hkey⟩ := of_decide_eq_true hsatisfied
      have hsame : (d.section_, d.key) = (e.section_, e.key) := by rw [hsection, hkey]
      rw [List.inj_on_of_nodup_map hdistinct hd he hsame]
  rw [get?, hfound]
  rfl

def Rearranged (written original : List Section) : Prop :=
  ∃ shuffled, List.Forall₂ (fun s t => s.1 = t.1 ∧ s.2.Perm t.2) shuffled original ∧
    written.Perm shuffled

theorem rearranged_refl (sections : List Section) : Rearranged sections sections :=
  ⟨sections, List.forall₂_same.mpr fun _ _ => ⟨rfl, .refl _⟩, .refl _⟩

theorem entries_rearranged {written original : List Section} (h : Rearranged written original) :
    (written.flatMap entries).Perm (original.flatMap entries) := by
  obtain ⟨shuffled, hkeys, horder⟩ := h
  refine (horder.flatMap_right entries).trans ?_
  clear horder
  -- the sections stand in one order now, and only the keys in them differ
  induction hkeys with
  | nil => exact .refl _
  | cons hs _ ih =>
    rename_i s t _ _
    obtain ⟨hname, hperm⟩ := hs
    rw [List.flatMap_cons, List.flatMap_cons]
    refine List.Perm.append ?_ ih
    rw [entries, entries, hname]
    exact hperm.map _

theorem writable_rearranged {written original : List Section} (h : Rearranged written original)
    (hw : ∀ s ∈ original, Writable s) : ∀ s ∈ written, Writable s := by
  obtain ⟨shuffled, hkeys, horder⟩ := h
  have hshuffled : ∀ s ∈ shuffled, Writable s := by
    clear horder
    induction hkeys with
    | nil =>
      intro s hs
      cases hs
    | cons hst _ ih =>
      rename_i s t _ _ _
      obtain ⟨hname, hperm⟩ := hst
      have ht : Writable t := hw t List.mem_cons_self
      have hmem : ∀ e ∈ s.2, e ∈ t.2 := fun e he => hperm.mem_iff.mp he
      intro r hr
      rw [List.mem_cons] at hr
      obtain rfl | hr := hr
      · exact ⟨hname ▸ ht.name, fun e he => ht.keys e (hmem e he),
          fun e he => ht.clear e (hmem e he), fun e he => ht.unpadded e (hmem e he)⟩
      · exact ih (fun u hu => hw u (List.mem_cons_of_mem t hu)) r hr
  intro s hs
  exact hshuffled s (horder.mem_iff.mp hs)

/-! Files of any content. -/

theorem read_value {raw : List Char} {key value : String}
    (h : readLine raw = .entry key (some value)) :
    ∀ c ∈ value.toList, c ∈ raw ∧ isCommentMark c = false := by
  have hline : ∀ c ∈ trimChars (raw.takeWhile fun c => !isCommentMark c),
      c ∈ raw ∧ isCommentMark c = false := by
    intro c hc
    have htaken := mem_of_mem_trim hc
    exact ⟨(List.takeWhile_prefix _).subset htaken, by
      simpa using List.mem_takeWhile_imp htaken⟩
  unfold readLine at h
  -- a value is part of what is left of the line without its comment
  generalize trimChars (raw.takeWhile fun c => !isCommentMark c) = cs at h hline
  split at h
  · cases h
  · split at h <;> cases h
  · split at h
    · cases h
    · rename_i rest hrest
      split at h
      · cases h
      · cases h
        intro c hc
        rw [String.toList_ofList] at hc
        apply hline
        have hdropped : c ∈ cs.dropWhile fun c => !isDelimiter c := by
          rw [hrest]
          exact List.mem_cons_of_mem _ (mem_of_mem_trim hc)
        exact (List.dropWhile_suffix _).subset hdropped

/-- What a line can add to the assignments read from the lines after it. -/
theorem read_lines_cons {line : Nat} {section_ : String} {raw : List Char}
    {rest : List (List Char)} {ini : Ini} (h : readLines line section_ (raw :: rest) = .ok ini) :
    (∃ name, readLines (line + 1) name rest = .ok ini) ∨
      ∃ key value after, readLine raw = .entry key value ∧
        readLines (line + 1) section_ rest = .ok after ∧ ini = ⟨section_, key, value⟩ :: after := by
  rw [readLines] at h
  cases hraw : readLine raw with
  | blank =>
    rw [hraw] at h
    exact Or.inl ⟨section_, h⟩
  | header name =>
    rw [hraw] at h
    exact Or.inl ⟨name, h⟩
  | openHeader =>
    rw [hraw] at h
    cases h
  | noKey =>
    rw [hraw] at h
    cases h
  | entry key value =>
    rw [hraw] at h
    dsimp only at h
    cases hrest : readLines (line + 1) section_ rest with
    | error e =>
      rw [hrest] at h
      cases h
    | ok after =>
      rw [hrest] at h
      cases h
      exact Or.inr ⟨key, value, after, rfl, rfl, rfl⟩

theorem read_lines_clear {lines : List (List Char)} (hlines : ∀ raw ∈ lines, '\n' ∉ raw)
    {line : Nat} {section_ : String} {ini : Ini} (h : readLines line section_ lines = .ok ini) :
    ∀ e ∈ ini, ∀ value, e.value = some value → Clear value.toList := by
  induction lines generalizing line section_ ini with
  | nil =>
    cases h
    intro e he
    cases he
  | cons raw rest ih =>
    have hrest := fun raw hraw => hlines raw (List.mem_cons_of_mem _ hraw)
    obtain ⟨name, h⟩ | ⟨key, value, after, hraw, hafter, rfl⟩ := read_lines_cons h
    · exact ih hrest h
    · intro e he found hfound
      rw [List.mem_cons] at he
      obtain rfl | he := he
      · cases hfound
        intro c hc
        obtain ⟨hmem, hmark⟩ := read_value hraw c hc
        refine ⟨hmark, ?_⟩
        rintro rfl
        exact hlines raw List.mem_cons_self hmem
      · exact ih hrest hafter e he found hfound

/-- No value that is found in a file has a comment mark or an end of line in it. -/
theorem get_clear {text : String} {ini : Ini} (h : parse text = .ok ini) {section_ key value : String}
    (hget : get? ini section_ key = some value) : Clear value.toList := by
  have hlines : ∀ raw ∈ splitChars '\n' text.toList, '\n' ∉ raw := by
    intro raw hraw hnewline
    exact (mem_of_mem_split hraw hnewline).2 rfl
  obtain ⟨e, he, hvalue⟩ := Option.bind_eq_some_iff.mp hget
  rw [List.findRev?_eq_find?_reverse] at he
  have hmem : e ∈ ini := List.mem_reverse.mp (List.mem_of_find?_eq_some he)
  exact read_lines_clear hlines h e hmem value hvalue

end ScenarioHost.Ini
