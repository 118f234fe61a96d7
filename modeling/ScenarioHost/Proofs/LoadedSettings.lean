import Mathlib.Tactic
import ScenarioHost.ConfigFile
import ScenarioHost.Proofs.Encoding
import ScenarioHost.Proofs.SettingsLines

/-!
Settings that are loaded over others. A file is refused because of a line that cannot be read,
wherever it stands, and then nothing is loaded at all. What an accepted file makes of a setting
depends on the last assignment to its key in its section and on nothing else that is in the file.
-/
namespace ScenarioHost

open Ini (Faulty LastValue linesOf)

namespace Config

/-! Settings one by one. -/

inductive Setting where
  | language
  | scriptDirs
  | bootstrap
  | consoleCapacity
  | messageTimeout

namespace Setting

def Value : Setting → Type
  | language => String
  | scriptDirs => List String
  | bootstrap => List String
  | consoleCapacity => Nat
  | messageTimeout => Single

def of (c : Config) : (s : Setting) → s.Value
  | language => c.language
  | scriptDirs => c.scriptDirs
  | bootstrap => c.bootstrap
  | consoleCapacity => c.consoleCapacity
  | messageTimeout => c.messageTimeout

def home : Setting → String
  | language | scriptDirs | bootstrap => "scripting"
  | consoleCapacity => "console"
  | messageTimeout => "scenario"

def key : Setting → String
  | language => "language"
  | scriptDirs => "script_dirs"
  | bootstrap => "bootstrap"
  | consoleCapacity => "capacity"
  | messageTimeout => "global_message_timeout"

def someLanguage? (value : String) : Option String :=
  if (trimmed value).isEmpty then none else some (trimmed value)

def meaning : (s : Setting) → String → Option s.Value
  | language => someLanguage?
  | scriptDirs => someItems?
  | bootstrap => fun value => some (splitList value)
  | consoleCapacity => capacity?
  | messageTimeout => timeout?

end Setting

theorem eq_of_settings {c d : Config} (h : ∀ s, Setting.of c s = Setting.of d s) : c = d := by
  have hlanguage : c.language = d.language := h .language
  have hdirs : c.scriptDirs = d.scriptDirs := h .scriptDirs
  have hbootstrap : c.bootstrap = d.bootstrap := h .bootstrap
  have hcapacity : c.consoleCapacity = d.consoleCapacity := h .consoleCapacity
  have htimeout : c.messageTimeout = d.messageTimeout := h .messageTimeout
  cases c
  cases d
  subst hlanguage hdirs hbootstrap hcapacity htimeout
  rfl

/-- Every setting follows its own value, where that has a meaning. -/
theorem override_setting (c : Config) (ini : Ini) (s : Setting) :
    Setting.of (c.override ini) s = ((ini.get? s.home s.key).bind s.meaning).getD (Setting.of c s) := by
  cases s with
  | language =>
    change (c.override ini).language =
      ((ini.get? "scripting" "language").bind Setting.someLanguage?).getD c.language
    unfold override Setting.someLanguage?
    dsimp only
    cases ini.get? "scripting" "language" with
    | none => rfl
    | some value =>
      rw [Option.map_some, Option.bind_some]
      dsimp only
      split <;> rfl
  | scriptDirs => rfl
  | bootstrap =>
    change (c.override ini).bootstrap =
      ((ini.get? "scripting" "bootstrap").bind fun value => some (splitList value)).getD c.bootstrap
    unfold override
    cases ini.get? "scripting" "bootstrap" <;> rfl
  | consoleCapacity => rfl
  | messageTimeout => rfl

/-! Meanings. -/

theorem trim_eq_nil_iff (cs : List Char) : trimChars cs = [] ↔ ∀ c ∈ cs, isBlank c = true := by
  constructor
  · intro h c hc
    by_contra hkept
    -- the first character that is not white space is never dropped
    have hrest : cs.dropWhile isBlank ≠ [] := by
      rw [ne_eq, List.dropWhile_eq_nil_iff]
      exact fun hall => hkept (hall c hc)
    obtain ⟨d, rest, hdrop⟩ := List.exists_cons_of_ne_nil hrest
    have hd := List.head?_dropWhile_not isBlank cs
    rw [hdrop] at hd
    rw [trim_chars_eq, hdrop, List.rdropWhile_eq_nil_iff] at h
    have hblank : isBlank d = true := h d List.mem_cons_self
    have hnot : isBlank d = false := hd
    rw [hblank] at hnot
    cases hnot
  · intro h
    rw [trim_chars_eq, List.dropWhile_eq_nil_iff.mpr h]
    rfl

theorem no_language_iff (value : String) :
    Setting.someLanguage? value = none ↔ ∀ c ∈ value.toList, isBlank c = true := by
  have hempty : (trimmed value).isEmpty = true ↔ ∀ c ∈ value.toList, isBlank c = true := by
    rw [String.isEmpty_iff, ← String.toList_eq_nil_iff, trimmed, String.toList_ofList, trim_eq_nil_iff]
  rw [Setting.someLanguage?, ← hempty]
  split
  · rename_i h
    exact ⟨fun _ => h, fun _ => rfl⟩
  · rename_i h
    exact ⟨nofun, fun h' => absurd h' h⟩

theorem no_items_iff (value : String) :
    someItems? value = none ↔
      ∀ part ∈ splitChars ',' value.toList, ∀ c ∈ part, isBlank c = true := by
  have hnone : someItems? value = none ↔ splitList value = [] := by
    unfold someItems?
    split
    · rename_i h
      exact ⟨fun _ => h, fun _ => rfl⟩
    · rename_i h
      exact ⟨nofun, fun h' => absurd h' h⟩
  rw [hnone, splitList, List.map_eq_nil_iff, List.filter_eq_nil_iff, List.forall_mem_map]
  refine forall₂_congr fun part _ => ?_
  rw [← trim_eq_nil_iff, Bool.not_eq_true', Bool.not_eq_false, List.isEmpty_iff]

def unsigned : List Char → List Char
  | '+' :: c :: rest => c :: rest
  | cs => cs

theorem parse_whole_unsigned (high : Int) (text : String) :
    parseWhole 0 high text =
      if (unsigned text.toList).isEmpty then .error .empty
      else if !(unsigned text.toList).all isDigit then .error .invalid
      else if high < (digitsValue 10 (unsigned text.toList) : Int) then .error .tooLarge
      else .ok (digitsValue 10 (unsigned text.toList)) := by
  have hnonneg (n : Nat) : ¬ (n : Int) < 0 := by omega
  unfold parseWhole
  generalize text.toList = cs
  dsimp only
  split
  · simp only [unsigned, Bool.false_eq_true, if_false, hnonneg]
  · -- where nothing negative is allowed, a minus is taken for a digit
    simp only [lt_irrefl, Bool.false_eq_true, if_false, hnonneg]
    rfl
  · rename_i _ hplus _
    have hsame : unsigned cs = cs := by
      unfold unsigned
      split
      · exact absurd rfl (hplus _ _)
      · rfl
    simp only [hsame, Bool.false_eq_true, if_false, hnonneg]

theorem capacity_unsigned (value : String) (n : Nat) :
    capacity? value = some n ↔
      unsigned value.toList ≠ [] ∧ (∀ d ∈ unsigned value.toList, isDigit d = true) ∧
        digitsValue 10 (unsigned value.toList) = n ∧ n ≤ 0xFFFFFFFFFFFFFFFF := by
  rw [capacity?, parse_whole_unsigned]
  generalize unsigned value.toList = digits
  by_cases hne : digits = []
  · subst hne
    exact ⟨nofun, fun h => absurd rfl h.1⟩
  · rw [if_neg (by rwa [List.isEmpty_iff])]
    by_cases hall : ∀ d ∈ digits, isDigit d = true
    · rw [if_neg (by rw [List.all_eq_true.mpr hall]; decide)]
      by_cases hlarge : (0xFFFFFFFFFFFFFFFF : Int) < (digitsValue 10 digits : Int)
      · rw [if_pos hlarge]
        refine ⟨nofun, ?_⟩
        rintro ⟨-, -, rfl, hn⟩
        omega
      · rw [if_neg hlarge]
        dsimp only
        rw [Int.toNat_natCast, Option.some_inj]
        refine ⟨?_, fun h => h.2.2.1⟩
        rintro rfl
        exact ⟨hne, hall, rfl, by omega⟩
    · have hinvalid : (!digits.all isDigit) = true := by
        rw [Bool.not_eq_true', Bool.eq_false_iff, ne_eq, List.all_eq_true]
        exact hall
      rw [if_pos hinvalid]
      exact ⟨nofun, fun h => absurd h.2.1 hall⟩

/-- A capacity is written in digits, perhaps with a plus before them, and fits into 64 bits. -/
theorem capacity_eq_some_iff (value : String) (n : Nat) :
    capacity? value = some n ↔
      ∃ digits, (value.toList = digits ∨ value.toList = '+' :: digits) ∧ digits ≠ [] ∧
        (∀ d ∈ digits, isDigit d = true) ∧ digitsValue 10 digits = n ∧ n ≤ 0xFFFFFFFFFFFFFFFF := by
  rw [capacity_unsigned]
  constructor
  · rintro ⟨hne, hall, hvalue, hn⟩
    refine ⟨unsigned value.toList, ?_, hne, hall, hvalue, hn⟩
    unfold unsigned
    split
    · rename_i hplus
      exact Or.inr hplus
    · exact Or.inl rfl
  · rintro ⟨digits, htext, hne, hall, hvalue, hn⟩
    -- digits do not begin with a sign, so the text is read as it was written
    have hunsigned : unsigned value.toList = digits := by
      obtain ⟨d, rest, rfl⟩ := List.exists_cons_of_ne_nil hne
      rcases htext with htext | htext
      · rw [htext]
        have hplus : d ≠ '+' := by
          rintro rfl
          exact absurd (hall '+' List.mem_cons_self) (by decide)
        unfold unsigned
        split
        · rename_i hcs
          exact absurd (List.cons.inj hcs).1 hplus
        · rfl
      · rw [htext]
        rfl
    rw [hunsigned]
    exact ⟨hne, hall, hvalue, hn⟩

/-! Files. -/

/-- What a reader of settings makes of values. -/
structure MeaningLaw : Prop where
  /-- A language counts unless it is blank. -/
  language : ∀ value : String,
    (Setting.language.meaning value = none ↔ ∀ c ∈ value.toList, isBlank c = true) ∧
      ∀ l, Setting.language.meaning value = some l → l = trimmed value
  /-- A list of directories counts unless all its items are blank. -/
  scriptDirs : ∀ value : String,
    (Setting.scriptDirs.meaning value = none ↔
      ∀ part ∈ splitChars ',' value.toList, ∀ c ∈ part, isBlank c = true) ∧
      ∀ dirs, Setting.scriptDirs.meaning value = some dirs → dirs = splitList value
  /-- A list of modules always counts. -/
  bootstrap : ∀ value : String, Setting.bootstrap.meaning value = some (splitList value)
  /-- A capacity counts if it is a whole number of 64 bits. -/
  consoleCapacity : ∀ (value : String) (n : Nat), Setting.consoleCapacity.meaning value = some n ↔
    ∃ digits, (value.toList = digits ∨ value.toList = '+' :: digits) ∧ digits ≠ [] ∧
      (∀ d ∈ digits, isDigit d = true) ∧ digitsValue 10 digits = n ∧ n ≤ 0xFFFFFFFFFFFFFFFF
  /-- A timeout counts if it is a number. -/
  messageTimeout : ∀ (value : String) (x : Single), Setting.messageTimeout.meaning value = some x ↔
    ∃ n, Numeral.parse? value = some n ∧ x = .ofDouble n.toDouble

/-- What loading the file at a path makes of settings. -/
structure LoadingLaw (c : Config) (files : FileTree) (path : String) : Prop where
  /-- A file is refused if it cannot be read, is no text or has a line that cannot be read. -/
  refused : (∃ e, c.loadFile files path = .error e) ↔
    (∃ e, files.read path = .error e) ∨
      ∃ content, files.read path = .ok content ∧
        ((∀ text, content ≠ .ofText text) ∨
          ∃ text, content = .ofText text ∧ ∃ raw ∈ linesOf text, Faulty raw)
  /-- A refused file leaves the settings as they are. -/
  untouched : (∃ e, c.loadFile files path = .error e) → c.loadedOver files path = c
  /-- Otherwise each setting follows the last value of its own key. -/
  followed : ∀ text, files.read path = .ok (.ofText text) → ∀ loaded,
    c.loadFile files path = .ok loaded → c.loadedOver files path = loaded ∧
      ∀ s : Setting, ∃ value?,
        (∀ v?, LastValue (linesOf text) s.home s.key v? ↔ v? = value?) ∧
          Setting.of loaded s = (value?.bind s.meaning).getD (Setting.of c s)
  /-- Loading the file again changes nothing. -/
  settled : ∀ loaded, c.loadFile files path = .ok loaded → loaded.loadFile files path = .ok loaded
  /-- Other settings become the same wherever the file sets something. -/
  agreed : ∀ text, files.read path = .ok (.ofText text) → ∀ d loaded loaded' : Config,
    c.loadFile files path = .ok loaded → d.loadFile files path = .ok loaded' →
      ∀ (s : Setting) (value : String), LastValue (linesOf text) s.home s.key (some value) →
        s.meaning value ≠ none → Setting.of loaded s = Setting.of loaded' s

theorem meanings : MeaningLaw := by
  refine ⟨?_, ?_, fun _ => rfl, capacity_eq_some_iff, ?_⟩
  · intro value
    refine ⟨no_language_iff value, ?_⟩
    intro l hl
    change Setting.someLanguage? value = some l at hl
    unfold Setting.someLanguage? at hl
    split at hl
    · cases hl
    · exact (Option.some.inj hl).symm
  · intro value
    refine ⟨no_items_iff value, ?_⟩
    intro dirs hdirs
    change someItems? value = some dirs at hdirs
    unfold someItems? at hdirs
    split at hdirs
    · cases hdirs
    · exact (Option.some.inj hdirs).symm
  · intro value x
    change (Numeral.parse? value).map (fun n => Single.ofDouble n.toDouble) = some x ↔ _
    rw [Option.map_eq_some_iff]
    exact exists_congr fun n => and_congr_right fun _ => eq_comm

theorem read_text_eq {files : FileTree} {path text : String} :
    files.readText path = .ok text ↔ files.read path = .ok (.ofText text) := by
  unfold FileTree.readText
  cases files.read path with
  | error e => exact ⟨nofun, nofun⟩
  | ok content =>
    dsimp only
    cases htext : content.toText? with
    | ok found =>
      obtain rfl := ByteString.toText_eq_ok_iff.mp htext
      rw [Except.ok.injEq, Except.ok.injEq, ByteString.ofText_inj]
    | error e =>
      refine ⟨nofun, ?_⟩
      rintro ⟨⟩
      rw [ByteString.toText_ofText] at htext
      cases htext

/-- A file has one text. -/
theorem text_of_read {files : FileTree} {path text text' : String}
    (h : files.read path = .ok (.ofText text)) (h' : files.read path = .ok (.ofText text')) :
    text = text' :=
  ByteString.ofText_inj.mp (Except.ok.inj (h.symm.trans h'))

/-- A file that is loaded has a text with nothing wrong in it. -/
theorem loaded_iff {c loaded : Config} {files : FileTree} {path : String} :
    c.loadFile files path = .ok loaded ↔
      ∃ text ini, files.read path = .ok (.ofText text) ∧ Ini.parse text = .ok ini ∧
        loaded = c.override ini := by
  unfold loadFile
  cases htext : files.readText path with
  | error e =>
    refine ⟨nofun, ?_⟩
    rintro ⟨text, -, hread, -⟩
    rw [read_text_eq.mpr hread] at htext
    cases htext
  | ok text =>
    have hread := read_text_eq.mp htext
    dsimp only
    rw [load]
    cases hparse : Ini.parse text with
    | error e =>
      refine ⟨nofun, ?_⟩
      rintro ⟨text', ini, hread', hparse', -⟩
      obtain rfl := text_of_read hread hread'
      rw [hparse] at hparse'
      cases hparse'
    | ok ini =>
      constructor
      · rintro ⟨⟩
        exact ⟨text, ini, hread, hparse, rfl⟩
      · rintro ⟨text', ini', hread', hparse', rfl⟩
        obtain rfl := text_of_read hread hread'
        rw [hparse] at hparse'
        cases hparse'
        rfl

theorem refused_iff {c : Config} {files : FileTree} {path : String} :
    (∃ e, c.loadFile files path = .error e) ↔
      (∃ e, files.read path = .error e) ∨
        ∃ content, files.read path = .ok content ∧
          ((∀ text, content ≠ .ofText text) ∨
            ∃ text, content = .ofText text ∧ ∃ raw ∈ linesOf text, Faulty raw) := by
  unfold loadFile FileTree.readText
  cases files.read path with
  | error e => exact ⟨fun _ => Or.inl ⟨e, rfl⟩, fun _ => ⟨_, rfl⟩⟩
  | ok content =>
    dsimp only
    cases htext : content.toText? with
    | error e =>
      have hnot : ∀ text, content ≠ .ofText text := by
        rintro text rfl
        rw [ByteString.toText_ofText] at htext
        cases htext
      exact ⟨fun _ => Or.inr ⟨content, rfl, Or.inl hnot⟩, fun _ => ⟨_, rfl⟩⟩
    | ok text =>
      obtain rfl := ByteString.toText_eq_ok_iff.mp htext
      -- a text is refused by its lines alone, whatever the settings were before
      have hparse : (∃ e, (c.load text).mapError (ConfigFileError.malformed path) = .error e) ↔
          ∃ e, Ini.parse text = .error e := by
        rw [load]
        cases Ini.parse text with
        | error e => exact ⟨fun _ => ⟨e, rfl⟩, fun _ => ⟨_, rfl⟩⟩
        | ok ini => exact ⟨nofun, nofun⟩
      dsimp only
      rw [hparse, Ini.parse_refused_iff]
      constructor
      · exact fun h => Or.inr ⟨_, rfl, Or.inr ⟨text, rfl, h⟩⟩
      · rintro (⟨e, he⟩ | ⟨content, hcontent, hnot | ⟨text', htext', hfaulty⟩⟩)
        · cases he
        · cases hcontent
          exact absurd rfl (hnot text)
        · cases hcontent
          rwa [ByteString.ofText_inj.mp htext']

/-- Settings are loaded field by field, from the last values of their keys, or not at all. -/
theorem loading_overrides_field_by_field :
    MeaningLaw ∧ ∀ (c : Config) (files : FileTree) (path : String), LoadingLaw c files path := by
  refine ⟨meanings, fun c files path => ⟨refused_iff, ?_, ?_, ?_, ?_⟩⟩
  · rintro ⟨e, he⟩
    rw [loadedOver, he]
  · intro text hread loaded hloaded
    obtain ⟨text', ini, hread', hparse, rfl⟩ := loaded_iff.mp hloaded
    obtain rfl := text_of_read hread hread'
    refine ⟨by rw [loadedOver, hloaded], fun s => ⟨ini.get? s.home s.key, ?_, ?_⟩⟩
    · intro v?
      rw [Ini.last_value_iff hparse]
      exact eq_comm
    · exact override_setting c ini s
  · intro loaded hloaded
    obtain ⟨text, ini, hread, hparse, rfl⟩ := loaded_iff.mp hloaded
    refine loaded_iff.mpr ⟨text, ini, hread, hparse, eq_of_settings fun s => ?_⟩
    -- a value that has a meaning decides both times, and one without decides neither time
    rw [override_setting (c.override ini), override_setting c]
    cases (ini.get? s.home s.key).bind s.meaning <;> rfl
  · intro text hread d loaded loaded' hloaded hloaded' s value hvalue hmeaning
    obtain ⟨text', ini, hread', hparse, rfl⟩ := loaded_iff.mp hloaded
    obtain ⟨text'', ini', hread'', hparse', rfl⟩ := loaded_iff.mp hloaded'
    obtain rfl := text_of_read hread hread'
    obtain rfl := text_of_read hread hread''
    obtain rfl : ini = ini' := Except.ok.inj (hparse.symm.trans hparse')
    have hget : ini.get? s.home s.key = some value := (Ini.last_value_iff hparse).mp hvalue
    obtain ⟨v, hv⟩ := Option.ne_none_iff_exists'.mp hmeaning
    have hboth (e : Config) : Setting.of (e.override ini) s = v := by
      rw [override_setting, hget, Option.bind_some, hv, Option.getD_some]
    rw [hboth c, hboth d]

def twoFiles : FileTree :=
  (FileTree.empty.addFile ["whole.ini"] (.ofText ("[scripting]\nLanguage = fr\n[Console]\n" ++
    "capacity: 16 ; lines\n[SCRIPTING]\nlanguage ="))).addFile ["broken.ini"]
    (.ofText "[console]\ncapacity = 16\n[scripting")

/-- A language that is blank at last is not taken over; a capacity before a line that cannot be read
is not either. -/
theorem whole_file_loads_broken_file_does_not :
    (∃ loaded, Config.default.loadFile twoFiles "whole.ini" = .ok loaded ∧
      (loaded.language, loaded.consoleCapacity) = ("en", 16) ∧
      loaded.loadFile twoFiles "whole.ini" = .ok loaded) ∧
    (∃ e, Config.default.loadFile twoFiles "broken.ini" = .error e) ∧
      Config.default.loadedOver twoFiles "broken.ini" = .default := by
  have hwhole : (Config.default.loadFile twoFiles "whole.ini").map (fun c =>
      (c.language, c.consoleCapacity)) = .ok ("en", 16) := by
    decide
  have hbroken : (Config.default.loadFile twoFiles "broken.ini").toOption = none := by
    decide
  have hlaw (path : String) := loading_overrides_field_by_field.2 .default twoFiles path
  constructor
  · cases hload : Config.default.loadFile twoFiles "whole.ini" with
    | error e =>
      rw [hload] at hwhole
      cases hwhole
    | ok loaded =>
      rw [hload] at hwhole
      exact ⟨loaded, rfl, Except.ok.inj hwhole, (hlaw "whole.ini").settled loaded hload⟩
  · have hrefused : ∃ e, Config.default.loadFile twoFiles "broken.ini" = .error e := by
      cases hload : Config.default.loadFile twoFiles "broken.ini" with
      | error e => exact ⟨e, rfl⟩
      | ok loaded =>
        rw [hload] at hbroken
        cases hbroken
    exact ⟨hrefused, (hlaw "broken.ini").untouched hrefused⟩

end Config

end ScenarioHost
