import Mathlib.Tactic
import ScenarioHost.Proofs.SettingsFiles

/-!
The lines of any settings file. Each is one that the grammar of lines has, or it is faulty, and a
file is refused because of the first faulty one. What a file says of a key is what the last
assignment to it says.
-/
namespace ScenarioHost

namespace Ini

/-! Lines. -/

def said (raw : List Char) : List Char := trimChars (raw.takeWhile fun c => !isCommentMark c)

/-- The grammar of lines that a file may have. -/
inductive Spells : List Char → Line → Prop where
  | blank : Spells [] .blank
  | header {name rest : List Char} : ']' ∉ rest →
      Spells ('[' :: (name ++ ']' :: rest)) (.header (lowered (trimChars name)))
  | valueless {key : List Char} : key ≠ [] → key.head? ≠ some '[' →
      (∀ c ∈ key, isDelimiter c = false) → Spells key (.entry (lowered key) none)
  | entry {key value : List Char} {mark : Char} : key ≠ [] → key.head? ≠ some '[' →
      (∀ c ∈ key, isDelimiter c = false) → isDelimiter mark = true →
      Spells (key ++ mark :: value)
        (.entry (lowered (trimChars key)) (some (String.ofList (trimChars value))))

def Unclosed (raw : List Char) : Prop := ∃ rest, said raw = '[' :: rest ∧ ']' ∉ rest

def Nameless (raw : List Char) : Prop := ∃ mark value, said raw = mark :: value ∧ isDelimiter mark = true

def Faulty (raw : List Char) : Prop := Unclosed raw ∨ Nameless raw

theorem header_name_closed {name rest : List Char} (h : ']' ∉ rest) :
    headerName? (name ++ ']' :: rest) = some name := by
  have hskip : ∀ c ∈ rest.reverse, decide (c ≠ ']') = true := by
    intro c hc
    rw [decide_eq_true_eq]
    rintro rfl
    exact h (List.mem_reverse.mp hc)
  have hreverse : (name ++ ']' :: rest).reverse = rest.reverse ++ ']' :: name.reverse := by simp
  rw [headerName?, hreverse, List.dropWhile_append_of_pos hskip,
    List.dropWhile_cons_of_neg (by decide)]
  dsimp only
  rw [List.reverse_reverse]

theorem header_name_open {rest : List Char} (h : ']' ∉ rest) : headerName? rest = none := by
  have hskip : rest.reverse.dropWhile (· ≠ ']') = [] := by
    rw [List.dropWhile_eq_nil_iff]
    intro c hc
    rw [decide_eq_true_eq]
    rintro rfl
    exact h (List.mem_reverse.mp hc)
  rw [headerName?, hskip]

/-- A text with a bracket in it is cut at the last one. -/
theorem last_bracket {cs : List Char} (h : ']' ∈ cs) :
    ∃ name rest, cs = name ++ ']' :: rest ∧ ']' ∉ rest := by
  obtain ⟨rest, name, hreverse, hrest⟩ := List.eq_append_cons_of_mem (List.mem_reverse.mpr h)
  refine ⟨name.reverse, rest.reverse, ?_, fun hmem => hrest (List.mem_reverse.mp hmem)⟩
  have hcut := congrArg List.reverse hreverse
  rw [List.reverse_reverse, List.reverse_append, List.reverse_cons, List.append_assoc] at hcut
  exact hcut

theorem cut_at_delimiter {key : List Char} {mark : Char}
    (hkey : ∀ c ∈ key, isDelimiter c = false) (hmark : isDelimiter mark = true) (value : List Char) :
    ((key ++ mark :: value).takeWhile fun c => !isDelimiter c) = key ∧
      ((key ++ mark :: value).dropWhile fun c => !isDelimiter c) = mark :: value := by
  have hpass : ∀ c ∈ key, (!isDelimiter c) = true := by
    intro c hc
    rw [hkey c hc]
    rfl
  have hstop : (!isDelimiter mark) = false := by
    rw [hmark]
    rfl
  exact cut_at hpass hstop value

theorem trim_ne_nil {c : Char} {cs : List Char} (h : isBlank c = false) : trimChars (c :: cs) ≠ [] := by
  intro hnil
  have hblank := trim_eq_nil_iff.mp hnil c List.mem_cons_self
  rw [h] at hblank
  cases hblank

def readPlain (cs : List Char) : Line :=
  match cs.dropWhile fun c => !isDelimiter c with
  | [] => .entry (lowered cs) none
  | _ :: value =>
    match trimChars (cs.takeWhile fun c => !isDelimiter c) with
    | [] => .noKey
    | key => .entry (lowered key) (some (String.ofList (trimChars value)))

theorem read_line_said (raw : List Char) :
    readLine raw =
      match said raw with
      | [] => .blank
      | '[' :: rest =>
        match headerName? rest with
        | some name => .header (lowered (trimChars name))
        | none => .openHeader
      | cs => readPlain cs := rfl

theorem read_line_bracket {raw rest : List Char} (h : said raw = '[' :: rest) :
    readLine raw =
      match headerName? rest with
      | some name => .header (lowered (trimChars name))
      | none => .openHeader := by
  rw [read_line_said, h]
  rfl

theorem read_line_plain {raw : List Char} (hne : said raw ≠ []) (hhead : (said raw).head? ≠ some '[') :
    readLine raw = readPlain (said raw) := by
  rw [read_line_said]
  split
  · rename_i hnil
    exact absurd hnil hne
  · rename_i rest hbracket
    rw [hbracket] at hhead
    exact absurd rfl hhead
  · rfl

theorem read_plain_valueless {key : List Char} (h : ∀ c ∈ key, isDelimiter c = false) :
    readPlain key = .entry (lowered key) none := by
  have hdrop : (key.dropWhile fun c => !isDelimiter c) = [] := by
    rw [List.dropWhile_eq_nil_iff]
    intro c hc
    rw [h c hc]
    rfl
  rw [readPlain, hdrop]

theorem read_plain_entry {key value : List Char} {mark : Char}
    (hkey : ∀ c ∈ key, isDelimiter c = false) (hmark : isDelimiter mark = true)
    (hne : trimChars key ≠ []) :
    readPlain (key ++ mark :: value) =
      .entry (lowered (trimChars key)) (some (String.ofList (trimChars value))) := by
  obtain ⟨htake, hdrop⟩ := cut_at_delimiter hkey hmark value
  rw [readPlain, hdrop, htake]
  dsimp only
  split
  · rename_i hnil
    exact absurd hnil hne
  · rfl

theorem read_plain_nameless {value : List Char} {mark : Char} (hmark : isDelimiter mark = true) :
    readPlain (mark :: value) = .noKey := by
  have hnone : ∀ c ∈ ([] : List Char), isDelimiter c = false := by
    intro c hc
    cases hc
  obtain ⟨htake, hdrop⟩ := cut_at_delimiter hnone hmark value
  rw [List.nil_append] at htake hdrop
  rw [readPlain, hdrop, htake]
  rfl

/-- What the grammar says of a line is what is read. -/
theorem read_of_spells {raw : List Char} {line : Line} (h : Spells (said raw) line) :
    readLine raw = line := by
  have hunpadded : Unpadded (said raw) := unpadded_trim _
  generalize hcs : said raw = cs at h hunpadded
  cases h with
  | blank => rw [read_line_said, hcs]
  | header hrest =>
    rw [read_line_bracket hcs, header_name_closed hrest]
  | valueless hne hhead hkey =>
    rw [read_line_plain (hcs ▸ hne) (hcs ▸ hhead), hcs, read_plain_valueless hkey]
  | @entry key value mark hne hhead hkey hmark =>
    have hfirst : (key ++ mark :: value).head? = key.head? := List.head?_append_of_ne_nil key hne
    -- what a line says begins with no white space, so the key is not blank
    have hname : trimChars key ≠ [] := by
      cases key with
      | nil => exact absurd rfl hne
      | cons c key => exact trim_ne_nil (hunpadded.first c rfl)
    rw [read_line_plain (hcs ▸ List.append_ne_nil_of_left_ne_nil hne _) (hcs ▸ hfirst ▸ hhead), hcs,
      read_plain_entry hkey hmark hname]

theorem read_of_unclosed {raw : List Char} (h : Unclosed raw) : readLine raw = .openHeader := by
  obtain ⟨rest, hsaid, hrest⟩ := h
  rw [read_line_bracket hsaid, header_name_open hrest]

theorem read_of_nameless {raw : List Char} (h : Nameless raw) : readLine raw = .noKey := by
  obtain ⟨mark, value, hsaid, hmark⟩ := h
  have hbracket : mark ≠ '[' := by
    rintro rfl
    cases hmark
  have hhead : (said raw).head? ≠ some '[' := by
    rw [hsaid, List.head?_cons]
    exact fun heq => hbracket (Option.some.inj heq)
  rw [read_line_plain (hsaid ▸ List.cons_ne_nil mark value) hhead, hsaid, read_plain_nameless hmark]

/-- The grammar has each line, or the line is faulty. -/
theorem spells_or_fault (raw : List Char) :
    (∃ line, Spells (said raw) line) ∨ Unclosed raw ∨ Nameless raw := by
  unfold Unclosed Nameless
  cases hcs : said raw with
  | nil => exact Or.inl ⟨_, .blank⟩
  | cons c cs =>
    by_cases hbracket : c = '['
    · subst hbracket
      by_cases hclosed : ']' ∈ cs
      · obtain ⟨name, rest, rfl, hrest⟩ := last_bracket hclosed
        exact Or.inl ⟨_, .header hrest⟩
      · exact Or.inr (Or.inl ⟨cs, rfl, hclosed⟩)
    · have hhead : (c :: cs).head? ≠ some '[' := fun heq => hbracket (Option.some.inj heq)
      have hcut := List.takeWhile_append_dropWhile (p := fun c => !isDelimiter c) (l := c :: cs)
      have hkey : ∀ d ∈ (c :: cs).takeWhile fun c => !isDelimiter c, isDelimiter d = false := by
        intro d hd
        simpa using List.mem_takeWhile_imp hd
      generalize (c :: cs).takeWhile (fun c => !isDelimiter c) = key at hcut hkey
      have hmark := List.head?_dropWhile_not (fun c => !isDelimiter c) (c :: cs)
      cases hvalue : (c :: cs).dropWhile fun c => !isDelimiter c with
      | nil =>
        rw [hvalue, List.append_nil] at hcut
        rw [← hcut] at hhead ⊢
        exact Or.inl ⟨_, .valueless (hcut ▸ List.cons_ne_nil c cs) hhead hkey⟩
      | cons mark value =>
        rw [hvalue] at hcut hmark
        have hmark : isDelimiter mark = true := by simpa using hmark
        cases key with
        | nil => exact Or.inr (Or.inr ⟨mark, value, hcut.symm, hmark⟩)
        | cons d key =>
          rw [← hcut] at hhead ⊢
          exact Or.inl ⟨_, .entry (List.cons_ne_nil d key) hhead hkey hmark⟩

theorem not_nameless_of_unclosed {raw : List Char} (h : Unclosed raw) : ¬ Nameless raw := by
  intro hname
  have hread := (read_of_unclosed h).symm.trans (read_of_nameless hname)
  cases hread

theorem Spells.accepted {cs : List Char} {line : Line} (h : Spells cs line) :
    line ≠ .openHeader ∧ line ≠ .noKey := by
  cases h <;> exact ⟨nofun, nofun⟩

theorem read_entry_iff {raw : List Char} {key : String} {value : Option String} :
    readLine raw = .entry key value ↔ Spells (said raw) (.entry key value) := by
  constructor
  · intro h
    rcases spells_or_fault raw with ⟨line, hspells⟩ | hopen | hname
    · rwa [← h, read_of_spells hspells]
    · rw [read_of_unclosed hopen] at h
      cases h
    · rw [read_of_nameless hname] at h
      cases h
  · exact read_of_spells

theorem read_open_iff {raw : List Char} : readLine raw = .openHeader ↔ Unclosed raw := by
  constructor
  · intro h
    rcases spells_or_fault raw with ⟨line, hspells⟩ | hopen | hname
    · rw [read_of_spells hspells] at h
      exact absurd h hspells.accepted.1
    · exact hopen
    · rw [read_of_nameless hname] at h
      cases h
  · exact read_of_unclosed

theorem read_nameless_iff {raw : List Char} : readLine raw = .noKey ↔ Nameless raw := by
  constructor
  · intro h
    rcases spells_or_fault raw with ⟨line, hspells⟩ | hopen | hname
    · rw [read_of_spells hspells] at h
      exact absurd h hspells.accepted.2
    · rw [read_of_unclosed hopen] at h
      cases h
    · exact hname
  · exact read_of_nameless

/-! Files. -/

def linesOf (text : String) : List (List Char) := splitChars '\n' text.toList

def entered (section_ : String) (raw : List Char) : String :=
  match readLine raw with
  | .header name => name
  | _ => section_

def sectionAfter (before : List (List Char)) : String := before.foldl entered "default"

def Assigns (lines : List (List Char)) (place : Nat) (section_ key : String)
    (value? : Option String) : Prop :=
  ∃ raw, lines[place]? = some raw ∧ Spells (said raw) (.entry key value?) ∧
    sectionAfter (lines.take place) = section_

inductive LastValue (lines : List (List Char)) (section_ key : String) : Option String → Prop where
  | assigned {place : Nat} {value? : Option String} : Assigns lines place section_ key value? →
      (∀ later other, place < later → ¬ Assigns lines later section_ key other) →
      LastValue lines section_ key value?
  | absent : (∀ place value?, ¬ Assigns lines place section_ key value?) →
      LastValue lines section_ key none

inductive FirstFault : Nat → List (List Char) → IniError → Prop where
  | unclosed {line : Nat} {raw : List Char} {rest : List (List Char)} : Unclosed raw →
      FirstFault line (raw :: rest) (.openSection line)
  | nameless {line : Nat} {raw : List Char} {rest : List (List Char)} : Nameless raw →
      FirstFault line (raw :: rest) (.emptyKey line)
  | later {line : Nat} {raw : List Char} {rest : List (List Char)} {e : IniError} : ¬ Faulty raw →
      FirstFault (line + 1) rest e → FirstFault line (raw :: rest) e

def added (section_ : String) (raw : List Char) : Ini :=
  match readLine raw with
  | .entry key value => [⟨section_, key, value⟩]
  | _ => []

theorem read_lines_next {raw : List Char} (h : ¬ Faulty raw) (line : Nat) (section_ : String)
    (rest : List (List Char)) :
    readLines line section_ (raw :: rest) =
      (readLines (line + 1) (entered section_ raw) rest).map (added section_ raw ++ ·) := by
  have hsame (r : Except IniError Ini) : r.map (([] : Ini) ++ ·) = r := by
    cases r <;> rfl
  unfold entered added
  rw [readLines]
  cases hraw : readLine raw with
  | blank => rw [hsame]
  | header name => rw [hsame]
  | entry key value => rfl
  | openHeader => exact absurd (Or.inl (read_open_iff.mp hraw)) h
  | noKey => exact absurd (Or.inr (read_nameless_iff.mp hraw)) h

section FirstLine

variable {line : Nat} {raw : List Char} {rest : List (List Char)} {e : IniError}

theorem first_fault_unclosed_iff (hopen : Unclosed raw) :
    FirstFault line (raw :: rest) e ↔ e = .openSection line := by
  constructor
  · intro h
    cases h with
    | unclosed _ => rfl
    | nameless hname => exact absurd hname (not_nameless_of_unclosed hopen)
    | later hsound _ => exact absurd (Or.inl hopen) hsound
  · rintro rfl
    exact .unclosed hopen

theorem first_fault_nameless_iff (hname : Nameless raw) :
    FirstFault line (raw :: rest) e ↔ e = .emptyKey line := by
  constructor
  · intro h
    cases h with
    | unclosed hopen => exact absurd hname (not_nameless_of_unclosed hopen)
    | nameless _ => rfl
    | later hsound _ => exact absurd (Or.inr hname) hsound
  · rintro rfl
    exact .nameless hname

theorem first_fault_later_iff (hsound : ¬ Faulty raw) :
    FirstFault line (raw :: rest) e ↔ FirstFault (line + 1) rest e := by
  constructor
  · intro h
    cases h with
    | unclosed hopen => exact absurd (Or.inl hopen) hsound
    | nameless hname => exact absurd (Or.inr hname) hsound
    | later _ hrest => exact hrest
  · exact .later hsound

end FirstLine

/-- Reading stops at the first line that cannot be read, and only there. -/
theorem read_lines_error_iff {lines : List (List Char)} {line : Nat} {section_ : String}
    {e : IniError} : readLines line section_ lines = .error e ↔ FirstFault line lines e := by
  induction lines generalizing line section_ with
  | nil =>
    constructor <;> intro h <;> cases h
  | cons raw rest ih =>
    by_cases hfaulty : Faulty raw
    · rcases hfaulty with hopen | hname
      · rw [readLines, read_of_unclosed hopen, first_fault_unclosed_iff hopen, Except.error.injEq,
          eq_comm]
      · rw [readLines, read_of_nameless hname, first_fault_nameless_iff hname, Except.error.injEq,
          eq_comm]
    · have hmap (r : Except IniError Ini) (f : Ini → Ini) : r.map f = .error e ↔ r = .error e := by
        cases r with
        | error _ => exact Iff.rfl
        | ok _ => constructor <;> intro h <;> cases h
      rw [read_lines_next hfaulty, hmap, ih, first_fault_later_iff hfaulty]

theorem first_fault_iff (lines : List (List Char)) (line : Nat) :
    (∃ e, FirstFault line lines e) ↔ ∃ raw ∈ lines, Faulty raw := by
  constructor
  · rintro ⟨e, h⟩
    induction h with
    | unclosed hopen => exact ⟨_, List.mem_cons_self, Or.inl hopen⟩
    | nameless hname => exact ⟨_, List.mem_cons_self, Or.inr hname⟩
    | later _ _ ih =>
      obtain ⟨raw, hmem, hfaulty⟩ := ih
      exact ⟨raw, List.mem_cons_of_mem _ hmem, hfaulty⟩
  · rintro ⟨raw, hmem, hfaulty⟩
    induction lines generalizing line with
    | nil => cases hmem
    | cons first rest ih =>
      by_cases hfirst : Faulty first
      · rcases hfirst with hopen | hname
        · exact ⟨_, .unclosed hopen⟩
        · exact ⟨_, .nameless hname⟩
      · rcases List.mem_cons.mp hmem with rfl | hlater
        · exact absurd hfaulty hfirst
        · obtain ⟨e, he⟩ := ih (line + 1) hlater
          exact ⟨e, .later hfirst he⟩

/-- A file is refused because of any line of it that cannot be read, and for nothing else. -/
theorem parse_refused_iff (text : String) :
    (∃ e, parse text = .error e) ↔ ∃ raw ∈ linesOf text, Faulty raw := by
  rw [← first_fault_iff _ 1]
  exact exists_congr fun e => read_lines_error_iff

/-! Last values. -/

theorem read_lines_append {front : List (List Char)} (hsound : ∀ raw ∈ front, ¬ Faulty raw)
    (back : List (List Char)) (line : Nat) (section_ : String) :
    ∃ ini, readLines line section_ front = .ok ini ∧
      readLines line section_ (front ++ back) =
        (readLines (line + front.length) (front.foldl entered section_) back).map (ini ++ ·) := by
  induction front generalizing line section_ with
  | nil =>
    refine ⟨[], rfl, ?_⟩
    change readLines line section_ back = (readLines line section_ back).map (([] : Ini) ++ ·)
    cases readLines line section_ back <;> rfl
  | cons raw front ih =>
    have hraw : ¬ Faulty raw := hsound raw List.mem_cons_self
    obtain ⟨ini, hfront, hall⟩ := ih (fun r hr => hsound r (List.mem_cons_of_mem raw hr)) (line + 1)
      (entered section_ raw)
    refine ⟨added section_ raw ++ ini, ?_, ?_⟩
    · rw [read_lines_next hraw, hfront]
      rfl
    · rw [List.cons_append, read_lines_next hraw, hall, List.length_cons, List.foldl_cons,
        Nat.add_comm front.length 1, ← Nat.add_assoc]
      cases readLines (line + 1 + front.length) (front.foldl entered (entered section_ raw)) back with
      | error e => rfl
      | ok after => exact congrArg Except.ok (List.append_assoc _ _ _).symm

theorem get_concat (ini : Ini) (e : IniEntry) (section_ key : String) :
    get? (ini ++ [e]) section_ key =
      if e.section_ = section_ ∧ e.key = key then e.value else get? ini section_ key := by
  unfold get?
  rw [List.findRev?_eq_find?_reverse, List.findRev?_eq_find?_reverse, List.reverse_concat,
    List.find?_cons]
  by_cases h : e.section_ = section_ ∧ e.key = key
  · rw [decide_eq_true h, if_pos h]
    rfl
  · rw [decide_eq_false h, if_neg h]

variable {lines front : List (List Char)} {raw : List Char} {section_ key : String}
  {value? other? : Option String}

theorem Assigns.inj {place : Nat} (h : Assigns lines place section_ key value?)
    (h' : Assigns lines place section_ key other?) : value? = other? := by
  obtain ⟨raw, hraw, hspells, -⟩ := h
  obtain ⟨raw', hraw', hspells', -⟩ := h'
  obtain rfl : raw = raw' := Option.some.inj (hraw.symm.trans hraw')
  have hline := (read_of_spells hspells).symm.trans (read_of_spells hspells')
  injection hline

/-- There is one last value. -/
theorem LastValue.inj (h : LastValue lines section_ key value?)
    (h' : LastValue lines section_ key other?) : value? = other? := by
  cases h with
  | @assigned place _ hplace hlast =>
    cases h' with
    | @assigned place' _ hplace' hlast' =>
      obtain hlt | rfl | hgt := Nat.lt_trichotomy place place'
      · exact absurd hplace' (hlast place' other? hlt)
      · exact hplace.inj hplace'
      · exact absurd hplace (hlast' place value? hgt)
    | absent hnone => exact absurd hplace (hnone place value?)
  | absent hnone =>
    cases h' with
    | @assigned place' _ hplace' _ => exact absurd hplace' (hnone place' other?)
    | absent _ => rfl

theorem assigns_concat {place : Nat} :
    Assigns (front ++ [raw]) place section_ key value? ↔
      Assigns front place section_ key value? ∨
        place = front.length ∧ Spells (said raw) (.entry key value?) ∧ sectionAfter front = section_ := by
  unfold Assigns
  obtain hlt | rfl | hgt := Nat.lt_trichotomy place front.length
  · rw [List.getElem?_append_left hlt, List.take_append_of_le_length hlt.le]
    exact ⟨Or.inl, fun h => h.resolve_right fun hend => hlt.ne hend.1⟩
  · have hend : (front ++ [raw])[front.length]? = some raw := List.getElem?_concat_length
    have hnone : front[front.length]? = none := List.getElem?_eq_none le_rfl
    rw [hend, hnone, List.take_left]
    constructor
    · rintro ⟨raw', hraw, hspells⟩
      cases hraw
      exact Or.inr ⟨rfl, hspells⟩
    · rintro (⟨_, hraw, _⟩ | ⟨-, hspells⟩)
      · cases hraw
      · exact ⟨raw, rfl, hspells⟩
  · have hpast : (front ++ [raw])[place]? = none := by
      rw [List.getElem?_eq_none_iff, List.length_append, List.length_singleton]
      exact hgt
    rw [hpast, List.getElem?_eq_none hgt.le]
    constructor
    · rintro ⟨_, hraw, _⟩
      cases hraw
    · rintro (⟨_, hraw, _⟩ | ⟨hplace, -⟩)
      · cases hraw
      · exact absurd hplace hgt.ne'

/-- A line that does not assign to a key leaves its last value as it is. -/
theorem LastValue.concat (h : LastValue front section_ key value?)
    (hother : ∀ value?, ¬ (Spells (said raw) (.entry key value?) ∧ sectionAfter front = section_)) :
    LastValue (front ++ [raw]) section_ key value? := by
  have hsame (place : Nat) (v? : Option String) :
      Assigns (front ++ [raw]) place section_ key v? ↔ Assigns front place section_ key v? := by
    rw [assigns_concat]
    exact or_iff_left fun hend => hother v? hend.2
  cases h with
  | assigned hplace hlast =>
    exact .assigned ((hsame _ _).mpr hplace) fun later v? hlater hassigns =>
      hlast later v? hlater ((hsame later v?).mp hassigns)
  | absent hnone => exact .absent fun place v? hassigns => hnone place v? ((hsame place v?).mp hassigns)

/-- An assignment on the last line is the last one. -/
theorem LastValue.of_last (hspells : Spells (said raw) (.entry key value?)) :
    LastValue (front ++ [raw]) (sectionAfter front) key value? := by
  refine .assigned (assigns_concat.mpr (Or.inr ⟨rfl, hspells, rfl⟩)) ?_
  rintro later other hlater ⟨raw', hraw, -⟩
  have hpast : (front ++ [raw])[later]? = none := by
    rw [List.getElem?_eq_none_iff, List.length_append, List.length_singleton]
    exact hlater
  rw [hpast] at hraw
  cases hraw

/-- A line that does not assign to a key adds nothing that is found for it. -/
theorem get_added_other (ini : Ini)
    (hother : ∀ value?, ¬ (Spells (said raw) (.entry key value?) ∧ sectionAfter front = section_)) :
    get? (ini ++ added (sectionAfter front) raw) section_ key = get? ini section_ key := by
  cases hraw : readLine raw with
  | entry key' v? =>
    have hdifferent : ¬ (sectionAfter front = section_ ∧ key' = key) := by
      rintro ⟨hsection, rfl⟩
      exact hother v? ⟨read_entry_iff.mp hraw, hsection⟩
    rw [added, hraw, get_concat, if_neg hdifferent]
  | _ => rw [added, hraw, List.append_nil]

/-- A file without faults is read as its lines but the last one are, and then the last one. -/
theorem read_lines_concat {ini : Ini} (h : readLines 1 "default" (front ++ [raw]) = .ok ini) :
    ∃ before, readLines 1 "default" front = .ok before ∧
      ini = before ++ added (sectionAfter front) raw := by
  have hsound : ∀ r ∈ front ++ [raw], ¬ Faulty r := by
    intro r hr hfaulty
    obtain ⟨e, he⟩ := (first_fault_iff (front ++ [raw]) 1).mpr ⟨r, hr, hfaulty⟩
    rw [read_lines_error_iff.mpr he] at h
    cases h
  obtain ⟨before, hbefore, hall⟩ := read_lines_append
    (fun r hr => hsound r (List.mem_append_left _ hr)) [raw] 1 "default"
  have hlast : readLines (1 + front.length) (sectionAfter front) [raw] =
      .ok (added (sectionAfter front) raw) := by
    rw [read_lines_next (hsound raw (List.mem_append_right _ List.mem_cons_self)), readLines]
    exact congrArg Except.ok (List.append_nil _)
  refine ⟨before, hbefore, ?_⟩
  rw [h, show front.foldl entered "default" = sectionAfter front from rfl, hlast] at hall
  exact Except.ok.inj hall

theorem last_value_read {ini : Ini} (h : readLines 1 "default" lines = .ok ini) :
    LastValue lines section_ key (get? ini section_ key) := by
  -- on the lines from the last one backwards, as the last assignment is the one that counts
  induction lines using List.reverseRecOn generalizing ini with
  | nil =>
    cases h
    refine .absent ?_
    rintro place value? ⟨raw, hraw, -⟩
    cases hraw
  | append_singleton front raw ih =>
    obtain ⟨before, hbefore, rfl⟩ := read_lines_concat h
    by_cases hentry : ∃ v?, Spells (said raw) (.entry key v?) ∧ sectionAfter front = section_
    · obtain ⟨v?, hspells, rfl⟩ := hentry
      rw [added, read_of_spells hspells, get_concat, if_pos ⟨rfl, rfl⟩]
      exact .of_last hspells
    · have hother := fun v? => not_exists.mp hentry v?
      rw [get_added_other before hother]
      exact (ih hbefore).concat hother

/-- What is found for a key in a file is its last value. -/
theorem last_value_iff {text : String} {ini : Ini} (h : parse text = .ok ini) :
    LastValue (linesOf text) section_ key value? ↔ get? ini section_ key = value? := by
  have hfound : LastValue (linesOf text) section_ key (get? ini section_ key) := last_value_read h
  constructor
  · exact hfound.inj
  · rintro rfl
    exact hfound

end Ini

end ScenarioHost
