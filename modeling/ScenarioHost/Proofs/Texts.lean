import Mathlib.Data.List.DropRight
import ScenarioHost.Text.Blank

/-!
Texts that are trimmed, split at a separator and joined again. Joining items and splitting the
result gives the items back when none of them has the separator or white space at its ends.
-/
namespace ScenarioHost

theorem toNat_char_of_valid {n : Nat} (h : n.isValidChar) : (Char.ofNat n).toNat = n := by
  rw [Char.ofNat, dif_pos h]
  rfl

theorem toNat_char_ofNat {n : Nat} (h : n < 0xD800) : (Char.ofNat n).toNat = n :=
  toNat_char_of_valid (Or.inl h)

theorem is_lower_iff (c : Char) : c.isLower = true ↔ 97 ≤ c.toNat ∧ c.toNat ≤ 122 := by
  change (decide ('a'.val ≤ c.val) && decide (c.val ≤ 'z'.val)) = true ↔ _
  rw [Bool.and_eq_true, decide_eq_true_eq, decide_eq_true_eq]
  exact Iff.rfl

theorem is_upper_iff (c : Char) : c.isUpper = true ↔ 65 ≤ c.toNat ∧ c.toNat ≤ 90 := by
  change decide ('A'.val ≤ c.val ∧ c.val ≤ 'Z'.val) = true ↔ _
  rw [decide_eq_true_eq]
  exact Iff.rfl

structure Unpadded (cs : List Char) : Prop where
  first : ∀ c, cs.head? = some c → isBlank c = false
  last : ∀ c, cs.getLast? = some c → isBlank c = false

theorem unpadded_nil : Unpadded [] := by
  constructor <;> intro c hc <;> cases hc

/-! Trimming. -/

theorem trim_chars_eq (cs : List Char) : trimChars cs = (cs.dropWhile isBlank).rdropWhile isBlank := rfl

theorem trim_unpadded {cs : List Char} (h : Unpadded cs) : trimChars cs = cs := by
  have hfront : cs.dropWhile isBlank = cs := by
    cases cs with
    | nil => rfl
    | cons c cs =>
      have hc : isBlank c = false := h.first c rfl
      exact List.dropWhile_cons_of_neg (by rw [hc]; exact Bool.false_ne_true)
  rw [trim_chars_eq, hfront, List.rdropWhile_eq_self_iff]
  intro hne
  have hlast : isBlank (cs.getLast hne) = false := h.last _ (List.getLast?_eq_getLast_of_ne_nil hne)
  rw [hlast]
  exact Bool.false_ne_true

theorem unpadded_trim (cs : List Char) : Unpadded (trimChars cs) := by
  rw [trim_chars_eq]
  constructor
  · intro c hc
    -- the last blanks are dropped from a text that begins with no blank
    obtain ⟨rest, hrest⟩ := List.rdropWhile_prefix isBlank (cs.dropWhile isBlank)
    have hhead : (cs.dropWhile isBlank).head? = some c := by
      rw [← hrest, List.head?_append, hc, Option.some_or]
    have hnot := List.head?_dropWhile_not isBlank cs
    rw [hhead] at hnot
    exact hnot
  · intro c hc
    obtain ⟨hne, rfl⟩ := List.mem_getLast?_eq_getLast hc
    exact Bool.eq_false_iff.mpr (List.rdropWhile_last_not isBlank _ hne)

theorem mem_of_mem_trim {c : Char} {cs : List Char} (h : c ∈ trimChars cs) : c ∈ cs := by
  have hdropped := (List.rdropWhile_prefix isBlank (cs.dropWhile isBlank)).subset h
  exact (List.dropWhile_suffix isBlank).subset hdropped

/-- Nothing is left of blanks, and something of any other text. -/
theorem trim_eq_nil_iff {cs : List Char} : trimChars cs = [] ↔ ∀ c ∈ cs, isBlank c = true := by
  rw [trim_chars_eq, List.rdropWhile_eq_nil_iff]
  constructor
  · intro hrest c hc
    by_contra hnot
    -- what is not blank is among the rest, or the rest begins with another such character
    have hne : cs.dropWhile isBlank ≠ [] := fun hnil => hnot (List.dropWhile_eq_nil_iff.mp hnil c hc)
    have hhead := List.head_dropWhile_not isBlank hne
    rw [hrest _ (List.head_mem hne)] at hhead
    cases hhead
  · intro hall c hc
    exact hall c ((List.dropWhile_suffix isBlank).subset hc)

theorem trim_cons_blank {c : Char} (h : isBlank c = true) (cs : List Char) :
    trimChars (c :: cs) = trimChars cs := by
  rw [trim_chars_eq, trim_chars_eq, List.dropWhile_cons_of_pos h]

/-! Splitting. -/

/-- A text is cut at its first character of some kind. -/
theorem cut_at {p : Char → Bool} {front : List Char} {mark : Char} (hfront : ∀ c ∈ front, p c = true)
    (hmark : p mark = false) (rest : List Char) :
    (front ++ mark :: rest).takeWhile p = front ∧
      (front ++ mark :: rest).dropWhile p = mark :: rest := by
  have hstop : ¬ p mark = true := Bool.eq_false_iff.mp hmark
  constructor
  · rw [List.takeWhile_append_of_pos hfront, List.takeWhile_cons_of_neg hstop, List.append_nil]
  · rw [List.dropWhile_append_of_pos hfront, List.dropWhile_cons_of_neg hstop]

theorem split_chars_eq (separator : Char) (cs : List Char) :
    splitChars separator cs = cs.splitOn separator := by
  induction cs with
  | nil => rw [splitChars, List.splitOn_nil]
  | cons c cs ih =>
    rw [splitChars, List.splitOn_cons_eq_if_modifyHead, ih]
    by_cases hc : c = separator
    · rw [if_pos hc, if_pos (beq_iff_eq.mpr hc)]
    · rw [if_neg hc, if_neg fun h => hc (beq_iff_eq.mp h)]
      cases hparts : cs.splitOn separator with
      | nil => exact absurd hparts (List.splitOn_ne_nil separator cs)
      | cons part parts => rfl

/-- There is a first part, also of the empty text. -/
theorem split_eq_cons (separator : Char) (cs : List Char) :
    ∃ first rest, splitChars separator cs = first :: rest := by
  rw [split_chars_eq]
  exact List.exists_cons_of_ne_nil (List.splitOn_ne_nil separator cs)

theorem split_append (separator : Char) (front rest : List Char) :
    splitChars separator (front ++ separator :: rest) =
      splitChars separator front ++ splitChars separator rest := by
  rw [split_chars_eq, List.splitOn_append_cons_self, ← split_chars_eq, ← split_chars_eq]

/-- No part has the separator, and all its characters come from the text. -/
theorem mem_of_mem_split {separator c : Char} {cs part : List Char}
    (hpart : part ∈ splitChars separator cs) (hc : c ∈ part) : c ∈ cs ∧ c ≠ separator := by
  induction cs generalizing part with
  | nil =>
    rw [splitChars, List.mem_singleton] at hpart
    rw [hpart] at hc
    cases hc
  | cons d cs ih =>
    rw [split_chars_eq, List.splitOn_cons_eq_if_modifyHead, ← split_chars_eq] at hpart
    -- the character in front begins a new part, or it is put before the first one
    by_cases hd : d = separator
    · rw [if_pos (beq_iff_eq.mpr hd), List.mem_cons] at hpart
      obtain rfl | hpart := hpart
      · cases hc
      · obtain ⟨hmem, hne⟩ := ih hpart hc
        exact ⟨List.mem_cons_of_mem d hmem, hne⟩
    · rw [if_neg fun h => hd (beq_iff_eq.mp h)] at hpart
      cases hparts : splitChars separator cs with
      | nil =>
        rw [hparts] at hpart
        cases hpart
      | cons first rest =>
        rw [hparts, List.modifyHead_cons, List.mem_cons] at hpart
        rw [hparts] at ih
        obtain rfl | hpart := hpart
        · rw [List.mem_cons] at hc
          obtain rfl | hc := hc
          · exact ⟨List.mem_cons_self, hd⟩
          · obtain ⟨hmem, hne⟩ := ih List.mem_cons_self hc
            exact ⟨List.mem_cons_of_mem d hmem, hne⟩
        · obtain ⟨hmem, hne⟩ := ih (List.mem_cons_of_mem first hpart) hc
          exact ⟨List.mem_cons_of_mem d hmem, hne⟩

/-- Lines that each end in a separator are followed by one empty part. -/
theorem split_terminated (separator : Char) (lines : List (List Char))
    (h : ∀ line ∈ lines, separator ∉ line) :
    splitChars separator (lines.flatMap fun line => line ++ [separator]) = lines ++ [[]] := by
  induction lines with
  | nil => rfl
  | cons line lines ih =>
    have hline := h line List.mem_cons_self
    have hrest := ih fun other hother => h other (List.mem_cons_of_mem line hother)
    rw [split_chars_eq] at hrest ⊢
    rw [List.flatMap_cons, List.append_assoc, List.singleton_append,
      List.splitOn_append_cons_self_of_not_mem hline, hrest, List.cons_append]

/-! Joining. -/

theorem toList_joined (separator : String) (parts : List String) :
    (joined separator parts).toList = separator.toList.intercalate (parts.map String.toList) :=
  String.toList_intercalate

theorem intercalate_ne_nil {separator item : List Char} {items : List (List Char)}
    (h : item ≠ []) : separator.intercalate (item :: items) ≠ [] := by
  cases items with
  | nil => rwa [List.intercalate_singleton]
  | cons next items =>
    rw [List.intercalate_cons_cons]
    simp only [ne_eq, List.append_eq_nil_iff, h, false_and, not_false_iff]

theorem mem_of_mem_intercalate {c : Char} {separator : List Char} {items : List (List Char)}
    (h : c ∈ separator.intercalate items) : c ∈ separator ∨ ∃ item ∈ items, c ∈ item := by
  induction items with
  | nil => cases h
  | cons item items ih =>
    cases items with
    | nil =>
      rw [List.intercalate_singleton] at h
      exact Or.inr ⟨item, List.mem_cons_self, h⟩
    | cons next items =>
      rw [List.intercalate_cons_cons, List.mem_append, List.mem_append] at h
      obtain (h | h) | h := h
      · exact Or.inr ⟨item, List.mem_cons_self, h⟩
      · exact Or.inl h
      · refine (ih h).imp id ?_
        rintro ⟨other, hother, hc⟩
        exact ⟨other, List.mem_cons_of_mem item hother, hc⟩

theorem unpadded_intercalate (separator : List Char) {items : List (List Char)}
    (h : ∀ item ∈ items, item ≠ [] ∧ Unpadded item) : Unpadded (separator.intercalate items) := by
  induction items with
  | nil => exact unpadded_nil
  | cons item items ih =>
    obtain ⟨hne, hitem⟩ := h item List.mem_cons_self
    cases items with
    | nil => rwa [List.intercalate_singleton]
    | cons next items =>
      have hrest := ih fun other hother => h other (List.mem_cons_of_mem item hother)
      have hnext : next ≠ [] := (h next (List.mem_cons_of_mem item List.mem_cons_self)).1
      have hne' : separator.intercalate (next :: items) ≠ [] := intercalate_ne_nil hnext
      rw [List.intercalate_cons_cons]
      constructor
      · intro c hc
        rw [List.append_assoc, List.head?_append_of_ne_nil _ hne] at hc
        exact hitem.first c hc
      · intro c hc
        rw [List.getLast?_append_of_ne_nil _ hne'] at hc
        exact hrest.last c hc

/-- Items joined by a comma and a space are the trimmed parts between the commas. -/
theorem split_joined {items : List (List Char)} (hne : items ≠ [])
    (h : ∀ item ∈ items, Unpadded item ∧ ',' ∉ item) :
    (splitChars ',' ([',', ' '].intercalate items)).map trimChars = items := by
  have hspace : isBlank ' ' = true := by decide
  induction items with
  | nil => exact absurd rfl hne
  | cons item items ih =>
    obtain ⟨hitem, hcomma⟩ := h item List.mem_cons_self
    have htrim : trimChars item = item := trim_unpadded hitem
    cases items with
    | nil =>
      rw [List.intercalate_singleton, split_chars_eq, List.splitOn_eq_singleton hcomma,
        List.map_singleton, htrim]
    | cons next items =>
      have hrest := ih (List.cons_ne_nil next items)
        fun other hother => h other (List.mem_cons_of_mem item hother)
      have hspaced : (' ' == ',') = false := by decide
      rw [split_chars_eq] at hrest ⊢
      rw [List.intercalate_cons_cons, List.append_assoc, List.cons_append, List.cons_append,
        List.nil_append, List.splitOn_append_cons_self_of_not_mem hcomma, List.map_cons, htrim,
        List.splitOn_cons_eq_if_modifyHead, hspaced, if_neg Bool.false_ne_true]
      -- the space in front of the next item is trimmed off
      cases hparts : ([',', ' '].intercalate (next :: items)).splitOn ',' with
      | nil => exact absurd hparts (List.splitOn_ne_nil ',' _)
      | cons part parts =>
        rw [hparts, List.map_cons] at hrest
        rw [List.modifyHead_cons, List.map_cons, trim_cons_blank hspace, hrest]

end ScenarioHost
