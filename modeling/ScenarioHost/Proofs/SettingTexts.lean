import Mathlib.Data.List.Basic
import ScenarioHost.CommandLine
import ScenarioHost.Proofs.CatalogWrites
import ScenarioHost.Proofs.Texts

/-!
Texts of settings. Such a text says of a key what stands after the first `=`, and it can be read if
there is a key before that. Of several texts about a key the last one counts.
-/
namespace ScenarioHost

open Bindings (last?)

namespace CommandLine

/-- A text gives a key a value. The key is what stands before the first `=`, but for white space at
both ends; the value is all that follows. -/
def Assigns (raw key value : String) : Prop :=
  ∃ before : List Char, raw.toList = before ++ '=' :: value.toList ∧ '=' ∉ before ∧
    trimmed (String.ofList before) = key

def NamesKey (raw : String) : Prop :=
  ∃ before value : List Char, raw.toList = before ++ '=' :: value ∧ '=' ∉ before ∧
    ∃ c ∈ before, isBlank c = false

/-- What the last one of some texts about a key says; nothing if none is about it. -/
inductive LastSetting (texts : List String) (key : String) : Option String → Prop where
  | assigned {earlier later : List String} {raw value : String} :
      texts = earlier ++ raw :: later → Assigns raw key value →
      (∀ r ∈ later, ∀ other, ¬ Assigns r key other) → LastSetting texts key (some value)
  | absent : (∀ r ∈ texts, ∀ other, ¬ Assigns r key other) → LastSetting texts key none

theorem cut_at_equals {front : List Char} (h : '=' ∉ front) (rest : List Char) :
    (front ++ '=' :: rest).takeWhile (· ≠ '=') = front ∧
      (front ++ '=' :: rest).dropWhile (· ≠ '=') = '=' :: rest := by
  have hfront : ∀ c ∈ front, decide (c ≠ '=') = true := by
    intro c hc
    exact decide_eq_true (ne_of_mem_of_not_mem hc h)
  exact cut_at hfront (decide_eq_false (not_not_intro rfl)) rest

theorem uncut_at_equals {cs : List Char} (h : '=' ∉ cs) :
    cs.takeWhile (· ≠ '=') = cs ∧ cs.dropWhile (· ≠ '=') = [] := by
  have hall : ∀ c ∈ cs, decide (c ≠ '=') = true := by
    intro c hc
    exact decide_eq_true (ne_of_mem_of_not_mem hc h)
  exact ⟨List.takeWhile_eq_self_iff.mpr hall, List.dropWhile_eq_nil_iff.mpr hall⟩

variable {raw key value : String}

theorem Assigns.parse (h : Assigns raw key value) :
    parseSetting raw =
      if key.isEmpty then .error ("empty setting key in \x60" ++ raw ++ "\x60")
      else .ok (key, value) := by
  obtain ⟨before, hraw, hbefore, rfl⟩ := h
  obtain ⟨htake, hdrop⟩ := cut_at_equals hbefore value.toList
  unfold parseSetting
  dsimp only
  rw [hraw, hdrop, htake]
  dsimp only
  rw [String.ofList_toList]

/-- Without an `=` there is nothing to be read. -/
theorem parse_unassigned (h : '=' ∉ raw.toList) :
    parseSetting raw = .error ("expected KEY=VALUE, got \x60" ++ raw ++ "\x60") := by
  unfold parseSetting
  dsimp only
  rw [(uncut_at_equals h).2]

/-- Every text with an `=` gives some key some value. -/
theorem exists_assigns (h : '=' ∈ raw.toList) : ∃ key value, Assigns raw key value := by
  obtain ⟨before, value, hraw, hbefore⟩ := List.eq_append_cons_of_mem h
  refine ⟨_, String.ofList value, before, ?_, hbefore, rfl⟩
  rw [hraw, String.toList_ofList]

theorem parse_setting_ok_iff :
    parseSetting raw = .ok (key, value) ↔ Assigns raw key value ∧ key ≠ "" := by
  constructor
  · intro h
    have hmem : '=' ∈ raw.toList := by
      by_contra hnot
      rw [parse_unassigned hnot] at h
      cases h
    obtain ⟨key', value', hassigns⟩ := exists_assigns hmem
    rw [hassigns.parse] at h
    split at h
    · cases h
    · rename_i hkey
      obtain ⟨rfl, rfl⟩ := Prod.mk.inj (Except.ok.inj h)
      exact ⟨hassigns, mt String.isEmpty_iff.mpr hkey⟩
  · rintro ⟨hassigns, hkey⟩
    rw [hassigns.parse, if_neg (mt String.isEmpty_iff.mp hkey)]

/-- The texts that can be read are those that name a key. -/
theorem names_key_iff : NamesKey raw ↔ ∃ setting, parseSetting raw = .ok setting := by
  have hblank (before : List Char) :
      trimmed (String.ofList before) ≠ "" ↔ ∃ c ∈ before, isBlank c = false := by
    rw [trimmed, String.toList_ofList, ne_eq, String.ofList_eq_empty_iff, trim_eq_nil_iff]
    simp only [not_forall, Bool.not_eq_true, exists_prop]
  constructor
  · rintro ⟨before, value, hraw, hbefore, hnamed⟩
    refine ⟨(_, String.ofList value), parse_setting_ok_iff.mpr ⟨⟨before, ?_, hbefore, rfl⟩, ?_⟩⟩
    · rw [hraw, String.toList_ofList]
    · exact (hblank before).mpr hnamed
  · rintro ⟨⟨key, value⟩, hsetting⟩
    obtain ⟨⟨before, hraw, hbefore, rfl⟩, hkey⟩ := parse_setting_ok_iff.mp hsetting
    exact ⟨before, value.toList, hraw, hbefore, (hblank before).mp hkey⟩

/-- A text that can be read is about one key only. -/
theorem assigns_iff {setting : String × String} (h : parseSetting raw = .ok setting) :
    Assigns raw key value ↔ setting = (key, value) := by
  constructor
  · intro hassigns
    rw [hassigns.parse] at h
    split at h
    · cases h
    · exact (Except.ok.inj h).symm
  · rintro rfl
    exact (parse_setting_ok_iff.mp h).1

/-! Lists of texts. -/

/-- There is an answer for each key. -/
theorem exists_last_setting (texts : List String) (key : String) :
    ∃ value?, LastSetting texts key value? := by
  -- on the texts from the first one, which counts only if no later one is about the key
  induction texts with
  | nil => exact ⟨none, .absent fun r hr => absurd hr List.not_mem_nil⟩
  | cons raw texts ih =>
    obtain ⟨_, hlast⟩ := ih
    cases hlast with
    | @assigned earlier later r value htexts hassigns hlater =>
      have hlonger : raw :: texts = (raw :: earlier) ++ r :: later := by
        rw [htexts, List.cons_append]
      exact ⟨some value, .assigned hlonger hassigns hlater⟩
    | absent hunsaid =>
      by_cases hraw : ∃ value, Assigns raw key value
      · obtain ⟨value, hassigns⟩ := hraw
        exact ⟨some value, .assigned (List.nil_append _).symm hassigns hunsaid⟩
      · exact ⟨none, .absent (List.forall_mem_cons.mpr ⟨not_exists.mp hraw, hunsaid⟩)⟩

def ReadAs (texts : List String) (settings : List (String × String)) : Prop :=
  texts.map parseSetting = settings.map Except.ok

namespace ReadAs

variable {texts : List String} {settings : List (String × String)}

theorem exists_of_mem (h : ReadAs texts settings) (hraw : raw ∈ texts) :
    ∃ setting ∈ settings, parseSetting raw = .ok setting := by
  have hmem : parseSetting raw ∈ settings.map Except.ok := h ▸ List.mem_map_of_mem hraw
  obtain ⟨setting, hsetting, hread⟩ := List.mem_map.mp hmem
  exact ⟨setting, hsetting, hread.symm⟩

theorem names_key (h : ReadAs texts settings) : ∀ raw ∈ texts, NamesKey raw := by
  intro raw hraw
  obtain ⟨setting, -, hread⟩ := h.exists_of_mem hraw
  exact names_key_iff.mpr ⟨setting, hread⟩

/-- Nothing is found for a key that no text is about. -/
theorem unsaid_iff (h : ReadAs texts settings) :
    (∀ r ∈ texts, ∀ other, ¬ Assigns r key other) ↔ last? settings key = none := by
  have hnone : last? settings key = none ↔ ∀ e ∈ settings, e.1 ≠ key := by
    rw [last?, Bindings.get?, Option.map_eq_none_iff, List.find?_eq_none]
    simp only [List.mem_reverse, decide_eq_true_eq, ne_eq]
  rw [hnone]
  constructor
  · intro hunsaid e he hkey
    have hmem : Except.ok e ∈ texts.map parseSetting := h ▸ List.mem_map_of_mem he
    obtain ⟨raw, hraw, hsetting⟩ := List.mem_map.mp hmem
    exact hunsaid raw hraw e.2 ((assigns_iff hsetting).mpr (Prod.ext hkey rfl))
  · intro hothers raw hraw other hassigns
    obtain ⟨e, he, hread⟩ := h.exists_of_mem hraw
    obtain rfl : e = (key, other) := (assigns_iff hread).mp hassigns
    exact hothers _ he rfl

theorem of_append {earlier later : List String}
    (h : ReadAs (earlier ++ raw :: later) settings) :
    ∃ before setting after, settings = before ++ setting :: after ∧
      parseSetting raw = .ok setting ∧ ReadAs later after := by
  obtain ⟨before, rest, rfl, -, hrest⟩ := List.append_eq_map_iff.mp ((List.map_append ..).symm.trans h)
  obtain ⟨setting, after, rfl, hraw, hafter⟩ := List.map_eq_cons_iff.mp hrest
  exact ⟨before, setting, after, rfl, hraw.symm, hafter.symm⟩

theorem found (h : ReadAs texts settings) {value? : Option String}
    (hlast : LastSetting texts key value?) : last? settings key = value? := by
  cases hlast with
  | @assigned earlier later raw value htexts hassigns hlater =>
    subst htexts
    obtain ⟨before, setting, after, rfl, hraw, hafter⟩ := h.of_append
    obtain rfl : setting = (key, value) := (assigns_iff hraw).mp hassigns
    -- nothing after it is about the key, so it is the newest setting of it
    have hrest : last? after key = none := hafter.unsaid_iff.mp hlater
    have hcut : before ++ (key, value) :: after = before ++ [(key, value)] ++ after := by simp
    rw [hcut, Bindings.last_append, Bindings.last_append, Bindings.last_singleton, hrest, if_pos rfl,
      Option.none_or, Option.some_or]
  | absent hunsaid => exact h.unsaid_iff.mp hunsaid

/-- What is found for a key is what the last text about it says. -/
theorem last_setting_iff (h : ReadAs texts settings) {value? : Option String} :
    LastSetting texts key value? ↔ last? settings key = value? := by
  constructor
  · exact h.found
  · rintro rfl
    obtain ⟨value?, hlast⟩ := exists_last_setting texts key
    rwa [h.found hlast]

end ReadAs

end CommandLine

end ScenarioHost
