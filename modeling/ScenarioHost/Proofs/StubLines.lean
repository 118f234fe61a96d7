import Mathlib
import ScenarioHost.Stubs
import ScenarioHost.Proofs.Texts

/-!
The stub file, line by line. It goes through the documented functions topic by topic, and every
function belongs to one of the topics, so each has one stub in it.
-/
namespace ScenarioHost

namespace Reference

def IsWord (name : String) : Prop := name.toList.all (fun c => c.isAlpha || c == '_') = true

theorem word_of_name : ∀ name ∈ names, IsWord name := by
  simp only [names, entries, List.map_cons, List.map_nil, List.forall_mem_cons, List.not_mem_nil,
    false_imp_iff, implies_true, and_true]
  unfold IsWord
  and_intros
  all_goals
    rw [String.toList_ofList]
    rfl

theorem word_codes {c : Char} (h : (c.isAlpha || c == '_') = true) :
    65 ≤ c.toNat ∧ c.toNat ≤ 122 := by
  obtain hletter | hunderscore := Bool.or_eq_true_iff.mp h
  · have hcodes := Bool.or_eq_true_iff.mp hletter
    rw [is_upper_iff, is_lower_iff] at hcodes
    omega
  · rw [beq_iff_eq] at hunderscore
    rw [hunderscore]
    decide

theorem names_distinct : names.Nodup := by decide

theorem IsWord.not_mem {name : String} (h : IsWord name) {c : Char} (hletter : c.isAlpha = false)
    (hunderscore : c ≠ '_') : c ∉ name.toList := by
  intro hc
  have hword := List.all_eq_true.mp h c hc
  rw [hletter, Bool.false_or, beq_iff_eq] at hword
  exact hunderscore hword

end Reference

namespace Stubs

def Opens (name : String) (line : List Char) : Prop := ("function " ++ name ++ "(").toList <+: line

instance (name : String) (line : List Char) : Decidable (Opens name line) :=
  inferInstanceAs (Decidable (_ <+: _))

def stubCount (name : String) (lines : List (List Char)) : ℕ :=
  lines.countP fun line => decide (Opens name line)

def functionLines (description name : String) (parameters : List (String × String))
    (returns : Option String) : List String :=
  ["---" ++ description] ++ parameterLines parameters ++ returnLines returns
    ++ [signature name parameters, ""]

theorem entry_lines_eq (e : Entry) :
    entryLines e = functionLines e.description e.name e.parameters e.returns := rfl

theorem entry_point_lines_eq (e : String × List (String × String) × String) :
    entryPointLines e = functionLines e.2.2 e.1 e.2.1 none := by
  unfold functionLines returnLines
  rw [List.append_nil]
  rfl

def fileLines : List String :=
  fileHeader ++ Reference.entryPoints.flatMap entryPointLines ++ Topic.all.flatMap topicLines
    ++ scriptClass

theorem text_lines_eq : text = String.join (fileLines.map (· ++ "\n")) := rfl

/-! Breaks of lines. -/

def OneLine (s : String) : Prop := '\n' ∉ s.toList

namespace OneLine

theorem append {s t : String} (hs : OneLine s) (ht : OneLine t) : OneLine (s ++ t) := by
  unfold OneLine
  rw [String.toList_append, List.mem_append]
  exact not_or.mpr ⟨hs, ht⟩

theorem empty : OneLine "" := List.not_mem_nil

theorem literal {cs : List Char} (h : '\n' ∉ cs) : OneLine (String.ofList cs) := by
  rwa [OneLine, String.toList_ofList]

end OneLine

theorem one_line_annotated {type : String} (h : OneLine type) :
    OneLine <| annotation type := by
  unfold annotation
  split
  case h_1 c rest hreverse =>
    have hrest : '\n' ∉ rest.reverse := by
      rw [List.mem_reverse]
      intro hmem
      have hlonger : '\n' ∈ type.toList.reverse := by
        rw [hreverse]
        exact List.mem_cons_of_mem _ hmem
      exact h (List.mem_reverse.mp hlonger)
    exact (OneLine.literal hrest).append (OneLine.literal (by decide))
  case h_2 => exact h

/-- Types are cut out of their list. -/
theorem not_mem_listed {c : Char} {types : List Char} (h : c ∉ types) :
    ∀ t ∈ listedTypes types, c ∉ t := by
  induction types using listedTypes.induct with
  | case1 =>
    intro t ht
    rw [listedTypes, List.mem_singleton] at ht
    rw [ht]
    exact List.not_mem_nil
  | case2 rest ih =>
    rw [listedTypes, List.forall_mem_cons]
    refine ⟨List.not_mem_nil, ih fun hc => h ?_⟩
    exact List.mem_cons_of_mem _ (List.mem_cons_of_mem _ hc)
  | case3 d rest _ first others hlisted ih =>
    obtain ⟨hd, hrest⟩ := List.ne_and_not_mem_of_not_mem_cons h
    have hparts := ih hrest
    rw [hlisted, List.forall_mem_cons] at hparts
    simp only [listedTypes, hlisted, List.forall_mem_cons]
    exact ⟨List.not_mem_cons_of_ne_of_not_mem hd hparts.1, hparts.2⟩
  | case4 d rest _ hlisted ih =>
    obtain ⟨hd, -⟩ := List.ne_and_not_mem_of_not_mem_cons h
    simp only [listedTypes, hlisted, List.mem_singleton, forall_eq]
    exact hd

theorem one_line_signature {name : String} {parameters : List (String × String)}
    (hname : OneLine name) (hparameters : ∀ p ∈ parameters, OneLine p.1 ∧ OneLine p.2) :
    OneLine (signature name parameters) := by
  have hlist : OneLine (String.intercalate ", " (parameters.map Prod.fst)) := by
    unfold OneLine
    rw [String.toList_intercalate]
    intro hmem
    obtain hseparator | ⟨item, hitem, hc⟩ := mem_of_mem_intercalate hmem
    · exact absurd hseparator (OneLine.literal (by decide))
    · simp only [List.map_map, List.mem_map] at hitem
      obtain ⟨p, hp, rfl⟩ := hitem
      exact (hparameters p hp).1 hc
  exact ((((OneLine.literal (by decide)).append hname).append (OneLine.literal (by decide))).append
    hlist).append (OneLine.literal (by decide))

theorem one_line_function {description name : String} {parameters : List (String × String)}
    {returns : Option String} (hdescription : OneLine description) (hname : OneLine name)
    (hparameters : ∀ p ∈ parameters, OneLine p.1 ∧ OneLine p.2)
    (hreturns : ∀ types ∈ returns, OneLine types) :
    ∀ line ∈ functionLines description name parameters returns, OneLine line := by
  intro line hline
  simp only [functionLines, List.mem_append, List.mem_cons, List.not_mem_nil, or_false] at hline
  obtain ((rfl | hparameter) | hreturn) | rfl | rfl := hline
  · exact (OneLine.literal (by decide)).append hdescription
  · obtain ⟨p, hp, rfl⟩ := List.mem_map.mp hparameter
    obtain ⟨hfirst, hsecond⟩ := hparameters p hp
    have hparam : OneLine "---@param " := OneLine.literal (by decide)
    have hspace : OneLine " " := OneLine.literal (by decide)
    exact ((hparam.append hfirst).append hspace).append (one_line_annotated hsecond)
  · unfold returnLines at hreturn
    split at hreturn
    · cases hreturn
    · obtain ⟨t, ht, rfl⟩ := List.mem_map.mp hreturn
      have htype : OneLine (String.ofList t) :=
        OneLine.literal (not_mem_listed (hreturns _ rfl) t ht)
      exact (OneLine.literal (by decide)).append (one_line_annotated htype)
  · exact one_line_signature hname hparameters
  · exact OneLine.empty

theorem one_line_heading {title : String} (h : OneLine title) : OneLine (heading title) :=
  ((OneLine.literal (by decide)).append h).append (OneLine.literal (by decide))

theorem reference_one_line : ∀ e ∈ Reference.entries, OneLine e.description ∧ OneLine e.name ∧
    (∀ p ∈ e.parameters, OneLine p.1 ∧ OneLine p.2) ∧ ∀ types ∈ e.returns, OneLine types := by
  unfold OneLine
  simp only [Reference.entries, List.forall_mem_cons, List.not_mem_nil, Option.mem_def,
    Option.some.injEq, forall_eq', reduceCtorEq, false_imp_iff, implies_true, true_and, and_true,
    String.toList_append, List.mem_append, not_or]
  and_intros
  all_goals
    rw [String.toList_ofList]
    decide

theorem entry_points_one_line : ∀ e ∈ Reference.entryPoints, OneLine e.2.2 ∧ OneLine e.1 ∧
    ∀ p ∈ e.2.1, OneLine p.1 ∧ OneLine p.2 := by
  unfold OneLine
  simp only [Reference.entryPoints, List.forall_mem_cons, List.not_mem_nil, false_imp_iff,
    implies_true, and_true]
  and_intros
  all_goals
    rw [String.toList_ofList]
    decide

theorem header_one_line : ∀ line ∈ fileHeader, OneLine line := by
  have hcallbacks : OneLine (heading "Callback Signatures") :=
    one_line_heading (OneLine.literal (by decide))
  simp only [fileHeader, List.forall_mem_cons, List.not_mem_nil, false_imp_iff, implies_true,
    and_true, hcallbacks, true_and]
  and_intros
  all_goals exact OneLine.literal (by decide)

theorem script_class_one_line : ∀ line ∈ scriptClass, OneLine line := by
  have hscript : OneLine (heading "Script") := one_line_heading (OneLine.literal (by decide))
  simp only [scriptClass, List.forall_mem_cons, List.not_mem_nil, false_imp_iff, implies_true,
    and_true, hscript, true_and]
  and_intros
  all_goals exact OneLine.literal (by decide)

theorem topic_one_line (t : Topic) : ∀ line ∈ topicLines t, OneLine line := by
  intro line hline
  simp only [topicLines, List.mem_append, List.mem_cons, List.not_mem_nil, or_false,
    List.mem_flatMap] at hline
  obtain (rfl | rfl) | ⟨e, he, hentry⟩ := hline
  · cases t with
    | _ => exact one_line_heading (OneLine.literal (by decide))
  · exact OneLine.empty
  · obtain ⟨hdescription, hname, hparameters, hreturns⟩ :=
      reference_one_line e (List.mem_of_mem_filter he)
    rw [entry_lines_eq] at hentry
    exact one_line_function hdescription hname hparameters hreturns line hentry

/-- No line of the file has a line break of its own. -/
theorem split_text : splitChars '\n' text.toList = fileLines.map String.toList ++ [[]] := by
  have hbreaks : ∀ line ∈ fileLines, OneLine line := by
    intro line hline
    simp only [fileLines, List.mem_append, List.mem_flatMap] at hline
    obtain ((hheader | ⟨e, he, hentry⟩) | ⟨t, -, htopic⟩) | hscript := hline
    · exact header_one_line line hheader
    · obtain ⟨hdescription, hname, hparameters⟩ := entry_points_one_line e he
      have hreturns : ∀ types ∈ (none : Option String), OneLine types := by
        intro types htypes
        cases htypes
      rw [entry_point_lines_eq] at hentry
      exact one_line_function hdescription hname hparameters hreturns line hentry
    · exact topic_one_line t line htopic
    · exact script_class_one_line line hscript
  have hlines : text.toList =
      (fileLines.map String.toList).flatMap fun line => line ++ ['\n'] := by
    rw [text_lines_eq, String.toList_join, List.flatMap_map, List.flatMap_map]
    refine List.flatMap_congr fun line _ => ?_
    exact String.toList_append
  rw [hlines]
  refine split_terminated '\n' _ fun line hline => ?_
  obtain ⟨source, hsource, rfl⟩ := List.mem_map.mp hline
  exact hbreaks source hsource

/-! Stubs of one function. -/

section Lines

variable {name : String}

/-- Only lines that begin like a function are stubs. -/
theorem not_opens {line : List Char} (h : line.head? ≠ some 'f') : ¬ Opens name line := by
  rintro ⟨rest, rfl⟩
  rw [String.toList_append, String.toList_append] at h
  exact h rfl

theorem not_opens_nil : ¬ Opens name [] := not_opens (by decide)

/-- A comment is no stub. -/
theorem not_opens_comment (comment : String) : ¬ Opens name ("---" ++ comment).toList := by
  rw [String.toList_append]
  exact not_opens (by decide : some '-' ≠ some 'f')

theorem not_opens_literal {cs : List Char} (h : cs.head? ≠ some 'f') :
    ¬ Opens name (String.ofList cs).toList := by
  rw [String.toList_ofList]
  exact not_opens h

theorem not_opens_heading (title : String) : ¬ Opens name (heading title).toList := by
  unfold heading
  rw [String.toList_append, String.toList_append]
  exact not_opens (by decide : some '-' ≠ some 'f')

theorem stub_count_eq_zero {lines : List String} (h : ∀ line ∈ lines, ¬ Opens name line.toList) :
    stubCount name (lines.map String.toList) = 0 := by
  rw [stubCount, List.countP_eq_zero]
  intro line hline
  obtain ⟨source, hsource, rfl⟩ := List.mem_map.mp hline
  rw [decide_eq_true_eq]
  exact h source hsource

theorem stub_count_header : stubCount name (fileHeader.map String.toList) = 0 := by
  refine stub_count_eq_zero ?_
  have hcallbacks : ¬ Opens name (heading "Callback Signatures").toList := not_opens_heading _
  simp only [fileHeader, List.forall_mem_cons, List.not_mem_nil, false_imp_iff, implies_true,
    and_true, hcallbacks, not_false_iff, true_and]
  and_intros
  all_goals exact not_opens_literal (by decide)

/-- What stands before the first bracket. -/
theorem take_before_bracket {text : List Char} (h : '(' ∉ text) (rest : List Char) :
    (text ++ '(' :: rest).takeWhile (fun c => c ≠ '(') = text := by
  have hplain : ∀ c ∈ text, decide (c ≠ '(') = true :=
    fun c hc => decide_eq_true fun heq => h (heq ▸ hc)
  rw [List.takeWhile_append_of_pos hplain, List.takeWhile_cons_of_neg (by decide), List.append_nil]

/-- The name of a stub ends at the bracket. -/
theorem opens_function_iff {other : String} (hname : '(' ∉ name.toList)
    (hother : '(' ∉ other.toList) (rest : List Char) :
    Opens name ("function ".toList ++ (other.toList ++ '(' :: rest)) ↔ name = other := by
  have hbracket : "(".toList = ['('] := rfl
  unfold Opens
  rw [String.toList_append, String.toList_append, hbracket, List.append_assoc,
    List.prefix_append_right_inj]
  constructor
  · rintro ⟨tail, htail⟩
    rw [List.append_assoc, List.singleton_append] at htail
    -- both names are what stands before the first bracket of one text
    have hsame := congrArg (List.takeWhile fun c => c ≠ '(') htail
    rw [take_before_bracket hname, take_before_bracket hother] at hsame
    exact String.toList_inj.mp hsame
  · rintro rfl
    exact ⟨rest, by rw [List.append_assoc, List.singleton_append]⟩

theorem opens_signature_iff {other : String} (hname : '(' ∉ name.toList)
    (hother : '(' ∉ other.toList) (parameters : List (String × String)) :
    Opens name (signature other parameters).toList ↔ name = other := by
  have hbracket : "(".toList = ['('] := rfl
  rw [← opens_function_iff hname hother
    ((String.intercalate ", " (parameters.map Prod.fst)).toList ++ ") end".toList)]
  unfold signature
  simp only [String.toList_append, hbracket, List.append_assoc, List.cons_append, List.nil_append]

/-- All lines of a function before its stub are comments. -/
theorem exists_comment {description : String} {parameters : List (String × String)}
    {returns : Option String} : ∀ line ∈ ["---" ++ description] ++ parameterLines parameters ++
      returnLines returns, ∃ comment, line = "---" ++ comment := by
  intro line hline
  simp only [List.mem_append, List.mem_singleton] at hline
  obtain (rfl | hparameter) | hreturn := hline
  · exact ⟨description, rfl⟩
  · obtain ⟨p, -, rfl⟩ := List.mem_map.mp hparameter
    refine ⟨"@param " ++ p.1 ++ " " ++ annotation p.2, ?_⟩
    simp only [← String.append_assoc]
    rfl
  · unfold returnLines at hreturn
    split at hreturn
    · cases hreturn
    · obtain ⟨t, -, rfl⟩ := List.mem_map.mp hreturn
      refine ⟨"@return " ++ annotation (String.ofList t), ?_⟩
      rw [← String.append_assoc]
      rfl

/-- The lines of a function hold its stub, and no other one. -/
theorem stub_count_function {other : String} (hname : '(' ∉ name.toList)
    (hother : '(' ∉ other.toList) (description : String) (parameters : List (String × String))
    (returns : Option String) :
    stubCount name ((functionLines description other parameters returns).map String.toList) =
      if name = other then 1 else 0 := by
  have hcomments : stubCount name ((["---" ++ description] ++ parameterLines parameters ++
      returnLines returns).map String.toList) = 0 := by
    refine stub_count_eq_zero fun line hline => ?_
    obtain ⟨comment, rfl⟩ := exists_comment line hline
    exact not_opens_comment comment
  have hempty : ¬ Opens name "".toList := not_opens_nil
  unfold stubCount at hcomments ⊢
  rw [functionLines, List.map_append, List.countP_append, hcomments, Nat.zero_add, List.map_cons,
    List.map_singleton, List.countP_cons, List.countP_singleton, decide_eq_false hempty,
    if_neg Bool.false_ne_true, Nat.zero_add]
  simp only [decide_eq_true_eq, opens_signature_iff hname hother]

end Lines

/-! Stubs of all functions. -/

theorem sum_by_topic (f : Entry → ℕ) (entries : List Entry) :
    (Topic.all.map fun t => ((entries.filter fun e => e.topic = t).map f).sum).sum =
      (entries.map f).sum := by
  induction entries with
  | nil => rfl
  | cons e entries ih =>
    rw [List.map_cons, List.sum_cons, ← ih]
    simp only [Topic.all, List.map_cons, List.map_nil, List.sum_cons, List.sum_nil]
    -- an entry adds to the sum of its own topic, and to none of the others
    cases htopic : e.topic with
    | _ =>
      simp [htopic]
      omega

theorem sum_indicator (name : String) (names : List String) :
    (names.map fun other => if name = other then 1 else 0).sum = names.count name := by
  induction names with
  | nil => rfl
  | cons other names ih =>
    have hsame : (if name = other then 1 else 0) = if (other == name) = true then 1 else 0 :=
      if_congr (eq_comm.trans beq_iff_eq.symm) rfl rfl
    rw [List.map_cons, List.sum_cons, ih, List.count_cons, Nat.add_comm, hsame]

/-- Stubs are counted entry by entry. -/
theorem stub_count_flatMap {ι : Type} (name : String) (f : ι → List String) (l : List ι) :
    stubCount name ((l.flatMap f).map String.toList) =
      (l.map fun i => stubCount name ((f i).map String.toList)).sum := by
  unfold stubCount
  rw [List.map_flatMap, List.countP_flatMap]
  rfl

section Documented

variable {name : String} (hname : name ∈ Reference.names)

include hname

theorem without_bracket : '(' ∉ name.toList :=
  (Reference.word_of_name name hname).not_mem (by decide) (by decide)

theorem stub_count_topic (t : Topic) :
    stubCount name ((topicLines t).map String.toList) =
      ((Reference.entries.filter fun e => e.topic = t).map fun e =>
        if name = e.name then 1 else 0).sum := by
  have hheading : ¬ Opens name (heading t.title).toList := not_opens_heading _
  have hempty : ¬ Opens name "".toList := not_opens_nil
  have hentries : ∀ e ∈ Reference.entries.filter fun e => e.topic = t,
      stubCount name ((entryLines e).map String.toList) = if name = e.name then 1 else 0 := by
    intro e he
    have hmem : e.name ∈ Reference.names := List.mem_map_of_mem (List.mem_of_mem_filter he)
    rw [entry_lines_eq]
    exact stub_count_function (without_bracket hname) (without_bracket hmem) ..
  have hrest := stub_count_flatMap name entryLines (Reference.entries.filter fun e => e.topic = t)
  rw [List.map_congr_left hentries] at hrest
  unfold stubCount at hrest ⊢
  rw [topicLines, List.map_append, List.countP_append, hrest, List.map_cons, List.map_singleton,
    List.countP_cons, List.countP_singleton, decide_eq_false hheading, decide_eq_false hempty,
    if_neg Bool.false_ne_true, Nat.zero_add]

/-- Going through the topics meets every function once. -/
theorem stub_count_topics : stubCount name ((Topic.all.flatMap topicLines).map String.toList) = 1 :=
  calc stubCount name ((Topic.all.flatMap topicLines).map String.toList)
      = (Topic.all.map fun t => ((Reference.entries.filter fun e => e.topic = t).map fun e =>
          if name = e.name then 1 else 0).sum).sum := by
        rw [stub_count_flatMap]
        simp only [stub_count_topic hname]
    _ = (Reference.entries.map fun e => if name = e.name then 1 else 0).sum := sum_by_topic ..
    _ = Reference.names.count name := by
        rw [← sum_indicator, Reference.names, List.map_map]
        rfl
    _ = 1 := List.count_eq_one_of_mem Reference.names_distinct hname

/-- Neither an entry point of scenarios nor a method of handles has the name of a function. -/
theorem name_is_no_other :
    name ∉ Reference.entryPoints.map Prod.fst ++ ["Script:run", "Script:setVariable"] := by
  have hnames : ∀ name ∈ Reference.names, name ∉
      Reference.entryPoints.map Prod.fst ++ ["Script:run", "Script:setVariable"] := by
    decide
  exact hnames name hname

theorem stub_count_entry_points :
    stubCount name ((Reference.entryPoints.flatMap entryPointLines).map String.toList) = 0 := by
  have hother := name_is_no_other hname
  have hbrackets : ∀ e ∈ Reference.entryPoints, '(' ∉ e.1.toList := by decide
  rw [stub_count_flatMap]
  refine List.sum_eq_zero fun n hn => ?_
  obtain ⟨e, he, rfl⟩ := List.mem_map.mp hn
  have hne : name ≠ e.1 := by
    rintro rfl
    exact hother (List.mem_append_left _ (List.mem_map_of_mem he))
  rw [entry_point_lines_eq, stub_count_function (without_bracket hname) (hbrackets e he),
    if_neg hne]

theorem stub_count_script_class : stubCount name (scriptClass.map String.toList) = 0 := by
  have hother := name_is_no_other hname
  have hrun : ¬ Opens name "function Script:run(filename) end".toList := by
    have hline : "function Script:run(filename) end" =
        signature "Script:run" [("filename", "string")] := by decide
    rw [hline, opens_signature_iff (without_bracket hname) (by decide)]
    rintro rfl
    exact hother (by decide)
  have hset : ¬ Opens name "function Script:setVariable(name, value) end".toList := by
    have hline : "function Script:setVariable(name, value) end" =
        signature "Script:setVariable" [("name", "string"), ("value", "string")] := by
      decide
    rw [hline, opens_signature_iff (without_bracket hname) (by decide)]
    rintro rfl
    exact hother (by decide)
  have hscript : ¬ Opens name (heading "Script").toList := not_opens_heading _
  refine stub_count_eq_zero ?_
  simp only [scriptClass, List.forall_mem_cons, List.not_mem_nil, false_imp_iff, implies_true,
    and_true, hscript, hrun, hset, not_false_iff, true_and]
  and_intros
  all_goals exact not_opens_literal (by decide)

/-- Every documented function has one stub in the file. -/
theorem stub_count_text : stubCount name (splitChars '\n' text.toList) = 1 := by
  have hempty : ¬ Opens name [] := not_opens_nil
  have hheader : stubCount name (fileHeader.map String.toList) = 0 := stub_count_header
  have hentryPoints := stub_count_entry_points hname
  have htopics := stub_count_topics hname
  have hscriptClass := stub_count_script_class hname
  rw [split_text]
  unfold stubCount fileLines at *
  simp only [List.map_append, List.countP_append, List.countP_singleton] at *
  rw [hheader, hentryPoints, htopics, hscriptClass, decide_eq_false hempty]
  rfl

end Documented

end Stubs

end ScenarioHost
