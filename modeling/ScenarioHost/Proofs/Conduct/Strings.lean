import ScenarioHost.Proofs.Conduct.Library

/-!
The string functions stay within the environment that calls them. Replacements and `tostring` may
run functions of the script; the rest only computes.
-/
namespace ScenarioHost.Lua.Library

variable {R : Regime}

section Searches

variable {e : EnvironmentId} {s : Spot} {args : List Value}

theorem within_stringByte : R.Within e (stringByte s args) := by
  unfold stringByte
  refine .bind within_stringArg fun text _ => ?_
  refine .bind (within_optIntArg 1) fun first _ => ?_
  refine .bind (within_optIntArg _) fun last _ => ?_
  dsimp only
  split
  · exact within_failure _
  · exact .pure trivial

theorem within_stringChar : R.Within e (stringChar s args) := by
  unfold stringChar
  refine .bind (.map_m _ fun n _ => ?_) fun codes _ => .pure trivial
  refine .bind within_intArg fun code _ => ?_
  split
  · exact .pure trivial
  · exact within_argFailure _

theorem within_stringRep : R.Within e (stringRep s args) := by
  unfold stringRep
  refine .bind within_stringArg fun text _ => ?_
  refine .bind within_intArg fun count _ => ?_
  refine .bind (within_optStringArg _) fun separator _ => ?_
  split
  · exact .raise _
  · exact .pure trivial

theorem within_stringSub : R.Within e (stringSub s args) := by
  unfold stringSub
  refine .bind within_stringArg fun text _ => ?_
  refine .bind within_intArg fun first _ => ?_
  exact .bind (within_optIntArg _) fun last _ => .pure trivial

theorem within_mapped (f : List Char → List Char) : R.Within e (mapped s args f) :=
  .bind within_stringArg fun _ _ => .pure trivial

theorem within_ofPattern {α : Type} (x : Except Pattern.PatternError α) :
    R.Within e (ofPattern s x) := by
  cases x with
  | ok a => exact .pure trivial
  | error failed => exact within_failure _

theorem within_captured (source : Array Char) (m : Pattern.Match) (n : Nat) :
    R.Within e (captured s source m n) := by
  unfold captured
  split
  · split
    · exact .pure trivial
    · exact within_failure _
  · exact .pure trivial
  · exact .pure trivial
  · exact within_failure _

theorem within_allCaptured (source : Array Char) (m : Pattern.Match) :
    R.Within e (allCaptured s source m) := .map_m _ fun n _ => within_captured source m n

theorem within_matchValues (source : Array Char) (m : Pattern.Match) :
    R.Within e (matchValues s source m) := by
  unfold matchValues
  split
  · exact .pure trivial
  · exact within_allCaptured source m

theorem within_searchArgs : R.Within e (searchArgs s args) := by
  unfold searchArgs
  refine .bind within_stringArg fun text _ => ?_
  refine .bind within_stringArg fun pattern _ => ?_
  exact .bind (within_optIntArg _) fun start _ => .pure trivial

theorem within_stringFind : R.Within e (stringFind s args) := by
  unfold stringFind
  refine .bind within_searchArgs fun found _ => ?_
  split
  split
  · split <;> exact .pure trivial
  · refine .bind (within_ofPattern _) fun m _ => ?_
    split
    · exact .bind (within_allCaptured ..) fun values _ => .pure trivial
    · exact .pure trivial

theorem within_stringMatch : R.Within e (stringMatch s args) := by
  unfold stringMatch
  refine .bind within_searchArgs fun found _ => ?_
  split
  refine .bind (within_ofPattern _) fun m _ => ?_
  split
  · exact within_matchValues ..
  · exact .pure trivial

theorem within_expanded (source : Array Char) (m : Pattern.Match) (text : List Char) :
    R.Within e (expanded s source m text) := by
  fun_induction expanded s source m text with
  | case1 => exact .pure trivial
  | case2 => exact .pure trivial
  | case3 c rest goOn _ ih =>
    refine .bind (Q := fun _ => True) (.pure trivial) fun text _ => ?_
    exact .bind ih fun after _ => .pure trivial
  | case4 rest goOn _ ih =>
    refine .bind (Q := fun _ => True) (.pure trivial) fun text _ => ?_
    exact .bind ih fun after _ => .pure trivial
  | case5 c rest goOn _ _ ih =>
    refine .bind (within_captured ..) fun v _ => ?_
    refine .bind (Q := fun _ => True) (.pure trivial) fun text _ => ?_
    exact .bind ih fun after _ => .pure trivial
  | case6 c rest _ _ ih => exact .bind ih fun text _ => .pure trivial

end Searches

theorem within_stringGmatch (s : Spot) (args : List Value) :
    R.Within s.env (stringGmatch s args) := by
  unfold stringGmatch
  refine .bind within_stringArg fun source _ => ?_
  refine .bind within_stringArg fun pattern _ => ?_
  refine .bind (within_read_heap _) fun position _ => ?_
  refine .bind (within_update_heap _ fun h => .of_cells h _) fun _ _ => ?_
  refine .bind (within_read_heap _) fun f _ => ?_
  refine .bind (within_update_heap _ fun h => .add_function h _ fun c => ?_) fun _ _ => ?_
  · exact Function.noConfusion
  · exact .pure trivial

theorem within_nextMatch (s : Spot) (cursor : MatchCursor) :
    R.Within s.env (nextMatch s cursor) := by
  unfold nextMatch
  refine .bind (within_read_heap _) fun position _ => ?_
  extract_lets place
  split
  · exact .pure trivial
  · refine .bind (within_ofPattern _) fun found _ => ?_
    split
    · exact .pure trivial
    · exact .bind (within_update_heap _ fun h => .of_cells h _) fun _ _ => within_matchValues ..

section Calls

variable {run run' : Evaluator} (h : R.Lawful run run')

include h

omit h in
/-- What a replacement gives for a match. -/
theorem within_given (s : Spot) (source : Array Char) (m : Pattern.Match) (v : Value) :
    R.Within s.env
      (match v.truthy, v.toString? with
        | false, _ => return String.ofList (source.extract m.start m.stop).toList
        | true, some text => return text.chars
        | true, none => failure s ("invalid replacement value (a " ++ v.typeName ++ ")") :
        Act Value String) := by
  split
  · exact .pure trivial
  · exact .pure trivial
  · exact within_failure _

theorem within_replacementText (s : Spot) (source : Array Char) (m : Pattern.Match)
    (replacement : Value) :
    R.Beside s.env (replacementText run s source m replacement)
      (replacementText run' s source m replacement) := by
  unfold replacementText
  dsimp only
  split
  · refine .bind (within_matchValues source m) fun vs _ => ?_
    exact .bind (h.call ..) fun results _ => within_given s source m _
  · refine .bind (within_captured source m 0) fun key _ => ?_
    exact .bind (within_index h s ..) fun v _ => within_given s source m v
  · exact within_expanded ..

theorem within_replaceFrom (s : Spot) (source : Array Char) (pattern : List Char) (anchored : Bool)
    (replacement : Value) (fuel left place count : Nat) (done : String) :
    R.Beside s.env (replaceFrom run s source pattern anchored replacement fuel left place count done)
      (replaceFrom run' s source pattern anchored replacement fuel left place count done) := by
  -- on the rounds; code of a script runs where the text of a replacement is made
  induction fuel generalizing left place count done with
  | zero => exact .pure trivial
  | succ fuel ih =>
    unfold replaceFrom
    dsimp only
    split
    · exact .pure trivial
    · refine .bind (within_ofPattern _) fun found _ => ?_
      split
      · refine .bind (within_replacementText h s ..) fun text _ => ?_
        split
        · split
          · exact .pure trivial
          · exact ih ..
        · split
          · exact .pure trivial
          · split
            · exact .pure trivial
            · exact ih ..
      · split
        · exact .pure trivial
        · split
          · exact .pure trivial
          · exact ih ..

theorem within_stringGsub (s : Spot) (args : List Value) :
    R.Beside s.env (stringGsub run s args) (stringGsub run' s args) := by
  unfold stringGsub
  refine .bind within_stringArg fun source _ => ?_
  refine .bind within_stringArg fun pattern _ => ?_
  refine .bind (within_optIntArg _) fun limit _ => ?_
  cases Value.arg args 2 with
  | number _ | string _ | function _ | table _ =>
    exact .bind (within_replaceFrom h s ..) fun result _ => .pure trivial
  | _ => exact within_argFailure _

theorem within_shownText (s : Spot) (v : Value) :
    R.Beside s.env (shownText run s v) (shownText run' s v) := by
  unfold shownText
  split
  · exact .pure trivial
  · exact .bind (within_textOf h s v) fun values _ => within_read_heap _

theorem within_converted (s : Spot) (args : List Value) (n : Nat) (letter : Char)
    (o : Template.Options) :
    R.Beside s.env (converted run s args n letter o) (converted run' s args n letter o) := by
  unfold converted
  split
  · exact within_argFailure _
  · split
    · exact .bind (within_shownText h s _) fun text _ => .pure trivial
    · exact .bind (within_shownText h s _) fun text _ => .pure trivial
    · exact .bind within_intArg fun code _ => .pure trivial
    · exact .pure trivial
    · exact .bind within_numberArg fun x _ => .pure trivial
    · exact .bind within_numberArg fun x _ => .pure trivial
    · exact .bind within_numberArg fun x _ => .pure trivial
    · exact .bind within_numberArg fun x _ => .pure trivial
    · exact .bind within_numberArg fun x _ => .pure trivial
    · exact .bind within_numberArg fun x _ => .pure trivial

theorem within_formatPieces (s : Spot) (args : List Value) (n : Nat)
    (pieces : List Template.Piece) :
    R.Beside s.env (formatPieces run s args n pieces) (formatPieces run' s args n pieces) := by
  induction pieces generalizing n with
  | nil => exact .pure trivial
  | cons piece rest ih =>
    cases piece with
    | literal text => exact .bind (ih n) fun after _ => .pure trivial
    | conversion letter o =>
      refine .bind (within_converted h s ..) fun text _ => ?_
      exact .bind (ih (n + 1)) fun after _ => .pure trivial
    | malformed text => exact within_failure _

theorem within_callString (s : Spot) (f : StringFunction) (args : List Value) :
    R.Beside s.env (callString run s f args) (callString run' s f args) := by
  cases f with
  | byte => exact within_stringByte
  | char => exact within_stringChar
  | find => exact within_stringFind
  | format =>
    refine .bind within_stringArg fun template _ => ?_
    exact .bind (within_formatPieces h s ..) fun text _ => .pure trivial
  | gmatch => exact within_stringGmatch s args
  | gsub => exact within_stringGsub h s args
  | len => exact .bind within_stringArg fun text _ => .pure trivial
  | lower => exact within_mapped _
  | rep => exact within_stringRep
  | reverse => exact within_mapped _
  | sub => exact within_stringSub
  | upper => exact within_mapped _
  | _ => exact within_stringMatch

end Calls

end ScenarioHost.Lua.Library
