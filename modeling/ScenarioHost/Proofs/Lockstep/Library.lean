import ScenarioHost.Lua.Library.Strings
import ScenarioHost.Lua.Library.Tables
import ScenarioHost.Proofs.Lockstep.Evaluation

/-!
The library in lockstep. Its functions that call functions of scripts let their errors through, but
for those that protect a call and `load`.
-/
namespace ScenarioHost.Lua.Library

variable {γ : Type} {r : World → Outcome Value γ} {run : (World → World) → Evaluator}
  {run' : Evaluator} (h : Evaluator.Cuts r run run')

include h

/-- Calls a function of a script and goes on from the values that it gives. -/
theorem cut_asking {α : Type} (s : Spot) (f : Value) (args : List Value)
    {g : (World → World) → List Value → Act Value α} {g' : List Value → Act Value α}
    (hg : ∀ vs, Act.Cut r (fun stop => g stop vs) (g' vs)) :
    Act.Cut r (fun stop => run stop .values (.call s.env (s.site none) f args) >>= g stop)
      (run' .values (.call s.env (s.site none) f args) >>= g') :=
  (h .values (.call s.env (s.site none) f args)).bind hg

theorem cut_loadText (s : Spot) (text name : ByteString) :
    Act.Cut r (fun stop => loadText (run stop) s text name) (loadText run' s text name) :=
  (h .loaded (.load s.env name text)).then_same

theorem cut_loadstring (s : Spot) (args : List Value) :
    Act.Cut r (fun stop => loadstring (run stop) s args) (loadstring run' s args) :=
  .same_then fun text => .same_then fun name => cut_loadText h s text name

theorem cut_tostring (s : Spot) (args : List Value) :
    Act.Cut r (fun stop => tostring (run stop) s args) (tostring run' s args) :=
  .same_then fun v => cut_textOf h s v

def handling : BaseFunction → Bool
  | .pcall | .xpcall | .load => true
  | _ => false

theorem cut_callBase (limit : Nat) (s : Spot) (f : BaseFunction) (args : List Value)
    (hf : handling f = false) :
    Act.Cut r (fun stop => callBase (run stop) limit s f args) (callBase run' limit s f args) := by
  cases f with
  | loadstring => exact cut_loadstring h s args
  | tostring => exact cut_tostring h s args
  | pcall | xpcall | load => exact absurd hf (by decide)
  | _ => exact .same _

theorem cut_sortsBefore (s : Spot) (comparator a b : Value) :
    Act.Cut r (fun stop => sortsBefore (run stop) s comparator a b)
      (sortsBefore run' s comparator a b) := by
  cases comparator with
  | function f => exact (h .values (.call s.env (s.site none) (.function f) [a, b])).then_same
  | _ => exact cut_less h s a b

omit h

section Sorting

variable {before : (World → World) → Value → Value → Act Value Bool}
  {before' : Value → Value → Act Value Bool}
  (hbefore : ∀ a b, Act.Cut r (fun stop => before stop a b) (before' a b))

include hbefore

theorem cut_mergeSorted (fuel : Nat) (xs ys : List Value) :
    Act.Cut r (fun stop => mergeSorted (before stop) fuel xs ys)
      (mergeSorted before' fuel xs ys) := by
  induction fuel generalizing xs ys with
  | zero => exact .same _
  | succ fuel ih =>
    cases xs with
    | nil => exact .same _
    | cons x xs =>
      cases ys with
      | nil => exact .same _
      | cons y ys =>
        refine (hbefore y x).bind fun first => ?_
        split
        · exact (ih (x :: xs) ys).then_same
        · exact (ih xs (y :: ys)).then_same

theorem cut_sortValues (fuel : Nat) (xs : List Value) :
    Act.Cut r (fun stop => sortValues (before stop) fuel xs) (sortValues before' fuel xs) := by
  induction fuel generalizing xs with
  | zero => exact .same _
  | succ fuel ih =>
    unfold sortValues
    split
    · exact .same _
    · exact (ih _).bind fun left => (ih _).bind fun right => cut_mergeSorted hbefore ..

end Sorting

include h

theorem cut_tableSort (s : Spot) (args : List Value) :
    Act.Cut r (fun stop => tableSort (run stop) s args) (tableSort run' s args) := by
  refine .same_then fun t => ?_
  dsimp only
  split
  all_goals
    refine .same_then fun comparator => .same_then fun table => ?_
    exact (cut_sortValues (cut_sortsBefore h s comparator) ..).then_same

theorem cut_visitFields (s : Spot) (f : Value) (fields : List (Value × Value)) :
    Act.Cut r (fun stop => visitFields (run stop) s f fields) (visitFields run' s f fields) := by
  induction fields with
  | nil => exact .same _
  | cons field rest ih =>
    unfold visitFields
    refine cut_asking h s f _ fun vs => ?_
    cases Value.first vs with
    | nil => exact ih
    | _ => exact .same _

theorem cut_callTable (s : Spot) (f : TableFunction) (args : List Value) :
    Act.Cut r (fun stop => callTable (run stop) s f args) (callTable run' s f args) := by
  cases f with
  | foreach =>
    refine .same_then fun t => .same_then fun f => .same_then fun table => ?_
    exact cut_visitFields h s f _
  | foreachi =>
    refine .same_then fun t => .same_then fun f => .same_then fun table => ?_
    exact cut_visitFields h s f _
  | sort => exact cut_tableSort h s args
  | _ => exact .same _

theorem cut_replacementText (s : Spot) (source : Array Char) (m : Pattern.Match)
    (replacement : Value) :
    Act.Cut r (fun stop => replacementText (run stop) s source m replacement)
      (replacementText run' s source m replacement) := by
  cases replacement with
  | function f => exact .same_then fun vs => (cut_asking h s (.function f) vs fun vs => .same _)
  | table t => exact .same_then fun key => (cut_index h ..).then_same
  | _ => exact .same _

theorem cut_replaceFrom (s : Spot) (source : Array Char) (pattern : List Char) (anchored : Bool)
    (replacement : Value) (fuel left place count : Nat) (done : String) :
    Act.Cut r
      (fun stop =>
        replaceFrom (run stop) s source pattern anchored replacement fuel left place count done)
      (replaceFrom run' s source pattern anchored replacement fuel left place count done) := by
  -- on the rounds; only the text of a replacement is where code of a script may run
  induction fuel generalizing left place count done with
  | zero => exact .same _
  | succ fuel ih =>
    unfold replaceFrom
    dsimp only
    split
    · exact .same _
    · refine .same_then fun found => ?_
      cases found with
      | some found =>
        refine (cut_replacementText h ..).bind fun text => ?_
        split
        · split
          · exact .same _
          · exact ih ..
        · cases source[place]? with
          | none => exact .same _
          | some c =>
            dsimp only
            split
            · exact .same _
            · exact ih ..
      | none =>
        cases source[place]? with
        | none => exact .same _
        | some c =>
          dsimp only
          split
          · exact .same _
          · exact ih ..

theorem cut_stringGsub (s : Spot) (args : List Value) :
    Act.Cut r (fun stop => stringGsub (run stop) s args) (stringGsub run' s args) := by
  unfold stringGsub
  refine .same_then fun source => .same_then fun pattern => .same_then fun limit => ?_
  cases Value.arg args 2 with
  | number _ | string _ | function _ | table _ => exact (cut_replaceFrom h ..).then_same
  | _ => exact .same _

theorem cut_shownText (s : Spot) (v : Value) :
    Act.Cut r (fun stop => shownText (run stop) s v) (shownText run' s v) := by
  cases v with
  | string text => exact .same _
  | _ => exact (cut_textOf h ..).then_same

theorem cut_converted (s : Spot) (args : List Value) (n : Nat) (letter : Char)
    (o : Template.Options) :
    Act.Cut r (fun stop => converted (run stop) s args n letter o)
      (converted run' s args n letter o) := by
  unfold converted
  split
  · exact .same _
  · split
    · exact (cut_shownText h ..).then_same
    · exact (cut_shownText h ..).then_same
    all_goals exact .same _

theorem cut_formatPieces (s : Spot) (args : List Value) (n : Nat) (pieces : List Template.Piece) :
    Act.Cut r (fun stop => formatPieces (run stop) s args n pieces)
      (formatPieces run' s args n pieces) := by
  induction pieces generalizing n with
  | nil => exact .same _
  | cons piece rest ih =>
    cases piece with
    | literal text => exact (ih n).then_same
    | conversion letter o => exact (cut_converted h ..).bind fun text => (ih (n + 1)).then_same
    | malformed text => exact .same _

theorem cut_callString (s : Spot) (f : StringFunction) (args : List Value) :
    Act.Cut r (fun stop => callString (run stop) s f args) (callString run' s f args) := by
  cases f with
  | format => exact .same_then fun template => (cut_formatPieces h ..).then_same
  | gsub => exact cut_stringGsub h s args
  | _ => exact .same _

end ScenarioHost.Lua.Library
