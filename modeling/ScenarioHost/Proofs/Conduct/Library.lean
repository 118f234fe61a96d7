import ScenarioHost.Lua.Library.Numbers
import ScenarioHost.Lua.Library.Strings
import ScenarioHost.Lua.Library.Tables
import ScenarioHost.Proofs.Conduct.Evaluation

/-!
The standard functions stay within the environment that calls them. What they take from the host is
a random number; `load` and its like compile text, and `setfenv` gives a script function other
globals.
-/
namespace ScenarioHost.Lua.Library

variable {R : Regime}

section Arguments

variable {e : EnvironmentId} {s : Spot} {args : List Value} {n : Nat}

theorem within_failure {α : Type} (message : String) : R.Within e (failure s message : Act Value α) :=
  .raise _

theorem within_argFailure {α : Type} (message : String) :
    R.Within e (argFailure s n message : Act Value α) := by
  unfold argFailure
  extract_lets naming name isMethod
  split
  · exact within_failure _
  · exact within_failure _

theorem within_typeFailure {α : Type} (wanted : String) :
    R.Within e (typeFailure s args n wanted : Act Value α) := within_argFailure _

theorem within_anyArg : R.Within e (anyArg s args n) := by
  unfold anyArg
  split
  · exact .pure trivial
  · exact within_argFailure _

theorem within_numberArg : R.Within e (numberArg s args n) := by
  unfold numberArg
  split
  · exact .pure trivial
  · exact within_typeFailure _

theorem within_intArg : R.Within e (intArg s args n) :=
  .bind within_numberArg fun _ _ => .pure trivial

theorem within_optIntArg (absent : Int) : R.Within e (optIntArg s args n absent) := by
  unfold optIntArg
  split
  · exact .pure trivial
  · exact within_intArg

theorem within_stringArg : R.Within e (stringArg s args n) := by
  unfold stringArg
  split
  · exact .pure trivial
  · exact within_typeFailure _

theorem within_optStringArg (absent : ByteString) : R.Within e (optStringArg s args n absent) := by
  unfold optStringArg
  split
  · exact .pure trivial
  · exact within_stringArg

theorem within_tableArg : R.Within e (tableArg s args n) := by
  unfold tableArg
  split
  · exact .pure trivial
  · exact within_typeFailure _

theorem within_functionArg : R.Within e (functionArg s args n) := by
  unfold functionArg
  split
  · exact .pure trivial
  · exact within_typeFailure _

theorem within_readTable (t : TableId) : R.Within s.env (readTable s t) := within_read_heap _

theorem within_newTable (t : Table) : R.Within s.env (newTable s t) := by
  unfold newTable
  refine .bind (within_read_heap _) fun id _ => ?_
  exact .bind (within_update_heap _ fun h => .add_table h _) fun _ _ => .pure trivial

theorem within_draw {ε : Type} : R.Within e (Act.draw : Act ε Nat) :=
  ⟨fun w _ => R.draw e w⟩

end Arguments

/-! The basic functions. -/

theorem within_assert (s : Spot) (args : List Value) : R.Within s.env (assert s args) := by
  unfold assert
  refine .bind within_anyArg fun v _ => ?_
  split
  · exact .pure trivial
  · split
    · exact within_failure _
    · exact .raise _
    · exact .raise _

theorem within_error (s : Spot) (args : List Value) : R.Within s.env (error s args) := by
  unfold error
  refine .bind (within_optIntArg 1) fun level _ => ?_
  split
  · split <;> exact .raise _
  · exact .raise _

theorem within_getmetatable (s : Spot) (args : List Value) :
    R.Within s.env (getmetatable s args) := by
  unfold getmetatable
  refine .bind within_anyArg fun v _ => ?_
  exact .bind (within_read_heap _) fun _ _ => .pure trivial

theorem within_setmetatable (s : Spot) (args : List Value) :
    R.Within s.env (setmetatable s args) := by
  unfold setmetatable
  refine .bind within_tableArg fun t _ => ?_
  have set (m : Option TableId) : R.Within s.env (do
      if ← Act.readHeap s.env fun h => (h.handler (.table t) "__metatable").isNil then
        Act.updateHeap s.env (·.setMetatable t m)
        return [.table t]
      else failure s "cannot change a protected metatable" :
      Act Value (List Value)) := by
    refine .bind (within_read_heap _) fun free _ => ?_
    split
    · exact .bind (within_update_heap _ fun h => .of_table h t _) fun _ _ => .pure trivial
    · exact within_failure _
  dsimp only
  split
  · exact set none
  · exact set (some _)
  · exact within_argFailure _

theorem within_nextField (s : Spot) (args : List Value) : R.Within s.env (nextField s args) := by
  unfold nextField
  refine .bind within_tableArg fun t _ => ?_
  refine .bind (within_readTable t) fun table _ => ?_
  split
  · exact .raise _
  · exact .pure trivial
  · exact .pure trivial

theorem within_builtinValue (s : Spot) (b : Builtin) (hb : ∀ c, b ≠ .control c) :
    R.Within s.env (builtinValue s b) := by
  unfold builtinValue
  refine .bind (within_read_heap _) fun found _ => ?_
  split
  · exact .pure trivial
  · refine .bind (within_read_heap _) fun f _ => ?_
    refine .bind (within_update_heap _ fun h => .add_function h _ fun c heq => ?_) fun _ _ => ?_
    · exact hb c (Function.builtin.inj heq)
    · exact .pure trivial

theorem within_pairs (s : Spot) (args : List Value) : R.Within s.env (pairs s args) := by
  unfold pairs
  refine .bind within_tableArg fun t _ => ?_
  exact .bind (within_builtinValue s _ fun c heq => by cases heq) fun _ _ => .pure trivial

theorem within_ipairs (s : Spot) (args : List Value) : R.Within s.env (ipairs s args) := by
  unfold ipairs
  refine .bind within_tableArg fun t _ => ?_
  exact .bind (within_builtinValue s _ fun c heq => by cases heq) fun _ _ => .pure trivial

theorem within_ipairsNext (s : Spot) (args : List Value) : R.Within s.env (ipairsNext s args) := by
  unfold ipairsNext
  refine .bind within_tableArg fun t _ => ?_
  refine .bind within_intArg fun n _ => ?_
  refine .bind (within_readTable t) fun table _ => ?_
  split <;> exact .pure trivial

theorem within_rawequal (s : Spot) (args : List Value) : R.Within s.env (rawequal s args) := by
  unfold rawequal
  refine .bind within_anyArg fun a _ => ?_
  exact .bind within_anyArg fun b _ => .pure trivial

theorem within_rawget (s : Spot) (args : List Value) : R.Within s.env (rawget s args) := by
  unfold rawget
  refine .bind within_tableArg fun t _ => ?_
  refine .bind within_anyArg fun k _ => ?_
  exact .bind (within_readTable t) fun table _ => .pure trivial

theorem within_rawset (s : Spot) (args : List Value) : R.Within s.env (rawset s args) := by
  unfold rawset
  refine .bind within_tableArg fun t _ => ?_
  refine .bind within_anyArg fun k _ => ?_
  refine .bind within_anyArg fun v _ => ?_
  exact .bind (within_setField s t k v) fun _ _ => .pure trivial

theorem within_select (s : Spot) (args : List Value) : R.Within s.env (select s args) := by
  unfold select
  dsimp only
  split
  · exact .pure trivial
  · refine .bind within_intArg fun n _ => ?_
    split
    · exact .pure trivial
    · split
      · exact .pure trivial
      · exact within_argFailure _

theorem within_tonumber (s : Spot) (args : List Value) : R.Within s.env (tonumber s args) := by
  unfold tonumber
  refine .bind (within_optIntArg 10) fun base _ => ?_
  split
  · exact .bind within_anyArg fun v _ => .pure trivial
  · refine .bind within_stringArg fun text _ => ?_
    split
    · exact within_argFailure _
    · exact .pure trivial

theorem within_unpack (s : Spot) (args : List Value) : R.Within s.env (unpack s args) := by
  unfold unpack
  refine .bind within_tableArg fun t _ => ?_
  refine .bind (within_readTable t) fun table _ => ?_
  refine .bind (within_optIntArg 1) fun first _ => ?_
  refine .bind (within_optIntArg _) fun last _ => ?_
  dsimp only
  split
  · exact within_failure _
  · exact .pure trivial

theorem within_newproxy (s : Spot) (args : List Value) : R.Within s.env (newproxy s args) := by
  have make (m : Option TableId) : R.Within s.env (do
      let u ← Act.readHeap s.env (·.nextUserdata)
      Act.updateHeap s.env (·.addUserdata ⟨.blank, m⟩)
      return [.userdata u] : Act Value (List Value)) := by
    refine .bind (within_read_heap _) fun u _ => ?_
    exact .bind (within_update_heap _ fun h => .add_userdata h _ fun s heq => by cases heq)
      fun _ _ => .pure trivial
  unfold newproxy
  dsimp only
  split
  · exact make none
  · exact make none
  · refine .bind (within_newTable .empty) fun v _ => ?_
    split
    · exact make (some _)
    · exact make none
  · exact .bind (within_read_heap _) fun m _ => make m
  · exact within_argFailure _

theorem within_getfenv (s : Spot) (args : List Value) : R.Within s.env (getfenv s args) := by
  refine Regime.within_view fun w b i hb => ?_
  dsimp only
  rw [World.environment_withInterior w i hb]

theorem within_setfenv (s : Spot) (args : List Value) : R.Within s.env (setfenv s args) := by
  unfold setfenv
  refine .bind within_tableArg fun t _ => ?_
  split
  · rename_i f _
    -- that the function is one of a script is known only of the world it was looked up in
    constructor
    intro w
    refine Regime.look_heap ?_
    rcases hf : (w.heap s.env).function? f with _ | ⟨body, chunk, g, captured⟩ | b | c
    · exact (within_failure _).holds w
    · have hchanged := Heap.Grows.replace_closure (w.heap s.env) f _
        (.closure body chunk t captured) hf (fun c heq => by cases heq)
        fun c heq => by cases heq
      exact Law.bind_admits (Regime.change_bound (.heap _ hchanged)) fun _ _ => .pure trivial
    · exact (within_failure _).holds w
    · exact (within_failure _).holds w
  · exact within_failure _

theorem within_collectgarbage (s : Spot) (args : List Value) :
    R.Within s.env (collectgarbage s args) := by
  unfold collectgarbage
  refine .bind (within_optStringArg _) fun option _ => ?_
  split
  · exact within_read_heap _
  all_goals first | exact .pure trivial | exact within_argFailure _

section Calls

variable {run run' : Evaluator} (h : R.Lawful run run')

include h

theorem within_protectedCall (s : Spot) (f : Value) (args : List Value) :
    R.Beside s.env (protectedCall run s f args) (protectedCall run' s f args) :=
  within_attempt (h.call ..)

theorem within_pcall (s : Spot) (args : List Value) :
    R.Beside s.env (pcall run s args) (pcall run' s args) := by
  unfold pcall
  refine .bind within_anyArg fun f _ => ?_
  refine .bind (within_protectedCall h s ..) fun r _ => ?_
  split <;> exact .pure trivial

theorem within_xpcall (s : Spot) (args : List Value) :
    R.Beside s.env (xpcall run s args) (xpcall run' s args) := by
  unfold xpcall
  refine .bind within_functionArg fun handler _ => ?_
  refine .bind (within_protectedCall h s ..) fun r _ => ?_
  split
  · exact .pure trivial
  · refine .bind (within_protectedCall h s ..) fun r _ => ?_
    split <;> exact .pure trivial

theorem within_tostring (s : Spot) (args : List Value) :
    R.Beside s.env (tostring run s args) (tostring run' s args) :=
  .bind within_anyArg fun v _ => within_textOf h s v

theorem within_loadText (s : Spot) (text name : ByteString) :
    R.Beside s.env (loadText run s text name) (loadText run' s text name) := by
  unfold loadText
  refine .bind (h.load ..) fun r _ => ?_
  split <;> exact .pure trivial

theorem within_loadstring (s : Spot) (args : List Value) :
    R.Beside s.env (loadstring run s args) (loadstring run' s args) := by
  unfold loadstring
  refine .bind within_stringArg fun text _ => ?_
  exact .bind (within_optStringArg _) fun name _ => within_loadText h s text name

theorem within_gatherPieces (s : Spot) (f : Value) (limit : Nat) :
    R.Beside s.env (gatherPieces run s f limit) (gatherPieces run' s f limit) := by
  refine .iterate (fun _ => True) ?_ limit _ trivial
  intro text _
  refine .bind (h.call ..) fun vs _ => ?_
  split
  · exact .pure trivial
  · refine .pure ?_
    split <;> exact trivial
  · exact .raise _

theorem within_load (limit : Nat) (s : Spot) (args : List Value) :
    R.Beside s.env (load run limit s args) (load run' limit s args) := by
  unfold load
  split
  · refine .bind (within_optStringArg _) fun name _ => ?_
    refine .bind (within_attempt (within_gatherPieces h s _ limit)) fun r _ => ?_
    split
    · exact within_loadText h s ..
    · exact .pure trivial
  · exact within_loadstring h s args

theorem within_callBase (limit : Nat) (s : Spot) (f : BaseFunction) (args : List Value) :
    R.Beside s.env (callBase run limit s f args) (callBase run' limit s f args) := by
  cases f with
  | assert => exact within_assert s args
  | collectgarbage => exact within_collectgarbage s args
  | error => exact within_error s args
  | getfenv => exact within_getfenv s args
  | getmetatable => exact within_getmetatable s args
  | ipairs => exact within_ipairs s args
  | ipairsNext => exact within_ipairsNext s args
  | load => exact within_load h limit s args
  | loadstring => exact within_loadstring h s args
  | newproxy => exact within_newproxy s args
  | next => exact within_nextField s args
  | pairs => exact within_pairs s args
  | pcall => exact within_pcall h s args
  | rawequal => exact within_rawequal s args
  | rawget => exact within_rawget s args
  | rawset => exact within_rawset s args
  | select => exact within_select s args
  | setfenv => exact within_setfenv s args
  | setmetatable => exact within_setmetatable s args
  | tonumber => exact within_tonumber s args
  | tostring => exact within_tostring h s args
  | type => exact .bind within_anyArg fun v _ => .pure trivial
  | unpack => exact within_unpack s args
  | xpcall => exact within_xpcall h s args

end Calls

/-! The table functions. -/

theorem within_setItem (s : Spot) (t : TableId) (n : Int) (v : Value) :
    R.Within s.env (setItem s t n v) :=
  within_update_heap _ fun h => .raw_set h ..

theorem within_tableConcat (s : Spot) (args : List Value) : R.Within s.env (tableConcat s args) := by
  unfold tableConcat
  refine .bind within_tableArg fun t _ => ?_
  refine .bind (within_readTable t) fun table _ => ?_
  refine .bind (within_optStringArg _) fun separator _ => ?_
  refine .bind (within_optIntArg _) fun first _ => ?_
  refine .bind (within_optIntArg _) fun last _ => ?_
  refine .bind (.map_m _ fun n _ => ?_) fun texts _ => .pure trivial
  dsimp only
  split
  · exact .pure trivial
  · exact within_failure _

theorem within_shiftUp (s : Spot) (t : TableId) (count : Nat) (place : Int) :
    R.Within s.env (shiftUp s t count place) := by
  induction count generalizing place with
  | zero => exact .pure trivial
  | succ count ih =>
    refine .bind (within_readTable t) fun table _ => ?_
    exact .bind (within_setItem s t ..) fun _ _ => ih _

theorem within_shiftDown (s : Spot) (t : TableId) (count : Nat) (place : Int) :
    R.Within s.env (shiftDown s t count place) := by
  induction count generalizing place with
  | zero => exact .pure trivial
  | succ count ih =>
    refine .bind (within_readTable t) fun table _ => ?_
    exact .bind (within_setItem s t ..) fun _ _ => ih _

theorem within_tableInsert (s : Spot) (args : List Value) : R.Within s.env (tableInsert s args) := by
  unfold tableInsert
  refine .bind within_tableArg fun t _ => ?_
  refine .bind (within_readTable t) fun table _ => ?_
  dsimp only
  split
  · exact .bind (within_setItem s t ..) fun _ _ => .pure trivial
  · refine .bind within_intArg fun place _ => ?_
    refine .bind (within_shiftUp s t ..) fun _ _ => ?_
    exact .bind (within_setItem s t ..) fun _ _ => .pure trivial
  · exact within_failure _

theorem within_tableRemove (s : Spot) (args : List Value) : R.Within s.env (tableRemove s args) := by
  unfold tableRemove
  refine .bind within_tableArg fun t _ => ?_
  refine .bind (within_readTable t) fun table _ => ?_
  dsimp only
  split
  · split
    · exact .pure trivial
    · refine .bind (within_readTable t) fun table _ => ?_
      exact .bind (within_setItem s t ..) fun _ _ => .pure trivial
  · refine .bind within_intArg fun place _ => ?_
    split
    · refine .bind (within_readTable t) fun table _ => ?_
      refine .bind (within_shiftDown s t ..) fun _ _ => ?_
      exact .bind (within_setItem s t ..) fun _ _ => .pure trivial
    · exact .pure trivial

theorem within_tableMaxn (s : Spot) (args : List Value) : R.Within s.env (tableMaxn s args) := by
  unfold tableMaxn
  refine .bind within_tableArg fun t _ => ?_
  exact .bind (within_readTable t) fun table _ => .pure trivial

theorem within_tableMove (s : Spot) (args : List Value) : R.Within s.env (tableMove s args) := by
  have move (source : TableId) (first last place : Int) (target : TableId) : R.Within s.env (do
      let table ← readTable s source
      let moved := (List.range (last - first + 1).toNat).map fun (n : Nat) =>
        (place + (n : Int), table.get (itemKey (first + (n : Int))))
      moved.forM fun m => setItem s target m.1 m.2
      return [.table target] : Act Value (List Value)) := by
    refine .bind (within_readTable source) fun table _ => ?_
    exact .bind (.for_m _ fun m _ => within_setItem s target ..) fun _ _ => .pure trivial
  unfold tableMove
  refine .bind within_tableArg fun source _ => ?_
  refine .bind within_intArg fun first _ => ?_
  refine .bind within_intArg fun last _ => ?_
  refine .bind within_intArg fun place _ => ?_
  dsimp only
  split
  · exact move ..
  · exact .bind within_tableArg fun target _ => move ..

section Calls

variable {run run' : Evaluator} (h : R.Lawful run run')

include h

theorem within_sortsBefore (s : Spot) (comparator a b : Value) :
    R.Beside s.env (sortsBefore run s comparator a b) (sortsBefore run' s comparator a b) := by
  unfold sortsBefore
  split
  · exact .bind (h.call ..) fun vs _ => .pure trivial
  · exact within_less h s a b

omit h in
theorem within_mergeSorted {e : EnvironmentId} {before before' : Value → Value → Act Value Bool}
    (hbefore : ∀ a b, R.Beside e (before a b) (before' a b)) (fuel : Nat) (xs ys : List Value) :
    R.Beside e (mergeSorted before fuel xs ys) (mergeSorted before' fuel xs ys) := by
  induction fuel generalizing xs ys with
  | zero => exact .pure trivial
  | succ fuel ih =>
    cases xs with
    | nil => exact .pure trivial
    | cons x xs =>
      cases ys with
      | nil => exact .pure trivial
      | cons y ys =>
        refine .bind (hbefore y x) fun first _ => ?_
        split
        · exact .bind (ih (x :: xs) ys) fun rest _ => .pure trivial
        · exact .bind (ih xs (y :: ys)) fun rest _ => .pure trivial

omit h in
theorem within_sortValues {e : EnvironmentId} {before before' : Value → Value → Act Value Bool}
    (hbefore : ∀ a b, R.Beside e (before a b) (before' a b)) (fuel : Nat) (xs : List Value) :
    R.Beside e (sortValues before fuel xs) (sortValues before' fuel xs) := by
  induction fuel generalizing xs with
  | zero => exact .pure trivial
  | succ fuel ih =>
    unfold sortValues
    split
    · exact .pure trivial
    · refine .bind (ih _) fun left _ => ?_
      refine .bind (ih _) fun right _ => ?_
      exact within_mergeSorted hbefore ..

omit h in
theorem grows_raw_sets (t : TableId) (items : List (Value × Nat)) (x : Heap) :
    x.Grows (items.foldl (fun h v => h.rawSet t (.ofNat v.2) v.1) x) := by
  induction items generalizing x with
  | nil => exact .refl x
  | cons item items ih => exact (Heap.Grows.raw_set x ..).trans (ih _)

def sortTable (s : Spot) (before : Value → Value → Act Value Bool) (t : TableId) :
    Act Value (List Value) := do
  let table ← readTable s t
  let size := table.length
  let values := (List.range size).map fun n => table.getItem (n + 1)
  let sorted ← sortValues before (size + 1) values
  let setAll := fun (h : Heap) =>
    (sorted.zipIdx 1).foldl (fun h v => h.rawSet t (.ofNat v.2) v.1) h
  Act.updateHeap s.env setAll
  return []

theorem within_tableSort (s : Spot) (args : List Value) :
    R.Beside s.env (tableSort run s args) (tableSort run' s args) := by
  have sort (t : TableId) (comparator : Value) :
      R.Beside s.env (sortTable s (sortsBefore run s comparator) t)
        (sortTable s (sortsBefore run' s comparator) t) := by
    refine .bind (within_readTable t) fun table _ => ?_
    refine .bind (within_sortValues (within_sortsBefore h s comparator) ..) fun sorted _ => ?_
    exact .bind (within_update_heap _ fun x => grows_raw_sets t _ x) fun _ _ => .pure trivial
  unfold tableSort
  refine .bind within_tableArg fun t _ => ?_
  dsimp only
  split
  · exact .bind (Q := fun _ => True) (.pure trivial) fun comparator _ => sort t comparator
  · exact .bind within_functionArg fun comparator _ => sort t comparator

theorem within_visitFields (s : Spot) (f : Value) (fields : List (Value × Value)) :
    R.Beside s.env (visitFields run s f fields) (visitFields run' s f fields) := by
  induction fields with
  | nil => exact .pure trivial
  | cons field rest ih =>
    refine .bind (h.call ..) fun vs _ => ?_
    split
    · exact ih
    · exact .pure trivial

theorem within_tableForeach (s : Spot) (args : List Value) :
    R.Beside s.env (tableForeach run s args) (tableForeach run' s args) := by
  unfold tableForeach
  refine .bind within_tableArg fun t _ => ?_
  refine .bind within_functionArg fun f _ => ?_
  exact .bind (within_readTable t) fun table _ => within_visitFields h s f _

theorem within_tableForeachi (s : Spot) (args : List Value) :
    R.Beside s.env (tableForeachi run s args) (tableForeachi run' s args) := by
  unfold tableForeachi
  refine .bind within_tableArg fun t _ => ?_
  refine .bind within_functionArg fun f _ => ?_
  exact .bind (within_readTable t) fun table _ => within_visitFields h s f _

theorem within_callTable (s : Spot) (f : TableFunction) (args : List Value) :
    R.Beside s.env (callTable run s f args) (callTable run' s f args) := by
  cases f with
  | concat => exact within_tableConcat s args
  | foreach => exact within_tableForeach h s args
  | foreachi => exact within_tableForeachi h s args
  | getn =>
    refine .bind within_tableArg fun t _ => ?_
    exact .bind (within_readTable t) fun table _ => .pure trivial
  | insert => exact within_tableInsert s args
  | maxn => exact within_tableMaxn s args
  | move => exact within_tableMove s args
  | remove => exact within_tableRemove s args
  | sort => exact within_tableSort h s args

end Calls

/-! Numbers and bits. -/

section Numbers

variable {e : EnvironmentId} {s : Spot} {args : List Value}

theorem within_unary (f : Float → Float) : R.Within e (unary f s args) :=
  .bind within_numberArg fun _ _ => .pure trivial

theorem within_binary (f : Float → Float → Float) : R.Within e (binary f s args) := by
  refine .bind within_numberArg fun x _ => ?_
  exact .bind within_numberArg fun y _ => .pure trivial

theorem within_best (better : Float → Float → Bool) : R.Within e (best better s args) := by
  refine .bind within_numberArg fun first _ => ?_
  exact .bind (.map_m _ fun n _ => within_numberArg) fun others _ => .pure trivial

theorem within_logarithm : R.Within e (logarithm s args) := by
  unfold logarithm
  refine .bind within_numberArg fun x _ => ?_
  split
  · exact .pure trivial
  · exact .bind within_numberArg fun y _ => .pure trivial

theorem within_scaledByPower : R.Within e (scaledByPower s args) := by
  refine .bind within_numberArg fun x _ => ?_
  exact .bind within_intArg fun n _ => .pure trivial

theorem within_wholeAndFraction : R.Within e (wholeAndFraction s args) := by
  unfold wholeAndFraction
  refine .bind within_numberArg fun x _ => ?_
  split <;> exact .pure trivial

theorem within_randomNumber : R.Within e (randomNumber s args) := by
  unfold randomNumber
  refine .bind within_draw fun n _ => ?_
  dsimp only
  split
  · exact .pure trivial
  · exact .bind within_numberArg fun bound _ => .pure trivial
  · refine .bind within_numberArg fun low _ => ?_
    exact .bind within_numberArg fun high _ => .pure trivial

theorem within_callMath (f : MathFunction) : R.Within e (callMath s f args) := by
  cases f with
  | atan2 => exact within_binary _
  | fmod => exact within_binary _
  | frexp => exact .bind within_numberArg fun _ _ => .pure trivial
  | ldexp => exact within_scaledByPower
  | log => exact within_logarithm
  | max => exact within_best _
  | min => exact within_best _
  | modf => exact within_wholeAndFraction
  | pow => exact within_binary _
  | random => exact within_randomNumber
  | randomseed => exact .pure trivial
  | _ => exact within_unary _

theorem within_bitsArg {n : Nat} : R.Within e (bitsArg s args n) :=
  .bind within_numberArg fun _ _ => .pure trivial

theorem within_hexDigits : R.Within e (hexDigits s args) := by
  unfold hexDigits
  refine .bind within_bitsArg fun b _ => ?_
  exact .bind (within_optIntArg 8) fun count _ => .pure trivial

theorem within_combine (f : UInt32 → UInt32 → UInt32) : R.Within e (combine f s args) := by
  unfold combine
  refine .bind within_bitsArg fun first _ => ?_
  exact .bind (.map_m _ fun n _ => within_bitsArg) fun others _ => .pure trivial

theorem within_shift (f : UInt32 → UInt32 → UInt32) : R.Within e (shift f s args) := by
  unfold shift
  refine .bind within_bitsArg fun b _ => ?_
  exact .bind within_bitsArg fun n _ => .pure trivial

theorem within_callBit (f : BitFunction) : R.Within e (callBit s f args) := by
  unfold callBit
  cases f with
  | band => exact within_combine _
  | bor => exact within_combine _
  | bxor => exact within_combine _
  | bnot => exact .bind within_bitsArg fun _ _ => .pure trivial
  | bswap => exact .bind within_bitsArg fun _ _ => .pure trivial
  | tobit => exact .bind within_bitsArg fun _ _ => .pure trivial
  | tohex => exact within_hexDigits
  | arshift => exact within_shift _
  | lshift => exact within_shift _
  | rol => exact within_shift _
  | ror => exact within_shift _
  | rshift => exact within_shift _

end Numbers

end ScenarioHost.Lua.Library
