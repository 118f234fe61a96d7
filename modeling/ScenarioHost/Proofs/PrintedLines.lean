import Mathlib.Data.List.ReduceOption
import Mathlib.Tactic
import ScenarioHost.Engine
import ScenarioHost.Proofs.Action

/-!
What `print` makes of its arguments. Each becomes a text or none, in the world that the handlers of
those before it leave behind, and the texts are joined with spaces. A space goes before every
argument but the first, so a line begins with one when the first argument has no text and a later
one has.
-/
namespace ScenarioHost.Printing

open Lua (Evaluator Site Spot TableId Value)

variable {run : Evaluator} {s : Spot}

def IsReference : Value → Prop
  | .table _ | .function _ | .userdata _ => True
  | _ => False

inductive Converts (run : Evaluator) (s : Spot) :
    Value → World → Option String → World → Prop where
  | nil (w : World) : Converts run s .nil w (some "nil") w
  | boolean (b : Bool) (w : World) : Converts run s (.boolean b) w (some (toString b)) w
  | number (x : Float) (w : World) : Converts run s (.number x) w (some (numberText x)) w
  | string (bytes : ByteString) (w : World) :
      Converts run s (.string bytes) w (some bytes.toTextLossy) w
  | hostError {v : Value} {w : World} {e : HostError} : IsReference v →
      Conversion.hostError? (w.heap s.env) v = some e → Converts run s v w (some e.shown) w
  /-- Without a handler a value is shown by its kind and its address. -/
  | plain {v : Value} {w : World} : IsReference v → Conversion.hostError? (w.heap s.env) v = none →
      (w.heap s.env).handler v "__tostring" = .nil →
      Converts run s v w (Boundary.plainText (w.heap s.env) v).toText?.toOption w
  | handled {v : Value} {w w' : World} {results : List Value} {bytes : ByteString} : IsReference v →
      Conversion.hostError? (w.heap s.env) v = none →
      (w.heap s.env).handler v "__tostring" ≠ .nil →
      Lua.callHandler run s "tostring" ((w.heap s.env).handler v "__tostring") [v] w =
        .done results w' →
      (Value.first results).toString? = some bytes → Converts run s v w bytes.toText?.toOption w'
  /-- A handler has to give a string. -/
  | unfit {v : Value} {w w' : World} {results : List Value} : IsReference v →
      Conversion.hostError? (w.heap s.env) v = none →
      (w.heap s.env).handler v "__tostring" ≠ .nil →
      Lua.callHandler run s "tostring" ((w.heap s.env).handler v "__tostring") [v] w =
        .done results w' →
      (Value.first results).toString? = none → Converts run s v w none w'
  | failed {v e : Value} {w w' : World} : IsReference v →
      Conversion.hostError? (w.heap s.env) v = none →
      (w.heap s.env).handler v "__tostring" ≠ .nil →
      Lua.callHandler run s "tostring" ((w.heap s.env).handler v "__tostring") [v] w =
        .raised e w' → Converts run s v w none w'

inductive Traverses (run : Evaluator) (s : Spot) (t : TableId) :
    Value → World → List (Option String × Option String) → World → Prop where
  | ended {key : Value} {w : World} :
      (∀ k v, ((w.heap s.env).table t).next? key ≠ some (some (k, v))) → Traverses run s t key w [] w
  | field {key k v : Value} {w w₁ w₂ w' : World} {kText vText : Option String}
      {rest : List (Option String × Option String)} :
      ((w.heap s.env).table t).next? key = some (some (k, v)) → Converts run s k w kText w₁ →
      Converts run s v w₁ vText w₂ → Traverses run s t k w₂ rest w' →
      Traverses run s t key w ((kText, vText) :: rest) w'

def shownField (field : Option String × Option String) : String :=
  ((field.1.map (· ++ "=")).getD "") ++ field.2.getD ""

def shownTable (fields : List (Option String × Option String)) : String :=
  "\x7b" ++ String.intercalate "," (fields.map shownField) ++ "\x7d"

inductive Renders (run : Evaluator) (s : Spot) :
    Argument → World → Option String → World → Prop where
  | table {t : TableId} {w w' : World} {fields : List (Option String × Option String)} :
      Traverses run s t .nil w fields w' → fields.length < fieldLimit →
      Renders run s (.value (.table t)) w (some (shownTable fields)) w'
  | value {v : Value} {w w' : World} {text : Option String} : (∀ t, v ≠ .table t) →
      Converts run s v w text w' → Renders run s (.value v) w text w'
  | double (x : Float) (w : World) : Renders run s (.double x) w (some (plainDouble x)) w

/-- Arguments are rendered one after the other. -/
inductive RendersAll (run : Evaluator) (s : Spot) :
    List Argument → World → List (Option String) → World → Prop where
  | nil (w : World) : RendersAll run s [] w [] w
  | cons {a : Argument} {rest : List Argument} {w w₁ w' : World} {text : Option String}
      {texts : List (Option String)} : Renders run s a w text w₁ →
      RendersAll run s rest w₁ texts w' → RendersAll run s (a :: rest) w (text :: texts) w'

/-! Values. -/

section Values

variable {ε : Type}

/-- A reference is asked for the error it stands for, and else for its text. -/
theorem valueText_of_reference {v : Value} (hv : IsReference v) :
    (valueText run s v : Act ε (Option String)) = do
      match ← Act.readHeap s.env fun h => Conversion.hostError? h v with
      | some e => return some e.shown
      | none =>
        match ← (Boundary.textOf run s v).attempt with
        | .ok text => return text.toText?.toOption
        | .error _ => return none := by
  cases v with
  | table t => rfl
  | function f => rfl
  | userdata u => rfl
  | nil => cases hv
  | boolean b => cases hv
  | number x => cases hv
  | string t => cases hv

theorem valueText_reference {v : Value} (hv : IsReference v) (w : World) :
    (valueText run s v : Act ε (Option String)) w =
      match Conversion.hostError? (w.heap s.env) v with
      | some e => .done (some e.shown) w
      | none =>
        match Boundary.textOf run s v w with
        | .done bytes w' => .done bytes.toText?.toOption w'
        | .raised _ w' => .done none w'
        | @Outcome.starved _ _ w' => @Outcome.starved _ _ w' := by
  rw [valueText_of_reference hv, Act.bind_apply]
  simp only [Act.readHeap, Act.read]
  cases Conversion.hostError? (w.heap s.env) v with
  | some e => rfl
  | none =>
    dsimp only
    rw [Act.bind_apply, Act.attempt_apply]
    cases Boundary.textOf run s v w <;> rfl

theorem textOf_plain {v : Value} {w : World}
    (h : (w.heap s.env).handler v "__tostring" = .nil) :
    Boundary.textOf run s v w = .done (Boundary.plainText (w.heap s.env) v) w := by
  unfold Boundary.textOf
  rw [Act.bind_apply]
  simp only [Act.readHeap, Act.read, h]

theorem textOf_handled {v : Value} {w : World}
    (h : (w.heap s.env).handler v "__tostring" ≠ .nil) :
    Boundary.textOf run s v w =
      match Lua.callHandler run s "tostring" ((w.heap s.env).handler v "__tostring") [v] w with
      | .done results w' =>
        match (Value.first results).toString? with
        | some bytes => .done bytes w'
        | none => .raised (.text "'__tostring' must return a string") w'
      | .raised e w' => .raised e w'
      | @Outcome.starved _ _ w' => @Outcome.starved _ _ w' := by
  unfold Boundary.textOf
  rw [Act.bind_apply]
  simp only [Act.readHeap, Act.read]
  generalize (w.heap s.env).handler v "__tostring" = f at h
  cases f with
  | nil => exact absurd rfl h
  | _ =>
    rw [Act.bind_apply]
    cases Lua.callHandler run s "tostring" _ [v] w with
    | done results w' =>
      dsimp only
      cases (Value.first results).toString? <;> rfl
    | raised e w' => rfl
    | starved => rfl

theorem Converts.valueText {v : Value} {w w' : World} {text : Option String}
    (h : Converts run s v w text w') :
    (valueText run s v : Act ε (Option String)) w = .done text w' := by
  cases h with
  | nil => rfl
  | boolean b => rfl
  | number x => rfl
  | string bytes => rfl
  | hostError hv he => rw [valueText_reference hv, he]
  | plain hv hnone hplain =>
    rw [valueText_reference hv, hnone]
    dsimp only
    rw [textOf_plain hplain]
  | handled hv hnone hhandler hcall htext =>
    rw [valueText_reference hv, hnone]
    dsimp only
    rw [textOf_handled hhandler, hcall]
    dsimp only
    rw [htext]
  | unfit hv hnone hhandler hcall htext =>
    rw [valueText_reference hv, hnone]
    dsimp only
    rw [textOf_handled hhandler, hcall]
    dsimp only
    rw [htext]
  | failed hv hnone hhandler hcall =>
    rw [valueText_reference hv, hnone]
    dsimp only
    rw [textOf_handled hhandler, hcall]

/-- The text of a reference, from what its handler does. -/
theorem converts_reference {v : Value} {w w' : World} {text : Option String} (hv : IsReference v)
    (h : (valueText run s v : Act ε (Option String)) w = .done text w') :
    Converts run s v w text w' := by
  rw [valueText_reference hv] at h
  -- an error of the host has its own text; other values may have a `__tostring`
  cases hhost : Conversion.hostError? (w.heap s.env) v with
  | some e =>
    rw [hhost] at h
    cases h
    exact .hostError hv hhost
  | none =>
    rw [hhost] at h
    dsimp only at h
    by_cases hhandler : (w.heap s.env).handler v "__tostring" = .nil
    · rw [textOf_plain hhandler] at h
      cases h
      exact .plain hv hhost hhandler
    · rw [textOf_handled hhandler] at h
      cases hcall : Lua.callHandler run s "tostring" ((w.heap s.env).handler v "__tostring") [v] w with
      | done results w₁ =>
        rw [hcall] at h
        dsimp only at h
        cases htext : (Value.first results).toString? with
        | some bytes =>
          rw [htext] at h
          cases h
          exact .handled hv hhost hhandler hcall htext
        | none =>
          rw [htext] at h
          cases h
          exact .unfit hv hhost hhandler hcall htext
      | raised e w₁ =>
        rw [hcall] at h
        cases h
        exact .failed hv hhost hhandler hcall
      | starved =>
        rw [hcall] at h
        cases h

/-- A value has a text, or none, exactly as it converts. -/
theorem valueText_done_iff {v : Value} {w w' : World} {text : Option String} :
    (valueText run s v : Act ε (Option String)) w = .done text w' ↔ Converts run s v w text w' := by
  refine ⟨fun h => ?_, Converts.valueText⟩
  cases v with
  | nil =>
    cases h
    exact .nil w
  | boolean b =>
    cases h
    exact .boolean b w
  | number x =>
    cases h
    exact .number x w
  | string bytes =>
    cases h
    exact .string bytes w
  | table t => exact converts_reference trivial h
  | function f => exact converts_reference trivial h
  | userdata u => exact converts_reference trivial h

theorem valueText_silent (v : Value) : (valueText run s v : Act ε (Option String)).Silent := by
  have hreference {v : Value} (hv : IsReference v) :
      (valueText run s v : Act ε (Option String)).Silent := by
    intro w e w' h
    rw [valueText_reference hv] at h
    split at h
    · cases h
    · split at h <;> cases h
  cases v with
  | table t => exact hreference trivial
  | function f => exact hreference trivial
  | userdata u => exact hreference trivial
  | nil => exact .pure _
  | boolean b => exact .pure _
  | number x => exact .pure _
  | string t => exact .pure _

/-! Tables. -/

theorem fieldText_done_iff {k v : Value} {w w' : World} {text : String} :
    (fieldText run s k v : Act ε String) w = .done text w' ↔
      ∃ kText w₁ vText, Converts run s k w kText w₁ ∧ Converts run s v w₁ vText w' ∧
        text = shownField (kText, vText) := by
  unfold fieldText
  rw [Act.bind_done_iff]
  constructor
  · rintro ⟨kText, w₁, hk, h⟩
    obtain ⟨vText, w₂, hv, h⟩ := Act.bind_done_iff.mp h
    cases h
    exact ⟨kText, w₁, vText, valueText_done_iff.mp hk, valueText_done_iff.mp hv, rfl⟩
  · rintro ⟨kText, w₁, vText, hk, hv, rfl⟩
    exact ⟨kText, w₁, hk.valueText, Act.bind_done_iff.mpr ⟨vText, w', hv.valueText, rfl⟩⟩

theorem fieldTexts_next {t : TableId} {key k v : Value} {w : World}
    (h : ((w.heap s.env).table t).next? key = some (some (k, v))) (left : Nat) :
    (fieldTexts run s t (left + 1) key : Act ε (List String)) w =
      (fieldText run s k v >>= fun text =>
        fieldTexts run s t left k >>= fun texts => pure (text :: texts)) w := by
  rw [fieldTexts, Act.bind_apply]
  simp only [Act.readHeap, Act.read, h]

theorem fieldTexts_end {t : TableId} {key : Value} {w : World}
    (h : ∀ k v, ((w.heap s.env).table t).next? key ≠ some (some (k, v))) (left : Nat) :
    (fieldTexts run s t (left + 1) key : Act ε (List String)) w = .done [] w := by
  rw [fieldTexts, Act.bind_apply]
  simp only [Act.readHeap, Act.read]
  rfl

theorem traverses_end_iff {t : TableId} {key : Value} {w w' : World}
    {fields : List (Option String × Option String)}
    (hend : ∀ k v, ((w.heap s.env).table t).next? key ≠ some (some (k, v))) :
    Traverses run s t key w fields w' ↔ fields = [] ∧ w' = w := by
  constructor
  · intro h
    cases h with
    | ended _ => exact ⟨rfl, rfl⟩
    | field hnext => exact absurd hnext (hend _ _)
  · rintro ⟨rfl, rfl⟩
    exact .ended hend

theorem traverses_next_iff {t : TableId} {key k v : Value} {w w' : World}
    {fields : List (Option String × Option String)}
    (hnext : ((w.heap s.env).table t).next? key = some (some (k, v))) :
    Traverses run s t key w fields w' ↔ ∃ kText w₁ vText w₂ rest, Converts run s k w kText w₁ ∧
      Converts run s v w₁ vText w₂ ∧ Traverses run s t k w₂ rest w' ∧
      fields = (kText, vText) :: rest := by
  constructor
  · intro h
    cases h with
    | ended hend => exact absurd hnext (hend k v)
    | @field _ k' v' _ w₁ w₂ _ kText vText rest hnext' hk hv hrest =>
      obtain ⟨rfl, rfl⟩ : k' = k ∧ v' = v := by
        rw [hnext] at hnext'
        cases hnext'
        exact ⟨rfl, rfl⟩
      exact ⟨kText, w₁, vText, w₂, rest, hk, hv, hrest, rfl⟩
  · rintro ⟨kText, w₁, vText, w₂, rest, hk, hv, hrest, rfl⟩
    exact .field hnext hk hv hrest

/-- The texts of fields are those of a traversal that the limit does not cut off. -/
theorem fieldTexts_done_iff {t : TableId} {left : Nat} {key : Value} {w w' : World}
    {texts : List String} :
    (fieldTexts run s t left key : Act ε (List String)) w = .done texts w' ↔
      ∃ fields, Traverses run s t key w fields w' ∧ fields.length < left ∧
        texts = fields.map shownField := by
  -- on the rounds that are left: each takes the traversal one field further
  induction left generalizing key w texts with
  | zero =>
    constructor
    · intro h
      cases h
    · rintro ⟨fields, -, hlength, -⟩
      exact absurd hlength (Nat.not_lt_zero _)
  | succ left ih =>
    by_cases hend : ∀ k v, ((w.heap s.env).table t).next? key ≠ some (some (k, v))
    · rw [fieldTexts_end hend]
      simp only [traverses_end_iff hend]
      constructor
      · rintro ⟨⟩
        exact ⟨[], ⟨rfl, rfl⟩, Nat.succ_pos left, rfl⟩
      · rintro ⟨fields, ⟨rfl, rfl⟩, -, rfl⟩
        rfl
    · obtain ⟨k, v, hnext⟩ : ∃ k v, ((w.heap s.env).table t).next? key = some (some (k, v)) := by
        by_contra hnone
        exact hend fun k v h => hnone ⟨k, v, h⟩
      rw [fieldTexts_next hnext, Act.bind_done_iff]
      simp only [traverses_next_iff hnext]
      constructor
      · rintro ⟨text, w₂, hfield, h⟩
        obtain ⟨kText, w₁, vText, hk, hv, rfl⟩ := fieldText_done_iff.mp hfield
        obtain ⟨rest, w₃, hrest, h⟩ := Act.bind_done_iff.mp h
        cases h
        obtain ⟨fields, hfields, hlength, rfl⟩ := ih.mp hrest
        exact ⟨_, ⟨kText, w₁, vText, w₂, fields, hk, hv, hfields, rfl⟩, Nat.succ_lt_succ hlength, rfl⟩
      · rintro ⟨-, ⟨kText, w₁, vText, w₂, rest, hk, hv, hrest, rfl⟩, hlength, rfl⟩
        have hlater := ih.mpr ⟨rest, hrest, Nat.lt_of_succ_lt_succ hlength, rfl⟩
        refine ⟨shownField (kText, vText), w₂, ?_, Act.bind_done_iff.mpr ⟨_, _, hlater, rfl⟩⟩
        exact fieldText_done_iff.mpr ⟨kText, w₁, vText, hk, hv, rfl⟩

theorem fieldTexts_silent (t : TableId) (left : Nat) (key : Value) :
    (fieldTexts run s t left key : Act ε (List String)).Silent := by
  induction left generalizing key with
  | zero =>
    intro w e w' h
    cases h
  | succ left ih =>
    refine .bind (.read _) fun r => ?_
    split
    · refine .bind ?_ fun text => .bind (ih _) fun rest => .pure _
      exact .bind (valueText_silent _) fun k => .bind (valueText_silent _) fun v => .pure _
    · exact .pure _

/-! Lines. -/

theorem argumentText_done_iff {a : Argument} {w w' : World} {text : Option String} :
    (argumentText run s a : Act ε (Option String)) w = .done text w' ↔ Renders run s a w text w' := by
  -- tables are written field by field; all else is a text of its own
  have htable (t : TableId) : (argumentText run s (.value (.table t)) : Act ε (Option String)) w =
      .done text w' ↔ Renders run s (.value (.table t)) w text w' := by
    have hread : (argumentText run s (.value (.table t)) : Act ε (Option String)) =
        (fieldTexts run s t fieldLimit .nil >>= fun texts =>
          pure (some ("\x7b" ++ String.intercalate "," texts ++ "\x7d"))) := by
      change (tableText run s t >>= fun text => pure (some text)) = _
      rw [tableText, bind_assoc]
      rfl
    rw [hread, Act.bind_done_iff]
    constructor
    · rintro ⟨texts, w₁, htexts, h⟩
      cases h
      obtain ⟨fields, hfields, hlength, rfl⟩ := fieldTexts_done_iff.mp htexts
      exact .table hfields hlength
    · intro h
      cases h with
      | table hfields hlength =>
        exact ⟨_, w', fieldTexts_done_iff.mpr ⟨_, hfields, hlength, rfl⟩, rfl⟩
      | value hv => exact absurd rfl (hv t)
  have hvalue {v : Value} (hv : ∀ t, v ≠ .table t)
      (hread : (argumentText run s (.value v) : Act ε (Option String)) = valueText run s v) :
      (argumentText run s (.value v) : Act ε (Option String)) w = .done text w' ↔
        Renders run s (.value v) w text w' := by
    rw [hread, valueText_done_iff]
    refine ⟨.value hv, fun h => ?_⟩
    cases h with
    | table => exact absurd rfl (hv _)
    | value _ h => exact h
  cases a with
  | double x =>
    constructor
    · rintro ⟨⟩
      exact .double x w
    · rintro ⟨⟩
      rfl
  | value v =>
    cases v with
    | table t => exact htable t
    | _ => exact hvalue (fun t ht => by cases ht) rfl

theorem argumentText_silent (a : Argument) :
    (argumentText run s a : Act ε (Option String)).Silent := by
  have htable (t : TableId) : (argumentText run s (.value (.table t)) : Act ε (Option String)).Silent :=
    .bind (.bind (fieldTexts_silent t _ _) fun texts => .pure _) fun text => .pure _
  have hvalue {v : Value}
      (hread : (argumentText run s (.value v) : Act ε (Option String)) = valueText run s v) :
      (argumentText run s (.value v) : Act ε (Option String)).Silent := hread ▸ valueText_silent v
  cases a with
  | double x => exact .pure _
  | value v =>
    cases v with
    | table t => exact htable t
    | _ => exact hvalue rfl

def afterSpaces (texts : List (Option String)) : String :=
  String.join (texts.reduceOption.map (" " ++ ·))

theorem after_spaces_cons (text : Option String) (texts : List (Option String)) :
    afterSpaces (text :: texts) = ((text.map (" " ++ ·)).getD "") ++ afterSpaces texts := by
  cases text with
  | none => exact String.empty_append.symm
  | some text => exact String.join_cons

theorem restText_done_iff {args : List Argument} {w w' : World} {text : String} :
    (restText run s args : Act ε String) w = .done text w' ↔
      ∃ texts, RendersAll run s args w texts w' ∧ text = afterSpaces texts := by
  induction args generalizing w text with
  | nil =>
    constructor
    · intro h
      cases h
      exact ⟨[], .nil _, rfl⟩
    · rintro ⟨texts, hall, rfl⟩
      cases hall
      rfl
  | cons a rest ih =>
    rw [restText, Act.bind_done_iff]
    constructor
    · rintro ⟨first, w₁, hfirst, h⟩
      obtain ⟨after, w₂, hafter, h⟩ := Act.bind_done_iff.mp h
      cases h
      obtain ⟨texts, hall, rfl⟩ := ih.mp hafter
      refine ⟨first :: texts, .cons (argumentText_done_iff.mp hfirst) hall, ?_⟩
      exact (after_spaces_cons first texts).symm
    · rintro ⟨texts, hall, rfl⟩
      cases hall with
      | @cons _ _ _ w₁ _ first texts hfirst hrest =>
        refine ⟨first, w₁, argumentText_done_iff.mpr hfirst, ?_⟩
        refine Act.bind_done_iff.mpr ⟨_, _, ih.mpr ⟨texts, hrest, rfl⟩, ?_⟩
        rw [after_spaces_cons]
        rfl

theorem restText_silent (args : List Argument) : (restText run s args : Act ε String).Silent := by
  induction args with
  | nil => exact .pure _
  | cons a rest ih =>
    exact .bind (argumentText_silent a) fun text => .bind ih fun after => .pure _

/-- The line of some texts: those that are there, joined with spaces, and one more space before them
if the first argument has none. -/
def shownLine (texts : List (Option String)) : String :=
  (if texts.head? = some none ∧ texts.reduceOption ≠ [] then " " else "") ++
    String.intercalate " " texts.reduceOption

/-- Texts with a space before each are a space and the texts joined with spaces. -/
theorem join_spaced (first : String) (texts : List String) :
    String.join ((first :: texts).map (" " ++ ·)) = " " ++ String.intercalate " " (first :: texts) := by
  induction texts generalizing first with
  | nil =>
    rw [List.map_singleton, String.join_cons, String.join_nil, String.append_empty,
      String.intercalate_singleton]
  | cons second texts ih =>
    rw [List.map_cons, String.join_cons, ih, String.intercalate_cons_cons, String.append_assoc,
      String.append_assoc]

theorem shownLine_cons (first : Option String) (texts : List (Option String)) :
    shownLine (first :: texts) = first.getD "" ++ afterSpaces texts := by
  unfold shownLine afterSpaces
  rw [List.head?_cons]
  cases first with
  | none =>
    -- the space before the second text is left, though nothing stands in front of it
    rw [List.reduceOption_cons_of_none]
    cases texts.reduceOption with
    | nil => rfl
    | cons second later =>
      rw [if_pos ⟨rfl, List.cons_ne_nil second later⟩, join_spaced]
      exact String.empty_append.symm
  | some first =>
    rw [List.reduceOption_cons_of_some, if_neg (fun h => Option.some_ne_none first (Option.some.inj h.1))]
    rw [String.empty_append]
    cases texts.reduceOption with
    | nil =>
      rw [String.intercalate_singleton]
      exact String.append_empty.symm
    | cons second later =>
      rw [join_spaced, String.intercalate_cons_cons, String.append_assoc]
      rfl

theorem line_done_iff {args : List Argument} {w w' : World} {text : String} :
    (line run s args : Act ε String) w = .done text w' ↔
      ∃ texts, RendersAll run s args w texts w' ∧ text = shownLine texts := by
  cases args with
  | nil =>
    constructor
    · intro h
      cases h
      exact ⟨[], .nil _, rfl⟩
    · rintro ⟨texts, hall, rfl⟩
      cases hall
      rfl
  | cons a rest =>
    rw [line, Act.bind_done_iff]
    constructor
    · rintro ⟨first, w₁, hfirst, h⟩
      obtain ⟨after, w₂, hafter, h⟩ := Act.bind_done_iff.mp h
      cases h
      obtain ⟨texts, hall, rfl⟩ := restText_done_iff.mp hafter
      refine ⟨first :: texts, .cons (argumentText_done_iff.mp hfirst) hall, ?_⟩
      exact (shownLine_cons first texts).symm
    · rintro ⟨texts, hall, rfl⟩
      cases hall with
      | @cons _ _ _ w₁ _ first texts hfirst hrest =>
        refine ⟨first, w₁, argumentText_done_iff.mpr hfirst, ?_⟩
        refine Act.bind_done_iff.mpr ⟨_, _, restText_done_iff.mpr ⟨texts, hrest, rfl⟩, ?_⟩
        rw [shownLine_cons]
        rfl

theorem line_silent (args : List Argument) : (line run s args : Act ε String).Silent := by
  cases args with
  | nil => exact .pure _
  | cons a rest =>
    exact .bind (argumentText_silent a) fun text => .bind (restText_silent rest) fun after => .pure _

end Values

/-- Printing never fails, and the line is that of the texts that the arguments convert to, one after
the other. -/
theorem line_joins_texts {ε : Type} (run : Evaluator) (s : Spot) (args : List Argument) :
    (line run s args : Act ε String).Silent ∧
      ∀ (w w' : World) (text : String), (line run s args : Act ε String) w = .done text w' ↔
        ∃ texts, RendersAll run s args w texts w' ∧
          text = (if texts.head? = some none ∧ texts.reduceOption ≠ [] then " " else "") ++
            String.intercalate " " texts.reduceOption :=
  ⟨line_silent args, fun _ _ _ => line_done_iff⟩

def unshowable : World :=
  { World.new Config.default default with
    environments := #[{ (default : Environment) with
      heap := { Lua.Heap.empty with
        tables := #[⟨#[], #[(.text "__tostring", .boolean true)], none⟩]
        userdata := #[⟨.blank, some ⟨0⟩⟩] } }] }

/-- A first argument without a text leaves the space that goes before the second. -/
theorem line_begins_with_space :
    RendersAll (Engine.engine 2 2) ⟨⟨0⟩, .outside, none⟩
      [.value (.userdata ⟨0⟩), .value (.text "b")] unshowable [none, some "b"] unshowable ∧
    (line (Engine.engine 2 2) ⟨⟨0⟩, .outside, none⟩
      [.value (.userdata ⟨0⟩), .value (.text "b")] : Act HostError String) unshowable =
        .done " b" unshowable ∧
    String.intercalate " " [none, some "b"].reduceOption ≠ " b" := by
  have hfirst : Converts (Engine.engine 2 2) ⟨⟨0⟩, .outside, none⟩ (.userdata ⟨0⟩) unshowable none
      unshowable := .failed trivial rfl (fun h => by cases h) rfl
  have htext : (ByteString.mk "b").toTextLossy = "b" := by decide
  have hsecond : Converts (Engine.engine 2 2) ⟨⟨0⟩, .outside, none⟩ (.text "b") unshowable (some "b")
      unshowable := htext ▸ .string ⟨"b"⟩ unshowable
  have hall : RendersAll (Engine.engine 2 2) ⟨⟨0⟩, .outside, none⟩
      [.value (.userdata ⟨0⟩), .value (.text "b")] unshowable [none, some "b"] unshowable :=
    .cons (.value (fun t h => by cases h) hfirst)
      (.cons (.value (fun t h => by cases h) hsecond) (.nil _))
  exact ⟨hall, line_done_iff.mpr ⟨_, hall, by decide⟩, by decide⟩

end ScenarioHost.Printing
