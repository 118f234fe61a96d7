import ScenarioHost.Proofs.Handles
import ScenarioHost.Proofs.TableFields

/-!
Classes as tables. A class has a metatable that makes it callable and keeps the metatable of its
instances, which sends reads of fields that an instance lacks to the class. As long as these two
metatables stay as they were made, reading and writing the fields of classes and instances comes
down to what their own tables hold.
-/
namespace ScenarioHost

open Lua (Evaluator Heap Naming Site Spot Table TableId Value)

theorem World.modifyHeap_twice (w : World) (e : EnvironmentId) (f g : Heap → Heap) :
    (w.modifyHeap e f).modifyHeap e g = w.modifyHeap e fun h => g (f h) :=
  w.modifyEnvironment_twice e _ _

theorem World.Allocated.modifyHeap {w : World} {e : EnvironmentId} (he : w.Allocated e)
    (f : Heap → Heap) : (w.modifyHeap e f).Allocated e := by
  rwa [Allocated, World.modifyHeap, size_modifyEnvironment]

/-! Fields of tables by way of their handlers. -/

namespace Lua

variable {run : Evaluator} {s : Spot} {w : World} {t : TableId} {key : Value}

theorem Value.eq_nil_of_isNil {v : Value} (h : v.isNil = true) : v = .nil := by
  cases v <;> first | rfl | cases h

theorem Heap.handler_table {h : Heap} {t m : TableId} (hm : (h.table t).metatable = some m)
    (event : String) : h.handler (.table t) event = h.rawGet m (.text event) := by
  have hfound : h.metatable? (.table t) = some m := hm
  rw [handler, hfound]

def Value.IsKey : Value → Prop
  | .nil => False
  | .number x => (x == x) = true
  | _ => True

/-- A field that is there is read as it is; one that is not, where nothing is asked for it. -/
theorem index_plain (fuel : Nat) (naming : Option Naming)
    (hplain : (w.heap s.env).rawGet t key = .nil →
      (w.heap s.env).handler (.table t) "__index" = .nil) :
    index run s (fuel + 1) naming (.table t) key w = .done ((w.heap s.env).rawGet t key) w := by
  have hfield : fieldOrHandler (w.heap s.env) (.table t) key =
      ((w.heap s.env).rawGet t key, .nil) := by
    unfold fieldOrHandler
    dsimp only
    split
    · rename_i hnil
      rw [hplain hnil, hnil]
    · rfl
  rw [index, Act.bind_apply]
  simp only [Act.readHeap, Act.read, hfield]
  rfl

/-- A field that a table lacks is read from the table that is its handler. -/
theorem index_delegated (fuel : Nat) (naming : Option Naming) {c : TableId}
    (hnil : (w.heap s.env).rawGet t key = .nil)
    (hhandler : (w.heap s.env).handler (.table t) "__index" = .table c) :
    index run s (fuel + 1) naming (.table t) key w = index run s fuel none (.table c) key w := by
  have hfield : fieldOrHandler (w.heap s.env) (.table t) key = (.nil, .table c) := by
    unfold fieldOrHandler
    simp only [hnil, hhandler]
  rw [index, Act.bind_apply]
  simp only [Act.readHeap, Act.read, hfield]

theorem Spot.raise_ne_done {α : Type} (s : Spot) (message : ByteString) (a : α) (w w' : World) :
    s.raise message w ≠ .done a w' := by
  unfold raise
  cases s.place <;> exact nofun

theorem set_field_apply (hkey : key.IsKey) (v : Value) :
    setField s t key v w = .done () (w.modifyHeap s.env (·.rawSet t key v)) := by
  cases key with
  | nil => exact hkey.elim
  | number x =>
    have hx : (x == x) = true := hkey
    simp only [setField, hx, if_true]
    rfl
  | _ => rfl

theorem set_field_done_iff (v : Value) (w' : World) :
    setField s t key v w = .done () w' ↔
      key.IsKey ∧ w' = w.modifyHeap s.env (·.rawSet t key v) := by
  by_cases hkey : key.IsKey
  · rw [set_field_apply hkey]
    constructor
    · intro h
      cases h
      exact ⟨hkey, rfl⟩
    · rintro ⟨-, rfl⟩
      rfl
  · -- nil and what is not a number are refused
    have hrefused : setField s t key v w ≠ .done () w' := by
      cases key with
      | nil => exact s.raise_ne_done _ _ _ _
      | number x =>
        have hx : ¬ (x == x) = true := hkey
        rw [setField, if_neg hx]
        exact s.raise_ne_done _ _ _ _
      | _ => exact absurd trivial hkey
    exact ⟨fun h => absurd h hrefused, fun h => absurd h.1 hkey⟩

end Lua

namespace Classes

def metaOf (c : TableId) : TableId := ⟨c.index + 1⟩

def instanceMetaOf (c : TableId) : TableId := ⟨c.index + 2⟩

structure IsClass (h : Heap) (c : TableId) : Prop where
  size : c.index + 2 < h.tables.size
  metatable : (h.table c).metatable = some (metaOf c)
  call : ∃ f, h.rawGet (metaOf c) (.text "__call") = .function f ∧
    h.function? f = some (.builtin .construct)
  instances : h.rawGet (metaOf c) (Conversion.ofText "__instance") = .table (instanceMetaOf c)
  plain : h.rawGet (metaOf c) (.text "__index") = .nil
  open_ : h.rawGet (metaOf c) (.text "__newindex") = .nil
  index : h.rawGet (instanceMetaOf c) (.text "__index") = .table c
  instanceOpen : h.rawGet (instanceMetaOf c) (.text "__newindex") = .nil

structure IsInstance (h : Heap) (c o : TableId) : Prop where
  size : o.index < h.tables.size
  metatable : (h.table o).metatable = some (instanceMetaOf c)

def resolve (own shared : Value) : Value := if own.isNil then shared else own

namespace IsClass

variable {run : Evaluator} {s : Spot} {w : World} {c o : TableId}

section Reading

variable (hc : IsClass (w.heap s.env) c) (naming : Option Naming) (key : Value)

include hc

theorem handler (event : String) :
    (w.heap s.env).handler (.table c) event = (w.heap s.env).rawGet (metaOf c) (.text event) :=
  Heap.handler_table hc.metatable event

/-- A class falls back to nothing. -/
theorem read (fuel : Nat) :
    Lua.index run s (fuel + 1) naming (.table c) key w = .done ((w.heap s.env).rawGet c key) w :=
  Lua.index_plain fuel naming fun _ => (hc.handler "__index").trans hc.plain

theorem write (fuel : Nat) (v : Value) :
    Lua.setIndex run s (fuel + 1) naming (.table c) key v w = Lua.setField s c key v w :=
  Lua.set_index_own fuel naming ((hc.handler "__newindex").trans hc.open_)

variable (ho : IsInstance (w.heap s.env) c o)

include ho

omit hc in
theorem instance_handler (event : String) : (w.heap s.env).handler (.table o) event =
    (w.heap s.env).rawGet (instanceMetaOf c) (.text event) :=
  Heap.handler_table ho.metatable event

/-- An instance falls back to its class as that is now. -/
theorem read_instance (fuel : Nat) :
    Lua.index run s (fuel + 2) naming (.table o) key w =
      .done (resolve ((w.heap s.env).rawGet o key) ((w.heap s.env).rawGet c key)) w := by
  unfold resolve
  cases hown : ((w.heap s.env).rawGet o key).isNil with
  | true =>
    have hnil : (w.heap s.env).rawGet o key = .nil := Value.eq_nil_of_isNil hown
    have hclass : (w.heap s.env).handler (.table o) "__index" = .table c :=
      (instance_handler ho "__index").trans hc.index
    rw [Lua.index_delegated (fuel + 1) naming hnil hclass, hc.read none key fuel]
    rfl
  | false =>
    refine Lua.index_plain (fuel + 1) naming fun hnil => ?_
    rw [hnil] at hown
    cases hown

theorem write_instance (fuel : Nat) (v : Value) :
    Lua.setIndex run s (fuel + 1) naming (.table o) key v w = Lua.setField s o key v w :=
  Lua.set_index_own fuel naming ((instance_handler ho "__newindex").trans hc.instanceOpen)

end Reading

/-- A class stays one where its metatables and the function that makes instances are kept. -/
theorem kept {h h' : Heap} (hc : IsClass h c) (hsize : h.tables.size ≤ h'.tables.size)
    (hconstruct : ∀ f, h.function? f = some (.builtin .construct) →
      h'.function? f = some (.builtin .construct))
    (hmetatable : (h'.table c).metatable = (h.table c).metatable)
    (hmeta : ∀ key, h'.rawGet (metaOf c) key = h.rawGet (metaOf c) key)
    (hinstances : ∀ key, h'.rawGet (instanceMetaOf c) key = h.rawGet (instanceMetaOf c) key) :
    IsClass h' c where
  size := Nat.lt_of_lt_of_le hc.size hsize
  metatable := hmetatable.trans hc.metatable
  call := by
    obtain ⟨f, hcall, hf⟩ := hc.call
    exact ⟨f, (hmeta _).trans hcall, hconstruct f hf⟩
  instances := (hmeta _).trans hc.instances
  plain := (hmeta _).trans hc.plain
  open_ := (hmeta _).trans hc.open_
  index := (hinstances _).trans hc.index
  instanceOpen := (hinstances _).trans hc.instanceOpen

end IsClass

/-! Making classes. -/

def withClass (c : TableId) (f : Lua.FunctionId) (h : Heap) : Heap :=
  let tables := ((h.addTable .empty).addTable .empty).addTable .empty
  let linked := (tables.rawSet (instanceMetaOf c) (.text "__index") (.table c)).rawSet (metaOf c)
    (.text "__instance") (.table (instanceMetaOf c))
  let callable := (linked.addFunction (.builtin .construct)).rawSet (metaOf c) (.text "__call")
    (.function f)
  callable.setMetatable c (some (metaOf c))

def madeClass (env : EnvironmentId) (w : World) : World :=
  w.modifyHeap env (withClass (w.heap env).nextTable (w.heap env).nextFunction)

theorem create_apply {ε : Type} {env : EnvironmentId} {w : World} (he : w.Allocated env) :
    (create env w : Outcome ε TableId) = .done (w.heap env).nextTable (madeClass env w) := by
  have hnew {ε : Type} (w : World) : (newTable env w : Outcome ε TableId) =
      .done (w.heap env).nextTable (w.modifyHeap env (·.addTable .empty)) := rfl
  have hset {ε : Type} (t : TableId) (key : String) (v : Value) (w : World) :
      (setRaw env t key v w : Outcome ε Unit) =
        .done () (w.modifyHeap env (·.rawSet t (.text key) v)) := rfl
  have hsecond (h : Heap) : (h.addTable .empty).nextTable = metaOf h.nextTable := by
    rw [Heap.nextTable, Heap.size_addTable]
    rfl
  have hfunction (h : Heap) (t : TableId) (key v : Value) :
      (h.rawSet t key v).nextFunction = h.nextFunction := rfl
  have htable (h : Heap) (t : Table) : (h.addTable t).nextFunction = h.nextFunction := rfl
  unfold create madeClass
  simp only [Act.bind_apply, hnew, hset, Act.readHeap, Act.read, Act.updateHeap, Act.update,
    World.modifyHeap_twice, World.heap_modifyHeap _ _ he, hsecond, hfunction, htable]
  rfl

section Making

variable (h : Heap)

theorem size_withClass (c : TableId) (f : Lua.FunctionId) :
    (withClass c f h).tables.size = h.tables.size + 3 := by
  simp [withClass, Heap.addFunction]

theorem function_withClass {g : Lua.FunctionId} {x : Lua.Function} (hg : h.function? g = some x)
    (c : TableId) (f : Lua.FunctionId) : (withClass c f h).function? g = some x := by
  obtain ⟨hsize, hx⟩ := Array.getElem?_eq_some_iff.mp hg
  change (h.functions.push _)[g.index]? = some x
  rw [Array.getElem?_push_lt hsize, hx]

/-- All tables but the three new ones are as they were. -/
theorem table_withClass {t c : TableId} (f : Lua.FunctionId) (hclass : t ≠ c)
    (hmeta : t ≠ metaOf c) (hinstances : t ≠ instanceMetaOf c) :
    (withClass c f h).table t = h.table t := by
  unfold withClass
  rw [Heap.table_setMetatable, if_neg fun hboth => hclass hboth.1,
    Heap.table_rawSet_other _ _ _ hmeta]
  change (Heap.rawSet _ _ _ _).table t = _
  rw [Heap.table_rawSet_other _ _ _ hmeta, Heap.table_rawSet_other _ _ _ hinstances]
  simp only [Heap.table_addTable_empty]

theorem metatable_withClass (f : Lua.FunctionId) :
    ((withClass h.nextTable f h).table h.nextTable).metatable = some (metaOf h.nextTable) := by
  have hsize : h.nextTable.index < h.tables.size + 1 + 1 + 1 := by
    change h.tables.size < _
    omega
  unfold withClass
  rw [Heap.table_setMetatable, if_pos]
  simpa only [Heap.size_rawSet, Heap.size_addFunction, Heap.size_addTable, true_and] using hsize

/-- What the three new tables hold. -/
theorem rawGet_withClass (f : Lua.FunctionId) (x : TableId) (key : Value) :
    (withClass h.nextTable f h).rawGet x key =
      if x = metaOf h.nextTable ∧ (Value.text "__call").same key then .function f
      else if x = metaOf h.nextTable ∧ (Value.text "__instance").same key then
        .table (instanceMetaOf h.nextTable)
      else if x = instanceMetaOf h.nextTable ∧ (Value.text "__index").same key then
        .table h.nextTable
      else h.rawGet x key := by
  have hmeta : (metaOf h.nextTable).index < h.tables.size + 1 + 1 + 1 := by
    change h.tables.size + 1 < _
    omega
  have hinstances : (instanceMetaOf h.nextTable).index < h.tables.size + 1 + 1 + 1 := by
    change h.tables.size + 2 < _
    omega
  unfold withClass
  rw [Heap.rawGet_setMetatable, Heap.rawGet_rawSet, Heap.rawGet_addFunction, Heap.rawGet_rawSet,
    Heap.rawGet_rawSet]
  · simp only [Heap.rawGet, Heap.table_addTable_empty]
  -- all three tables are there by the time they are written to
  · simpa only [Heap.size_addTable] using hinstances
  · simpa only [Heap.size_rawSet, Heap.size_addTable] using hmeta
  · simpa only [Heap.size_rawSet, Heap.size_addFunction, Heap.size_addTable] using hmeta

theorem rawGet_absent {t : TableId} (ht : h.tables.size ≤ t.index) (key : Value) :
    h.rawGet t key = .nil := by
  rw [Heap.rawGet, h.table_of_absent t ht, Table.get_empty]

theorem rawGet_next (key : Value) : h.rawGet h.nextTable key = .nil :=
  rawGet_absent h (Nat.le_refl _) key

theorem ne_metaOf (c : TableId) : c ≠ metaOf c := fun heq =>
  absurd (congrArg TableId.index heq) (Nat.ne_of_lt (Nat.lt_succ_self _))

theorem ne_instanceMetaOf (c : TableId) : c ≠ instanceMetaOf c := fun heq =>
  absurd (congrArg TableId.index heq) (Nat.ne_of_lt (Nat.lt_add_of_pos_right (by decide)))

theorem metaOf_ne_instanceMetaOf (c : TableId) : metaOf c ≠ instanceMetaOf c := ne_metaOf (metaOf c)

/-- A new class has no fields. -/
theorem rawGet_new (f : Lua.FunctionId) (key : Value) :
    (withClass h.nextTable f h).rawGet h.nextTable key = .nil := by
  simp only [rawGet_withClass, ne_metaOf, ne_instanceMetaOf, false_and, if_false]
  exact rawGet_next h key

theorem is_class_withClass :
    IsClass (withClass h.nextTable h.nextFunction h) h.nextTable := by
  -- the fields that are set on the way have different names, or are fields of different tables
  have hnames : (Value.text "__call").same (Conversion.ofText "__instance") = false ∧
      (Value.text "__call").same (.text "__index") = false ∧
      (Value.text "__instance").same (.text "__index") = false ∧
      (Value.text "__call").same (.text "__newindex") = false ∧
      (Value.text "__instance").same (.text "__newindex") = false ∧
      (Value.text "__index").same (.text "__newindex") = false := by decide
  have hself : (Value.text "__call").same (.text "__call") = true ∧
      (Value.text "__instance").same (Conversion.ofText "__instance") = true ∧
      (Value.text "__index").same (.text "__index") = true := by decide
  have hmeta (key : Value) : h.rawGet (metaOf h.nextTable) key = .nil :=
    rawGet_absent h (Nat.le_succ _) key
  have hinstances (key : Value) : h.rawGet (instanceMetaOf h.nextTable) key = .nil :=
    rawGet_absent h (Nat.le_add_right _ 2) key
  have hapart := metaOf_ne_instanceMetaOf h.nextTable
  have hfunction : (withClass h.nextTable h.nextFunction h).function? h.nextFunction =
      some (.builtin .construct) := Array.getElem?_push_size
  constructor
  case size =>
    rw [size_withClass]
    exact Nat.add_lt_add_left (by decide) _
  case metatable => exact metatable_withClass h _
  case call => exact ⟨h.nextFunction, by simp [rawGet_withClass, hself], hfunction⟩
  case instances => simp [rawGet_withClass, hnames, hself]
  case plain => simp [rawGet_withClass, hnames, hmeta, hapart]
  case open_ => simp [rawGet_withClass, hnames, hmeta, hapart]
  case index => simp [rawGet_withClass, hself, hapart.symm]
  case instanceOpen => simp [rawGet_withClass, hnames, hinstances, hapart.symm]

end Making

/-! Making instances. -/

def withInstance (c o : TableId) (h : Heap) : Heap :=
  (h.addTable .empty).setMetatable o (some (instanceMetaOf c))

def bornInstance (env : EnvironmentId) (c : TableId) (w : World) : World :=
  w.modifyHeap env (withInstance c (w.heap env).nextTable)

section Bearing

variable (h : Heap) (c : TableId)

@[simp] theorem size_withInstance (o : TableId) :
    (withInstance c o h).tables.size = h.tables.size + 1 := by
  rw [withInstance, Heap.size_setMetatable, Heap.size_addTable]

theorem table_withInstance {t o : TableId} (ht : t ≠ o) :
    (withInstance c o h).table t = h.table t := by
  rw [withInstance, Heap.table_setMetatable, if_neg fun hboth => ht hboth.1,
    Heap.table_addTable_empty]

/-- A new instance has no fields of its own. -/
@[simp] theorem rawGet_withInstance (t o : TableId) (key : Value) :
    (withInstance c o h).rawGet t key = h.rawGet t key := by
  rw [withInstance, Heap.rawGet_setMetatable, Heap.rawGet, Heap.table_addTable_empty, Heap.rawGet]

theorem is_instance_withInstance : IsInstance (withInstance c h.nextTable h) c h.nextTable := by
  have hsize : h.nextTable.index < (h.addTable .empty).tables.size := by
    rw [Heap.size_addTable]
    exact Nat.lt_succ_self _
  constructor
  · rw [size_withInstance]
    exact Nat.lt_succ_self _
  · rw [withInstance, Heap.table_setMetatable, if_pos ⟨rfl, hsize⟩]

variable {h c}

theorem IsClass.ne_next (hc : IsClass h c) : c ≠ h.nextTable := by
  have hindex : c.index < h.tables.size := Nat.lt_of_le_of_lt (Nat.le_add_right _ 2) hc.size
  exact fun heq => absurd (congrArg TableId.index heq) (Nat.ne_of_lt hindex)

theorem IsClass.withInstance (hc : IsClass h c) :
    IsClass (withInstance c h.nextTable h) c := by
  refine hc.kept ?_ (fun _ hf => hf) ?_ (fun key => ?_) fun key => ?_
  · rw [size_withInstance]
    exact Nat.le_succ _
  · rw [table_withInstance h c hc.ne_next]
  · exact rawGet_withInstance ..
  · exact rawGet_withInstance ..

end Bearing

theorem heap_bornInstance {w : World} {env : EnvironmentId} (he : w.Allocated env)
    (c : TableId) : (bornInstance env c w).heap env =
      withInstance c (w.heap env).nextTable (w.heap env) := World.heap_modifyHeap _ _ he _

/-- What the instances of a class have as their metatable is found by its name. -/
theorem IsClass.get_instances {run : Evaluator} {s : Spot} {w : World} {c : TableId}
    (hc : IsClass (w.heap s.env) c) :
    Boundary.getField run s.env (s.site none) (.table (metaOf c)) "__instance" w =
      .done (.table (instanceMetaOf c)) w := by
  refine Boundary.from_host_done ?_
  refine (Lua.index_plain (s := ⟨s.env, s.site none, none⟩) 99 none fun hnil => ?_).trans ?_
  · rw [hc.instances] at hnil
    cases hnil
  · rw [hc.instances]

/-- An instance that was just made has no field yet, so it is its class that is asked. -/
theorem IsClass.get_init {run : Evaluator} {s : Spot} {w : World} {c : TableId}
    (hc : IsClass (w.heap s.env) c) (he : w.Allocated s.env) :
    Boundary.getField run s.env (s.site none) (.table (w.heap s.env).nextTable) "__init__"
      (bornInstance s.env c w) = .done ((w.heap s.env).rawGet c (Conversion.ofText "__init__"))
        (bornInstance s.env c w) := by
  have hborn := heap_bornInstance he c
  refine Boundary.from_host_done ?_
  have hclass : IsClass ((bornInstance s.env c w).heap s.env) c := by
    rw [hborn]
    exact hc.withInstance
  have hinstance : IsInstance ((bornInstance s.env c w).heap s.env) c
      (w.heap s.env).nextTable := by
    rw [hborn]
    exact is_instance_withInstance ..
  refine (hclass.read_instance (s := ⟨s.env, s.site none, none⟩) none _ hinstance 98).trans ?_
  rw [hborn, rawGet_withInstance, rawGet_withInstance, rawGet_next]
  rfl

/-- To make an instance is to make a table whose `__init__` is that of the class. -/
theorem allocate_apply (run : Evaluator) (s : Spot) (args : List Value) {w : World} {c : TableId}
    (he : w.Allocated s.env) (hc : IsClass (w.heap s.env) c) :
    allocate run s (.table c :: args) w =
      .done ((w.heap s.env).nextTable, (w.heap s.env).rawGet c (Conversion.ofText "__init__"))
        (bornInstance s.env c w) := by
  have hargument : Conversion.argument Conversion.toTable s.env (.table c :: args) 1 w =
      .done c w := rfl
  have hadded : (newTable s.env w : Outcome HostError TableId) =
      .done (w.heap s.env).nextTable (w.modifyHeap s.env (·.addTable .empty)) := rfl
  have hgiven : (w.modifyHeap s.env (·.addTable .empty)).modifyHeap s.env
      (·.setMetatable (w.heap s.env).nextTable (some (instanceMetaOf c))) =
        bornInstance s.env c w := w.modifyHeap_twice ..
  unfold allocate
  rw [Act.bind_apply, hargument]
  simp only [Act.bind_apply, Act.readHeap, Act.read, hc.metatable, hc.get_instances,
    Conversion.toTable, Act.ofExcept, Act.pure, hadded, Act.updateHeap, Act.update, hgiven,
    hc.get_init he]
  rfl

/-! Calling classes. -/

/-- The rest of the call of a class whose new instance is `o` and whose `__init__` is some value. A
function is called with the instance, and what it gives is dropped; its error is raised again, as
the object of a host error. -/
def setUp (run : Evaluator) (env : EnvironmentId) (site : Site) (o : TableId) :
    Value → Act Value (List Value)
  | .function f => do
    match ← (run .values (.call env site (.function f) [.table o])).attempt with
    | .ok _ => return [.table o]
    | .error v => Boundary.raiseIn env (← Boundary.errorOf run env site v)
  | _ => return [.table o]

section Calling

variable {run : Evaluator} {env : EnvironmentId} {site : Site} {w : World}

/-- To find out what an error is for the host raises no error. -/
theorem error_of_apply (ε ε' : Type) (v : Value) :
    (∃ e w', (Boundary.errorOf run env site v : Act ε HostError) w = .done e w' ∧
      (Boundary.errorOf run env site v : Act ε' HostError) w = .done e w') ∨
    ∃ w', (Boundary.errorOf run env site v : Act ε HostError) w = @Outcome.starved _ _ w' ∧
      (Boundary.errorOf run env site v : Act ε' HostError) w = @Outcome.starved _ _ w' := by
  unfold Boundary.errorOf
  simp only [Act.bind_apply, Act.readHeap, Act.read]
  cases Conversion.hostError? (w.heap env) v with
  | some e => exact .inl ⟨e, w, rfl, rfl⟩
  | none =>
    simp only [Act.bind_apply, Act.attempt_apply]
    cases Boundary.textOf run ⟨env, site, none⟩ v w with
    | done text w' => exact .inl ⟨_, w', rfl, rfl⟩
    | raised e w' => exact .inl ⟨_, w', rfl, rfl⟩
    | @starved w' => exact .inr ⟨w', rfl, rfl⟩

/-- The rest of a call, as the host performs it on behalf of a script. -/
theorem finish_in_script (s : Spot) (o : TableId) (init : Value) :
    Boundary.inScript s.env (do return [.table (← finish run s (o, init))]) w =
      setUp run s.env (s.site none) o init w := by
  cases init with
  | function f =>
    rw [finish_function]
    unfold setUp Boundary.inScript Boundary.call Boundary.fromHost
    simp only [Act.bind_apply, Act.attempt_apply]
    cases run .values (.call s.env (s.site none) (.function f) [.table o]) w with
    | done vs w' => rfl
    | raised v w' =>
      dsimp only
      rcases error_of_apply HostError Value v with ⟨e, w'', hhost, hscript⟩ | ⟨w'', hhost, hscript⟩
      · rw [Act.bind_apply, Act.bind_apply, hhost, hscript]
        rfl
      · rw [Act.bind_apply, Act.bind_apply, hhost, hscript]
    | starved => rfl
  | _ => rfl

/-- To call a class is to make an instance and set it up. -/
theorem call_apply (limit fuel : Nat) {c : TableId} (args : List Value)
    (hdepth : ¬ Engine.depthLimit < site.depth) (he : w.Allocated env)
    (hc : IsClass (w.heap env) c) :
    Engine.engine limit (fuel + 2) .values (.call env site (.table c) args) w =
      setUp (Engine.engine limit fuel) env (site.push .host) (w.heap env).nextTable
        ((w.heap env).rawGet c (Conversion.ofText "__init__")) (bornInstance env c w) := by
  obtain ⟨f, hcall, hf⟩ := hc.call
  have hhandler : (w.heap env).handler (.table c) "__call" = .function f :=
    (Heap.handler_table hc.metatable "__call").trans hcall
  have hbuiltin : (w.heap env).builtin? (.function f) = some .construct := by
    rw [Heap.builtin?, hf]
  have hvalue : Engine.engine limit (fuel + 2) .values (.call env site (.table c) args) w =
      Engine.Call.run limit ⟨fuel + 1, env, site, .function f, .table c :: args⟩ w := by
    change Engine.callValue limit (Engine.engine limit (fuel + 1)) env site (.table c) args w = _
    rw [Engine.call_value limit _ env hdepth]
    simp only [Act.bind_apply, Act.readHeap, Act.read, hhandler]
    rfl
  have hconstruct : (do return [.table (← construct (Engine.engine limit fuel) ⟨env, site, none⟩
        (.table c :: args))] : Act HostError (List Value)) w =
      (do return [.table (← finish (Engine.engine limit fuel) ⟨env, site, none⟩
        ((w.heap env).nextTable, (w.heap env).rawGet c (Conversion.ofText "__init__")))] :
          Act HostError (List Value)) (bornInstance env c w) := by
    rw [construct_eq, bind_assoc, Act.bind_apply, allocate_apply _ _ args he hc]
  rw [hvalue, Engine.Call.run_builtin hdepth hbuiltin]
  exact (Boundary.in_script_congr hconstruct).trans (finish_in_script ⟨env, site, none⟩ _ _)

end Calling

end Classes

end ScenarioHost
