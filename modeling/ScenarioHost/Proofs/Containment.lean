import ScenarioHost.Proofs.Calls
import ScenarioHost.Proofs.Files

/-!
Where sources are found. What is opened lies inside the root that it was found under, and that is the
first one with such a file; names that could lead out of a root are not looked up at all.
-/
namespace ScenarioHost

/-- Names that could lead out of a directory: absolute ones, and those with a part `..`. -/
def Escaping (name : String) : Prop :=
  name.toList.head? = some '/' ∨ ['.', '.'] ∈ splitChars '/' name.toList

namespace Component

theorem of_part_parent_iff {part : List Char} : ofPart part = some .parent ↔ part = ['.', '.'] := by
  unfold ofPart
  constructor
  · intro h
    split at h
    · cases h
    · split at h
      · assumption
      · cases h
  · rintro rfl
    rfl

theorem of_part_ne_root (part : List Char) : ofPart part ≠ some .root := by
  unfold ofPart
  split
  · exact nofun
  · split <;> exact nofun

/-- Only the front of a path can make it absolute. -/
theorem root_not_mem_parts (parts : List (List Char)) : .root ∉ parts.filterMap ofPart := by
  intro h
  obtain ⟨part, -, hpart⟩ := List.mem_filterMap.mp h
  exact of_part_ne_root part hpart

theorem parent_mem_parts_iff {parts : List (List Char)} :
    .parent ∈ parts.filterMap ofPart ↔ ['.', '.'] ∈ parts := by
  rw [List.mem_filterMap]
  constructor
  · rintro ⟨part, hmem, hpart⟩
    rwa [← of_part_parent_iff.mp hpart]
  · intro h
    exact ⟨_, h, of_part_parent_iff.mpr rfl⟩

def ofFront (path : String) (first : List Char) : Option Component :=
  if path.toList.head? = some '/' then some .root else ofFirst first

theorem of_path_eq {path : String} {first : List Char} {rest : List (List Char)}
    (h : splitChars '/' path.toList = first :: rest) :
    ofPath path = (ofFront path first).toList ++ rest.filterMap ofPart := by
  rw [ofPath, h]
  rfl

/-- An absolute path begins with an empty part. -/
theorem first_eq_nil {path : String} {first : List Char} {rest : List (List Char)}
    (h : splitChars '/' path.toList = first :: rest) (habsolute : path.toList.head? = some '/') :
    first = [] := by
  obtain ⟨cs, hcs⟩ := List.head?_eq_some_iff.mp habsolute
  rw [hcs, splitChars, if_pos rfl] at h
  exact (List.cons.inj h).1.symm

theorem of_front_parent_iff {path : String} {first : List Char} {rest : List (List Char)}
    (h : splitChars '/' path.toList = first :: rest) :
    ofFront path first = some .parent ↔ first = ['.', '.'] := by
  unfold ofFront
  by_cases habsolute : path.toList.head? = some '/'
  · rw [if_pos habsolute, first_eq_nil h habsolute]
    exact iff_of_false nofun nofun
  · rw [if_neg habsolute, ofFirst]
    by_cases hhere : first = ['.']
    · rw [if_pos hhere, hhere]
      exact iff_of_false nofun nofun
    · rw [if_neg hhere, of_part_parent_iff]

theorem of_front_root_iff {path : String} (first : List Char) :
    ofFront path first = some .root ↔ path.toList.head? = some '/' := by
  unfold ofFront ofFirst
  by_cases habsolute : path.toList.head? = some '/'
  · rw [if_pos habsolute]
    exact iff_of_true rfl habsolute
  · rw [if_neg habsolute]
    refine iff_of_false ?_ habsolute
    split
    · exact nofun
    · exact of_part_ne_root first

theorem parent_mem_iff {path : String} :
    .parent ∈ ofPath path ↔ ['.', '.'] ∈ splitChars '/' path.toList := by
  obtain ⟨first, rest, h⟩ := split_eq_cons '/' path.toList
  rw [of_path_eq h, h, List.mem_append, List.mem_cons, Option.mem_toList, parent_mem_parts_iff,
    of_front_parent_iff h, @eq_comm _ first]

theorem root_mem_iff {path : String} : .root ∈ ofPath path ↔ path.toList.head? = some '/' := by
  obtain ⟨first, rest, h⟩ := split_eq_cons '/' path.toList
  rw [of_path_eq h, List.mem_append, Option.mem_toList, of_front_root_iff,
    or_iff_left (root_not_mem_parts rest)]

theorem head_append_slash {front : List Char} (rest rest' : List Char) :
    (front ++ '/' :: rest).head? = (front ++ '/' :: rest').head? := by
  cases front <;> rfl

/-- What follows a separator adds its parts. -/
theorem of_path_append (front rest : String) :
    ofPath (front ++ "/" ++ rest) =
      ofPath (front ++ "/") ++ (splitChars '/' rest.toList).filterMap ofPart := by
  obtain ⟨first, parts, hfront⟩ := split_eq_cons '/' front.toList
  have hslash : (front ++ "/").toList = front.toList ++ ['/'] := String.toList_append
  have hpath : (front ++ "/" ++ rest).toList = front.toList ++ '/' :: rest.toList := by
    rw [String.toList_append, hslash, List.append_assoc, List.singleton_append]
  have hsplit : splitChars '/' (front ++ "/" ++ rest).toList =
      first :: (parts ++ splitChars '/' rest.toList) := by
    rw [hpath, split_append, hfront, List.cons_append]
  have hshort : splitChars '/' (front ++ "/").toList = first :: (parts ++ [[]]) := by
    rw [hslash, split_append, hfront, List.cons_append, splitChars]
  -- what makes a path absolute stands before the separator
  have hsame : ofFront (front ++ "/" ++ rest) first = ofFront (front ++ "/") first := by
    rw [ofFront, hpath, head_append_slash rest.toList [], ← hslash, ← ofFront]
  rw [of_path_eq hsplit, of_path_eq hshort, hsame, List.filterMap_append, List.filterMap_append,
    List.append_assoc, List.append_assoc]
  rfl

/-- Nothing follows a separator at the end. -/
theorem of_path_slash {front : String} (h : front ≠ "") : ofPath (front ++ "/") = ofPath front := by
  obtain ⟨first, parts, hfront⟩ := split_eq_cons '/' front.toList
  have hslash : (front ++ "/").toList = front.toList ++ ['/'] := String.toList_append
  have hsplit : splitChars '/' (front ++ "/").toList = first :: (parts ++ [[]]) := by
    rw [hslash, split_append, hfront, List.cons_append, splitChars]
  have hsame : ofFront (front ++ "/") first = ofFront front first := by
    have hne : front.toList ≠ [] := fun heq => h (String.toList_eq_nil_iff.mp heq)
    rw [ofFront, hslash, List.head?_append_of_ne_nil _ hne, ← ofFront]
  rw [of_path_eq hsplit, of_path_eq hfront, hsame, List.filterMap_append]
  exact congrArg _ (List.append_nil _)

end Component

namespace Roots

theorem escapes_iff {name : String} : escapes name = true ↔ Escaping name := by
  rw [escapes, List.any_eq_true]
  constructor
  · rintro ⟨c, hmem, hc⟩
    rw [Bool.or_eq_true, decide_eq_true_eq, decide_eq_true_eq] at hc
    obtain rfl | rfl := hc
    · exact Or.inr (Component.parent_mem_iff.mp hmem)
    · exact Or.inl (Component.root_mem_iff.mp hmem)
  · rintro (habsolute | hparent)
    · exact ⟨.root, Component.root_mem_iff.mpr habsolute, rfl⟩
    · exact ⟨.parent, Component.parent_mem_iff.mpr hparent, rfl⟩

/-- The first root under which a name is that of a file, and its place in the list. -/
structure FirstUnder (isFile : String → Bool) (roots : List String) (name : String) (i : Nat)
    (root : String) : Prop where
  here : roots[i]? = some root
  found : isFile (join root name) = true
  first : ∀ j < i, ∀ other, roots[j]? = some other → isFile (join other name) = false

theorem locate_eq_some_iff {isFile : String → Bool} {roots : List String} {name path : String} :
    locate isFile roots name = some path ↔
      ¬ Escaping name ∧ ∃ i root, FirstUnder isFile roots name i root ∧ path = join root name := by
  rw [← escapes_iff, locate]
  by_cases hescapes : escapes name = true
  · rw [if_pos hescapes]
    exact iff_of_false nofun fun h => h.1 hescapes
  · rw [if_neg hescapes, List.find?_map, Option.map_eq_some_iff, and_iff_right hescapes]
    constructor
    · rintro ⟨root, hroot, rfl⟩
      obtain ⟨hfound, i, hi, rfl, hfirst⟩ := List.find?_eq_some_iff_getElem.mp hroot
      refine ⟨i, roots[i], ⟨List.getElem?_eq_getElem hi, hfound, fun j hj other hother => ?_⟩, rfl⟩
      obtain ⟨-, rfl⟩ := List.getElem?_eq_some_iff.mp hother
      exact Bool.not_eq_true' _ ▸ hfirst j hj
    · rintro ⟨i, root, ⟨hroot, hfound, hfirst⟩, rfl⟩
      obtain ⟨hi, rfl⟩ := List.getElem?_eq_some_iff.mp hroot
      refine ⟨_, List.find?_eq_some_iff_getElem.mpr ⟨hfound, i, hi, rfl, fun j hj => ?_⟩, rfl⟩
      rw [Bool.not_eq_true']
      exact hfirst j hj _ (List.getElem?_eq_getElem (hj.trans hi))

def Inside (root path : String) : Prop :=
  ∃ rest, Component.ofPath path = Component.ofPath root ++ rest ∧ .parent ∉ rest ∧ .root ∉ rest

theorem inside_join {name : String} (hname : ¬ Escaping name) (root : String) :
    Inside root (join root name) := by
  obtain ⟨hrelative, hparent⟩ := not_or.mp hname
  have hparts : .parent ∉ (splitChars '/' name.toList).filterMap Component.ofPart ∧
      .root ∉ (splitChars '/' name.toList).filterMap Component.ofPart :=
    ⟨fun h => hparent (Component.parent_mem_parts_iff.mp h), Component.root_not_mem_parts _⟩
  -- a slash is put between the two, except after none or another
  unfold join
  by_cases hempty : root.isEmpty = true
  · obtain rfl : root = "" := String.isEmpty_iff.mp hempty
    rw [if_pos hempty]
    refine ⟨Component.ofPath name, rfl, fun h => ?_, fun h => ?_⟩
    · exact hparent (Component.parent_mem_iff.mp h)
    · exact hrelative (Component.root_mem_iff.mp h)
  · rw [if_neg hempty]
    by_cases hslash : root.toList.getLast? = some '/'
    · rw [if_pos hslash]
      obtain ⟨front, hfront⟩ := List.getLast?_eq_some_iff.mp hslash
      obtain rfl : root = String.ofList front ++ "/" := by
        rw [← String.toList_inj, hfront, String.toList_append, String.toList_ofList]
        rfl
      exact ⟨_, Component.of_path_append _ name, hparts⟩
    · have hne : root ≠ "" := fun h => hempty (String.isEmpty_iff.mpr h)
      rw [if_neg hslash]
      exact ⟨_, (Component.of_path_append root name).trans (by rw [Component.of_path_slash hne]),
        hparts⟩

/-- Names are rejected for what they are, whatever files there may be. -/
theorem locate_none_iff {roots : List String} {name : String} :
    (∀ isFile, locate isFile roots name = none) ↔ roots = [] ∨ Escaping name := by
  constructor
  · intro h
    by_contra hneither
    obtain ⟨hroots, hname⟩ := not_or.mp hneither
    obtain ⟨root, rest, rfl⟩ := List.exists_cons_of_ne_nil hroots
    -- with a file at every path, the first root has it
    have hall := h fun _ => true
    rw [locate, if_neg (mt escapes_iff.mp hname)] at hall
    cases hall
  · intro h isFile
    rw [Option.eq_none_iff_forall_ne_some]
    intro path hpath
    obtain ⟨hname, i, root, hroot, -⟩ := locate_eq_some_iff.mp hpath
    rcases h with rfl | hescapes
    · cases hroot.here
    · exact hname hescapes

end Roots

namespace FileTree

theorem parent_not_mem_names {name : String} (hname : ¬ Escaping name) :
    ".." ∉ names name.toList := by
  intro h
  obtain ⟨part, hpart, heq⟩ := List.mem_map.mp h
  have hdots : part = ['.', '.'] := String.ofList_inj.mp heq
  exact hname (Or.inr (hdots ▸ hpart))

/-- What is found at a path put together of a root and a name that does not lead out of it lies below
the place of the root. -/
theorem resolve_join_below {t : FileTree} (ht : t.Spelled) {root name : String}
    {here there : List String} {node node' : FileNode} (hname : ¬ Escaping name)
    (hroot : t.resolve root = .ok (here, node))
    (hpath : t.resolve (Roots.join root name) = .ok (there, node')) : here <+: there := by
  obtain ⟨-, hempty, rest, hrest, hwalk⟩ := resolve_ok_iff.mp hroot
  obtain ⟨-, -, below, hbelow, hwalk'⟩ := resolve_ok_iff.mp hpath
  have hdown := parent_not_mem_names hname
  have hne : root.toList ≠ [] := fun h => hempty (String.isEmpty_iff.mpr (String.toList_eq_nil_iff.mp h))
  rw [Roots.join, if_neg hempty] at hbelow
  -- at the top everything lies below it
  by_cases htop : rest = []
  · rw [htop] at hwalk
    rw [walk_empty hwalk]
    exact List.nil_prefix
  by_cases hslash : root.toList.getLast? = some '/'
  · rw [if_pos hslash, String.toList_append] at hbelow
    obtain rfl := (below_append ht hne hrest hbelow).resolve_left htop
    obtain ⟨front, rfl⟩ : ∃ front, rest = front ++ ['/'] := by
      obtain ⟨x, hx⟩ := below_suffix hrest
      rw [← hx, List.getLast?_append_of_ne_nil _ htop] at hslash
      exact List.getLast?_eq_some_iff.mp hslash
    rw [names_append_slash] at hwalk
    rw [List.append_assoc, List.singleton_append, names_append_slash] at hwalk'
    obtain ⟨place, found, hplace, hstay⟩ := walk_append hwalk
    rw [walk_empty hstay]
    exact walk_onwards hplace hwalk' hdown
  · rw [if_neg hslash, String.toList_append, String.toList_append, List.append_assoc] at hbelow
    obtain rfl := (below_append ht hne hrest hbelow).resolve_left htop
    exact walk_onwards hwalk (by rwa [← names_append_slash]) hdown

end FileTree

open Loading (openModule)
open Roots (FirstUnder Inside join locate)

theorem source_of_roots (tree : FileTree) (roots : List String) (name : String) :
    (Library.ofRoots tree roots).source? name =
      (locate tree.isFile roots name).bind fun path => (tree.read path).toOption.map Source.bytes := by
  rw [Library.ofRoots]
  dsimp only
  cases locate tree.isFile roots name with
  | none => rfl
  | some path =>
    dsimp only [Option.bind_some]
    cases tree.read path <;> rfl

/-- A source is known exactly if the first file of that name can be read. -/
theorem source_of_roots_iff {tree : FileTree} {roots : List String} {name : String}
    {source : Source} :
    (Library.ofRoots tree roots).source? name = some source ↔
      ¬ Escaping name ∧ ∃ i root content, FirstUnder tree.isFile roots name i root ∧
        tree.read (join root name) = .ok content ∧ source = .bytes content := by
  rw [source_of_roots, Option.bind_eq_some_iff]
  constructor
  · rintro ⟨path, hpath, hsource⟩
    obtain ⟨hname, i, root, hroot, rfl⟩ := Roots.locate_eq_some_iff.mp hpath
    obtain ⟨content, hcontent, rfl⟩ := Option.map_eq_some_iff.mp hsource
    cases hread : tree.read (join root name) with
    | error e =>
      rw [hread] at hcontent
      cases hcontent
    | ok content' =>
      rw [hread] at hcontent
      exact ⟨hname, i, root, content, hroot, by rw [hread, Option.some.inj hcontent], rfl⟩
  · rintro ⟨hname, i, root, content, hroot, hread, rfl⟩
    exact ⟨_, Roots.locate_eq_some_iff.mpr ⟨hname, i, root, hroot, rfl⟩, by rw [hread]; rfl⟩

theorem source_of_unreadable {tree : FileTree} {roots : List String} {name root : String} {i : Nat}
    {e : FileError} (hroot : FirstUnder tree.isFile roots name i root)
    (hread : tree.read (join root name) = .error e) :
    (Library.ofRoots tree roots).source? name = none := by
  rw [source_of_roots]
  by_cases hname : Escaping name
  · rw [Roots.locate_none_iff.mpr (Or.inr hname)]
    rfl
  · rw [Roots.locate_eq_some_iff.mpr ⟨hname, i, root, hroot, rfl⟩, Option.bind_some, hread]
    rfl

theorem open_module_apply {ε : Type} (module : String) (w : World) :
    (openModule module : Act ε (Option Source)) w =
      .done (w.library.source? (ModuleName.normalize module))
        (if (w.library.source? (ModuleName.normalize module)).isSome
          then { w with streams := w.streams.open_ } else w) := by
  unfold openModule
  rw [Act.bind_apply]
  cases hmodule : w.library.source? (ModuleName.normalize module) with
  | none =>
    rw [Loading.find_module_unknown hmodule]
    rfl
  | some source =>
    rw [Loading.find_module_known hmodule]
    rfl

/-- A module is looked up under the roots by its one spelling. What is opened is the file of that name
under the first root that has one, at a path inside that root and in a place below it; if it cannot be
read there is no other. Only names that could lead out of a root are rejected. -/
theorem opens_under_first_root (tree : FileTree) (roots : List String) (module : String) :
    let name := ModuleName.normalize module
    let opened := (Library.ofRoots tree roots).source? name
    (∀ w : World, w.library = .ofRoots tree roots → ∀ ε : Type,
        (openModule module : Act ε (Option Source)) w =
          .done opened (if opened.isSome then { w with streams := w.streams.open_ } else w)) ∧
      (∀ source, opened = some source ↔
        ¬ Escaping name ∧ ∃ i root content, FirstUnder tree.isFile roots name i root ∧
          tree.read (join root name) = .ok content ∧ source = .bytes content) ∧
      (¬ Escaping name → ∀ root, Inside root (join root name)) ∧
      (¬ Escaping name → tree.Spelled → ∀ root here there node node',
        tree.resolve root = .ok (here, node) →
        tree.resolve (join root name) = .ok (there, node') → here <+: there) ∧
      (∀ i root e, FirstUnder tree.isFile roots name i root →
        tree.read (join root name) = .error e → opened = none) ∧
      (Roots.escapes name = true ↔ Escaping name) ∧
      ((∀ isFile, locate isFile roots name = none) ↔ roots = [] ∨ Escaping name) := by
  intro name opened
  refine ⟨fun w hw ε => ?_, fun source => source_of_roots_iff, Roots.inside_join,
    fun hname htree root here there node node' => FileTree.resolve_join_below htree hname,
    fun i root e => source_of_unreadable, Roots.escapes_iff, Roots.locate_none_iff⟩
  rw [open_module_apply, hw]

/-- A module that two roots have, and that is not opened under the second if it is closed under the
first. -/
theorem opens_under_first_of_two :
    let tree := (FileTree.empty.addFile ["a", "m.lua"] ⟨"1"⟩).addFile ["b", "m.lua"] ⟨"2"⟩
    let closed := tree.close ["a", "m.lua"]
    (Library.ofRoots tree ["x", "a", "b"]).source? (ModuleName.normalize " .\\m.lua") =
        some (.bytes ⟨"1"⟩) ∧
      (Library.ofRoots closed ["x", "a", "b"]).source? (ModuleName.normalize " .\\m.lua") = none := by
  intro tree closed
  obtain ⟨-, hopened, -, -, -, -, -⟩ := opens_under_first_root tree ["x", "a", "b"] " .\\m.lua"
  obtain ⟨-, -, -, -, hnone, -, -⟩ := opens_under_first_root closed ["x", "a", "b"] " .\\m.lua"
  have hname : ¬ Escaping (ModuleName.normalize " .\\m.lua") := by
    rw [← Roots.escapes_iff]
    decide
  have hfirst (isFile : String → Bool) (hx : isFile "x/m.lua" = false) (ha : isFile "a/m.lua" = true) :
      FirstUnder isFile ["x", "a", "b"] (ModuleName.normalize " .\\m.lua") 1 "a" := by
    refine ⟨rfl, ha, fun j hj other hother => ?_⟩
    obtain rfl : j = 0 := by omega
    obtain rfl : "x" = other := Option.some.inj hother
    exact hx
  constructor
  · have hroot := hfirst tree.isFile (by decide) (by decide)
    exact (hopened _).mpr ⟨hname, 1, "a", ⟨"1"⟩, hroot, by decide, rfl⟩
  · have hroot := hfirst closed.isFile (by decide) (by decide)
    exact hnone 1 "a" .denied hroot (by decide)

-- A spelling with backslashes is rejected for what it is normalized to.
example : Roots.escapes (ModuleName.normalize ".\\..\\secret.lua") = true := by decide

end ScenarioHost
