import Mathlib.Tactic
import ScenarioHost.Files
import ScenarioHost.Proofs.Encoding

/-!
A file that was written is read back. The way to it leads through directories only, so a file put
in its place, or in a place where there was nothing, leaves the way as it was.
-/
namespace ScenarioHost.FileTree

/-! Places. -/

theorem find_filtered {place names : List String} (h : names ≠ place)
    (nodes : List (List String × FileNode)) :
    ((nodes.filter fun n => decide (n.1 ≠ place)).find? fun n => decide (n.1 = names)) =
      nodes.find? fun n => decide (n.1 = names) := by
  induction nodes with
  | nil => rfl
  | cons n nodes ih =>
    by_cases hn : n.1 = place
    · have hother : ¬ n.1 = names := fun heq => h (heq.symm.trans hn)
      rw [List.filter_cons_of_neg (by simpa using hn), ih,
        List.find?_cons_of_neg (by simpa using hother)]
    · rw [List.filter_cons_of_pos (by simpa using hn), List.find?_cons, List.find?_cons, ih]

theorem get_set (t : FileTree) {place : List String} (hplace : place ≠ []) (node : FileNode)
    (names : List String) :
    (t.set place node).get? names = if names = place then some node else t.get? names := by
  unfold get? set
  dsimp only
  by_cases hnames : names = place
  · have hempty : ¬ names.isEmpty = true := by
      rw [hnames, List.isEmpty_iff]
      exact hplace
    rw [if_pos hnames, if_neg hempty, List.find?_cons_of_pos (by simpa using hnames.symm)]
    rfl
  · have hother : ¬ place = names := fun h => hnames h.symm
    rw [if_neg hnames, List.find?_cons_of_neg (by simpa using hother), find_filtered hnames]

def Replaceable (t : FileTree) (place : List String) : Prop :=
  ∀ closed, t.get? place ≠ some (.directory closed)

theorem Replaceable.ne_nil {t : FileTree} {place : List String} (h : t.Replaceable place) :
    place ≠ [] := by
  rintro rfl
  exact h false rfl

/-! Walks. -/

def next (here : List String) (name : String) : Except FileError (List String) :=
  if name = "" ∨ name = "." then .ok here
  else if name = ".." then
    match here.reverse with
    | [] => .error .notFound
    | _ :: parent => .ok parent.reverse
  else if 255 < name.utf8ByteSize then .error .nameTooLong
  else .ok (here ++ [name])

theorem walk_open {t : FileTree} {here : List String} (h : t.get? here = some (.directory false))
    (name : String) (rest : List String) :
    t.walk here (name :: rest) = (next here name).bind fun place => t.walk place rest := by
  rw [walk, h]
  unfold next
  dsimp only
  split
  · rfl
  · split
    · cases here.reverse <;> rfl
    · split <;> rfl

theorem walk_step {t : FileTree} {here place : List String} {name : String}
    (hopen : t.get? here = some (.directory false)) (hnext : next here name = .ok place)
    (rest : List String) : t.walk here (name :: rest) = t.walk place rest := by
  rw [walk_open hopen, hnext]
  rfl

theorem walk_nil_ok_iff {t : FileTree} {here there : List String} {node : FileNode} :
    t.walk here [] = .ok (there, node) ↔ here = there ∧ t.get? here = some node := by
  rw [walk]
  cases t.get? here with
  | none => exact iff_of_false nofun fun h => Option.some_ne_none _ h.2.symm
  | some found => simp only [Except.ok.injEq, Prod.mk.injEq, Option.some.injEq]

/-- A walk that arrives goes through open directories; a closed one can only be its end. -/
theorem walk_cons_ok {t : FileTree} {here there : List String} {name : String} {rest : List String}
    {node : FileNode} (h : t.walk here (name :: rest) = .ok (there, node)) :
    (∃ place, t.get? here = some (.directory false) ∧ next here name = .ok place ∧
        t.walk place rest = .ok (there, node)) ∨
      (rest = [] ∧ name = "" ∧ t.get? here = some (.directory true) ∧
        there = here ∧ node = .directory true) := by
  cases hhere : t.get? here with
  | none =>
    rw [walk, hhere] at h
    cases h
  | some found =>
    cases found with
    | file content closed =>
      rw [walk, hhere] at h
      cases h
    | directory closed =>
      cases closed with
      | false =>
        rw [walk_open hhere] at h
        cases hnext : next here name with
        | error e =>
          rw [hnext] at h
          cases h
        | ok place =>
          rw [hnext] at h
          exact Or.inl ⟨place, rfl, rfl, h⟩
      | true =>
        -- nothing is looked up in it, but a path may end with it
        rw [walk, hhere] at h
        dsimp only at h
        split at h
        · rename_i hend
          rw [Bool.and_eq_true, List.isEmpty_iff, decide_eq_true_eq] at hend
          cases h
          exact Or.inr ⟨hend.1, hend.2, rfl, rfl, rfl⟩
        · cases h

theorem walk_found {t : FileTree} {names here there : List String} {node : FileNode}
    (h : t.walk here names = .ok (there, node)) : t.get? there = some node := by
  induction names generalizing here with
  | nil =>
    obtain ⟨rfl, hhere⟩ := walk_nil_ok_iff.mp h
    exact hhere
  | cons name rest ih =>
    obtain ⟨place, -, -, hrest⟩ | ⟨-, -, hclosed, rfl, rfl⟩ := walk_cons_ok h
    · exact ih hrest
    · exact hclosed

/-- A walk ends as before when something new stands in a place that was no directory, and finds it
if it ends there. -/
theorem walk_set {t : FileTree} {place : List String} (hplace : t.Replaceable place)
    (new : FileNode) {names here there : List String} {node : FileNode}
    (h : t.walk here names = .ok (there, node)) :
    (t.set place new).walk here names = .ok (there, if there = place then new else node) := by
  have hget := get_set t hplace.ne_nil new
  -- directories on the way are where they were
  have hkept {at_ : List String} {closed : Bool} (hat : t.get? at_ = some (.directory closed)) :
      at_ ≠ place ∧ (t.set place new).get? at_ = some (.directory closed) := by
    have hne : at_ ≠ place := by
      rintro rfl
      exact hplace closed hat
    refine ⟨hne, ?_⟩
    rw [hget, if_neg hne, hat]
  induction names generalizing here with
  | nil =>
    obtain ⟨rfl, hhere⟩ := walk_nil_ok_iff.mp h
    rw [walk_nil_ok_iff, hget, hhere]
    refine ⟨rfl, ?_⟩
    split <;> rfl
  | cons name rest ih =>
    obtain ⟨at_, hopen, hnext, hrest⟩ | ⟨rfl, rfl, hclosed, rfl, rfl⟩ := walk_cons_ok h
    · rw [walk_step (hkept hopen).2 hnext]
      exact ih hrest
    · rw [if_neg (hkept hclosed).1, walk, (hkept hclosed).2]
      rfl

/-- A walk can be cut in two. -/
theorem walk_append {t : FileTree} {first second here there : List String} {node : FileNode}
    (h : t.walk here (first ++ second) = .ok (there, node)) :
    ∃ at_ found, t.walk here first = .ok (at_, found) ∧ t.walk at_ second = .ok (there, node) := by
  induction first generalizing here with
  | nil =>
    -- there is something where a walk begins that arrives
    obtain ⟨found, hhere⟩ : ∃ found, t.get? here = some found := by
      cases second with
      | nil => exact ⟨node, (walk_nil_ok_iff.mp h).2⟩
      | cons name rest =>
        obtain ⟨place, hopen, -⟩ | ⟨-, -, hclosed, -⟩ := walk_cons_ok h
        · exact ⟨_, hopen⟩
        · exact ⟨_, hclosed⟩
    exact ⟨here, found, walk_nil_ok_iff.mpr ⟨rfl, hhere⟩, h⟩
  | cons name rest ih =>
    rw [List.cons_append] at h
    obtain ⟨place, hopen, hnext, hrest⟩ | ⟨hend, rfl, hclosed, rfl, rfl⟩ := walk_cons_ok h
    · rw [walk_step hopen hnext]
      exact ih hrest
    · obtain ⟨rfl, rfl⟩ := List.append_eq_nil_iff.mp hend
      exact ⟨_, _, h, walk_nil_ok_iff.mpr ⟨rfl, hclosed⟩⟩

/-- An empty name asks for the directory that was reached. -/
theorem walk_empty {t : FileTree} {here there : List String} {node : FileNode}
    (h : t.walk here [""] = .ok (there, node)) : there = here := by
  obtain ⟨place, -, hnext, hrest⟩ | ⟨-, -, -, rfl, -⟩ := walk_cons_ok h
  · cases hnext
    exact (walk_nil_ok_iff.mp hrest).1.symm
  · rfl

/-- The way to a name is the way to the directory that should have it, and one step more. -/
theorem walk_last {t : FileTree} {names here there : List String} (last : String)
    (h : t.walk here (names ++ [""]) = .ok (there, .directory false)) :
    t.walk here (names ++ [last]) = t.walk there [last] := by
  -- on the names that both walks have in common
  induction names generalizing here with
  | nil => rw [walk_empty h, List.nil_append]
  | cons name names ih =>
    rw [List.cons_append] at h
    obtain ⟨place, hopen, hnext, hrest⟩ | ⟨hend, -⟩ := walk_cons_ok h
    · rw [List.cons_append, walk_step hopen hnext]
      exact ih hrest
    · exact absurd hend (List.append_ne_nil_of_right_ne_nil names (List.cons_ne_nil "" []))

/-- A name leads down or nowhere, unless it is `..`. -/
theorem prefix_of_next {here place : List String} {name : String} (hname : name ≠ "..")
    (h : next here name = .ok place) : here <+: place := by
  unfold next at h
  by_cases hstay : name = "" ∨ name = "."
  · rw [if_pos hstay] at h
    cases h
    exact List.prefix_refl here
  · rw [if_neg hstay, if_neg hname] at h
    by_cases hlong : 255 < name.utf8ByteSize
    · rw [if_pos hlong] at h
      cases h
    · rw [if_neg hlong] at h
      cases h
      exact List.prefix_append here [name]

/-- Without `..` a walk only goes down. -/
theorem walk_below {t : FileTree} {names here there : List String} {node : FileNode}
    (hnames : ".." ∉ names) (h : t.walk here names = .ok (there, node)) : here <+: there := by
  induction names generalizing here with
  | nil =>
    obtain ⟨rfl, -⟩ := walk_nil_ok_iff.mp h
    exact List.prefix_refl here
  | cons name rest ih =>
    obtain ⟨hname, hlater⟩ : ".." ≠ name ∧ ".." ∉ rest := by
      rwa [List.mem_cons, not_or] at hnames
    obtain ⟨place, -, hnext, hrest⟩ | ⟨-, -, -, rfl, -⟩ := walk_cons_ok h
    · exact (prefix_of_next hname.symm hnext).trans (ih hlater hrest)
    · exact List.prefix_refl there

/-- What comes after a part of a walk lies below the end of that part, if nothing goes up. -/
theorem walk_onwards {t : FileTree} {first second here at_ there : List String}
    {node node' : FileNode} (hfirst : t.walk here first = .ok (at_, node))
    (hall : t.walk here (first ++ second) = .ok (there, node')) (hsecond : ".." ∉ second) :
    at_ <+: there := by
  obtain ⟨place, found, hplace, hrest⟩ := walk_append hall
  obtain ⟨rfl, -⟩ := Prod.mk.inj (Except.ok.inj (hplace.symm.trans hfirst))
  exact walk_below hsecond hrest

/-! Paths. -/

theorem split_last_eq (path : List Char) : (splitLast path).1 ++ (splitLast path).2 = path := by
  unfold splitLast
  rw [← List.reverse_append, List.takeWhile_append_dropWhile, List.reverse_reverse]

theorem names_append_slash (front rest : List Char) :
    names (front ++ '/' :: rest) = names front ++ names rest := by
  rw [names, split_append, List.map_append]
  rfl

/-- A directory part is empty or ends in a slash; the last name has none. -/
theorem names_append {parent last : List Char} (hlast : '/' ∉ last)
    (hparent : parent = [] ∨ ∃ front, parent = front ++ ['/']) :
    ∃ parents, names parent = parents ++ [""] ∧
      names (parent ++ last) = parents ++ [String.ofList last] := by
  have hsingle : names last = [String.ofList last] := by
    rw [names, split_chars_eq, List.splitOn_eq_singleton hlast, List.map_singleton]
  obtain rfl | ⟨front, rfl⟩ := hparent
  · exact ⟨[], rfl, hsingle⟩
  · rw [List.append_assoc, List.singleton_append, names_append_slash, names_append_slash, hsingle]
    exact ⟨_, rfl, rfl⟩

theorem names_split_last (path : List Char) :
    ∃ parents, names (splitLast path).1 = parents ++ [""] ∧
      names path = parents ++ [String.ofList (splitLast path).2] := by
  have hlast : '/' ∉ (splitLast path).2 := by
    unfold splitLast
    intro hslash
    have hnot := List.mem_takeWhile_imp (List.mem_reverse.mp hslash)
    exact absurd hnot (by decide)
  have hparent : (splitLast path).1 = [] ∨ ∃ front, (splitLast path).1 = front ++ ['/'] := by
    unfold splitLast
    cases hdrop : path.reverse.dropWhile (· ≠ '/') with
    | nil => exact Or.inl rfl
    | cons c rest =>
      have hc := List.head?_dropWhile_not (fun c => decide (c ≠ '/')) path.reverse
      rw [hdrop] at hc
      have hslash : c = '/' := by simpa using hc
      exact Or.inr ⟨rest.reverse, by rw [List.reverse_cons, hslash]⟩
  have hnames := names_append hlast hparent
  rwa [split_last_eq] at hnames

/-- How a path may begin that spells the top directory. -/
def Spelled (t : FileTree) : Prop := t.base = "" ∨ t.base.toList.head? = some '/'

section Below

variable {t : FileTree}

theorem below_top (hbase : t.base ≠ "") (x : List Char) :
    ∀ rest, t.below? (t.base.toList ++ x) = some rest ↔ x = [] ∧ rest = [] ∨ x = '/' :: rest := by
  have hempty : t.base.toList.isEmpty = false :=
    List.isEmpty_eq_false_iff.mpr fun h => hbase (String.toList_eq_nil_iff.mp h)
  have hprefix : t.base.toList.isPrefixOf (t.base.toList ++ x) = true :=
    List.isPrefixOf_iff_prefix.mpr (List.prefix_append _ _)
  intro rest
  unfold below?
  simp only [hempty, hprefix, List.drop_left, Bool.not_false, Bool.and_self, if_true]
  cases x with
  | nil => simp [eq_comm]
  | cons c x =>
    by_cases hc : c = '/'
    · simp [hc]
    · simp [hc]

theorem below_relative {path : List Char} (h : t.base = "" ∨ ¬ t.base.toList <+: path)
    (rest : List Char) :
    t.below? path = some rest ↔ path.head? ≠ some '/' ∧ rest = path := by
  have hnot : (!t.base.toList.isEmpty && t.base.toList.isPrefixOf path) = false := by
    rcases h with hbase | hprefix
    · rw [hbase]
      rfl
    · rw [Bool.and_eq_false_iff]
      exact Or.inr (Bool.eq_false_iff.mpr fun h => hprefix (List.isPrefixOf_iff_prefix.mp h))
  unfold below?
  simp only [hnot, Bool.false_eq_true, if_false]
  cases path with
  | nil => simp [eq_comm]
  | cons c cs =>
    by_cases hc : c = '/'
    · simp [hc]
    · simp [hc, eq_comm]

/-- A path that goes on from another one goes on below the top as well, except where the other one
is that of the top. -/
theorem below_append (ht : t.Spelled) {path rest more below : List Char}
    (hpath : path ≠ []) (h : t.below? path = some rest) (hmore : t.below? (path ++ more) = some below) :
    rest = [] ∨ below = rest ++ more := by
  by_cases hspelled : t.base ≠ "" ∧ t.base.toList <+: path
  · obtain ⟨hbase, x, rfl⟩ := hspelled
    rcases (below_top hbase x rest).mp h with ⟨-, hrest⟩ | rfl
    · exact Or.inl hrest
    · rw [List.append_assoc] at hmore
      rcases (below_top hbase _ below).mp hmore with ⟨hnil, -⟩ | heq
      · cases hnil
      · exact Or.inr (List.cons.inj heq).2.symm
  · have hrelative : t.base = "" ∨ ¬ t.base.toList <+: path := by
      rwa [not_and_or, not_not] at hspelled
    obtain ⟨hhead, rfl⟩ := (below_relative hrelative rest).mp h
    -- a path that spells the top is absolute from its first character on
    have hrelative' : t.base = "" ∨ ¬ t.base.toList <+: rest ++ more := by
      rcases ht with hbase | hbase
      · exact Or.inl hbase
      · refine Or.inr fun hprefix => hhead ?_
        obtain ⟨y, hy⟩ := hprefix
        have hne : t.base.toList ≠ [] := by
          intro hnil
          rw [hnil] at hbase
          cases hbase
        have hfirst := congrArg List.head? hy
        rw [List.head?_append_of_ne_nil _ hne, hbase, List.head?_append_of_ne_nil _ hpath] at hfirst
        exact hfirst.symm
    exact Or.inr ((below_relative hrelative' below).mp hmore).2

theorem below_suffix {path rest : List Char} (h : t.below? path = some rest) : rest <:+ path := by
  by_cases hspelled : t.base ≠ "" ∧ t.base.toList <+: path
  · obtain ⟨hbase, x, rfl⟩ := hspelled
    rcases (below_top hbase x rest).mp h with ⟨-, rfl⟩ | rfl
    · exact List.nil_suffix
    · exact (List.suffix_cons '/' rest).trans (List.suffix_append _ _)
  · have hrelative : t.base = "" ∨ ¬ t.base.toList <+: path := by
      rwa [not_and_or, not_not] at hspelled
    obtain ⟨-, rfl⟩ := (below_relative hrelative rest).mp h
    exact List.suffix_refl rest

end Below

theorem resolve_below {t : FileTree} {path : String} {rest : List Char}
    (hnul : ¬ path.toList.contains '\x00' = true) (hne : ¬ path.isEmpty = true)
    (h : t.below? path.toList = some rest) : t.resolve path = t.walk [] (names rest) := by
  rw [resolve, if_neg hnul, if_neg hne, h]

/-- A path that leads somewhere spells a walk from the top. -/
theorem resolve_ok_iff {t : FileTree} {path : String} {found : List String × FileNode} :
    t.resolve path = .ok found ↔
      ¬ path.toList.contains '\x00' = true ∧ ¬ path.isEmpty = true ∧
        ∃ rest, t.below? path.toList = some rest ∧ t.walk [] (names rest) = .ok found := by
  constructor
  · intro h
    unfold resolve at h
    split at h
    · cases h
    · rename_i hnul
      split at h
      · cases h
      · rename_i hne
        cases hrest : t.below? path.toList with
        | none =>
          rw [hrest] at h
          cases h
        | some rest =>
          rw [hrest] at h
          exact ⟨hnul, hne, rest, rfl, h⟩
  · rintro ⟨hnul, hne, rest, hrest, hwalk⟩
    rw [resolve_below hnul hne hrest, hwalk]

theorem resolve_found {t : FileTree} {path : String} {place : List String} {node : FileNode}
    (h : t.resolve path = .ok (place, node)) : t.get? place = some node := by
  obtain ⟨-, -, rest, -, hwalk⟩ := resolve_ok_iff.mp h
  exact walk_found hwalk

/-! Writing. -/

/-- Content put in place of a file is found there. -/
theorem resolve_set {t : FileTree} {path : String} {place : List String} {old : FileNode}
    (hplace : t.Replaceable place) (new : FileNode) (h : t.resolve path = .ok (place, old)) :
    (t.set place new).resolve path = .ok (place, new) := by
  obtain ⟨hnul, hne, rest, hrest, hwalk⟩ := resolve_ok_iff.mp h
  have hwalk' := walk_set hplace new hwalk
  rw [if_pos rfl] at hwalk'
  exact resolve_ok_iff.mpr ⟨hnul, hne, rest, hrest, hwalk'⟩

/-- A name that is missing from an open directory leads to a place of its own, which is free. -/
theorem next_missing {t : FileTree} {here : List String} {last : String}
    (hhere : t.get? here = some (.directory false)) (hmissing : t.walk here [last] = .error .notFound)
    (hname : last ≠ "") (hup : last ≠ "..") :
    next here last = .ok (here ++ [last]) ∧ t.get? (here ++ [last]) = none := by
  rw [walk_open hhere] at hmissing
  have hdot : last ≠ "." := by
    rintro rfl
    rw [next, if_pos (Or.inr rfl)] at hmissing
    change t.walk here [] = _ at hmissing
    rw [walk, hhere] at hmissing
    cases hmissing
  -- a name that is a step in place would lead to what is there
  have hstay : ¬ (last = "" ∨ last = ".") := by
    rintro (h | h)
    · exact hname h
    · exact hdot h
  have hshort : ¬ 255 < last.utf8ByteSize := by
    intro hlong
    rw [next, if_neg hstay, if_neg hup, if_pos hlong] at hmissing
    cases hmissing
  have hnext : next here last = .ok (here ++ [last]) := by
    rw [next, if_neg hstay, if_neg hup, if_neg hshort]
  refine ⟨hnext, ?_⟩
  rw [hnext] at hmissing
  change t.walk (here ++ [last]) [] = _ at hmissing
  rw [walk] at hmissing
  cases hplace : t.get? (here ++ [last]) with
  | none => rfl
  | some node =>
    rw [hplace] at hmissing
    cases hmissing

/-- A new last name in an open directory is found there. -/
theorem walk_new {t : FileTree} {parents here : List String} {last : String} (new : FileNode)
    (hparent : t.walk [] (parents ++ [""]) = .ok (here, .directory false))
    (hmissing : t.walk [] (parents ++ [last]) = .error .notFound) (hname : last ≠ "")
    (hup : last ≠ "..") :
    (t.set (here ++ [last]) new).walk [] (parents ++ [last]) = .ok (here ++ [last], new) := by
  have hmissing' := (walk_last last hparent).symm.trans hmissing
  obtain ⟨hnext, hfree⟩ := next_missing (walk_found hparent) hmissing' hname hup
  have hplace : t.Replaceable (here ++ [last]) := by
    intro closed hclosed
    rw [hfree] at hclosed
    cases hclosed
  have hne : here ≠ here ++ [last] := by
    intro heq
    have hlength := congrArg List.length heq
    rw [List.length_append, List.length_singleton] at hlength
    omega
  -- the way to the directory is still there, and the new name is one step on from it
  have hparent' := walk_set hplace new hparent
  rw [if_neg hne] at hparent'
  rw [walk_last last hparent', walk_step (walk_found hparent') hnext, walk_nil_ok_iff,
    get_set t hplace.ne_nil, if_pos rfl]
  exact ⟨rfl, rfl⟩

/-- A write to a path at which there is nothing adds a last name to an open directory. -/
theorem write_missing {t t' : FileTree} {path : String} {content : ByteString}
    (hresolve : t.resolve path = .error .notFound) (h : t.write path content = .ok t') :
    ∃ rest here, t.below? path.toList = some rest ∧ ¬ path.isEmpty = true ∧
      t.walk [] (names (splitLast rest).1) = .ok (here, .directory false) ∧
      (splitLast rest).2 ≠ [] ∧ (splitLast rest).2 ≠ ['.', '.'] ∧
      t' = t.set (here ++ [String.ofList (splitLast rest).2]) (.file content false) := by
  unfold write at h
  rw [hresolve] at h
  dsimp only at h
  -- every other way to go on is a way to fail
  cases hrest : t.below? path.toList with
  | none =>
    rw [hrest] at h
    cases h
  | some rest =>
    rw [hrest] at h
    dsimp only at h
    by_cases hempty : path.isEmpty = true
    · rw [if_pos hempty] at h
      cases h
    · rw [if_neg hempty] at h
      cases hwalk : t.walk [] (names (splitLast rest).1) with
      | error e =>
        rw [hwalk] at h
        cases h
      | ok found =>
        obtain ⟨here, node⟩ := found
        rw [hwalk] at h
        cases node with
        | file old closed => cases h
        | directory closed =>
          cases closed with
          | true => cases h
          | false =>
            dsimp only at h
            split at h
            · cases h
            · rename_i hlast
              rw [Bool.or_eq_true, not_or, List.isEmpty_iff, decide_eq_true_eq] at hlast
              cases h
              exact ⟨rest, here, rfl, hempty, hwalk, hlast.1, hlast.2, rfl⟩

section Written

variable {t t' : FileTree} {path : String} {content : ByteString}

/-- Where nothing is found a write succeeds only if that is because nothing is there. -/
theorem error_of_write {e : FileError} (hresolve : t.resolve path = .error e)
    (h : t.write path content = .ok t') : e = .notFound := by
  rw [write, hresolve] at h
  cases e with
  | notFound => rfl
  | _ => cases h

/-- A file that was there keeps its place. -/
theorem resolve_write_old {found : List String × FileNode} (hresolve : t.resolve path = .ok found)
    (h : t.write path content = .ok t') :
    t'.resolve path = .ok (found.1, .file content false) := by
  obtain ⟨place, node⟩ := found
  rw [write, hresolve] at h
  cases node with
  | directory closed => cases h
  | file old closed =>
    cases closed with
    | true => cases h
    | false =>
      cases h
      have hplace : t.Replaceable place := by
        intro closed hclosed
        rw [resolve_found hresolve] at hclosed
        cases hclosed
      exact resolve_set hplace _ hresolve

/-- A file that is new is found under its name. -/
theorem resolve_write_new (hresolve : t.resolve path = .error .notFound)
    (h : t.write path content = .ok t') :
    ∃ place, t'.resolve path = .ok (place, .file content false) := by
  obtain ⟨rest, here, hrest, hempty, hparent, hlast, hup, rfl⟩ := write_missing hresolve h
  have hnul : ¬ path.toList.contains '\x00' = true := by
    intro hnul
    rw [resolve, if_pos hnul] at hresolve
    cases hresolve
  have hname : String.ofList (splitLast rest).2 ≠ "" := fun heq => hlast (String.ofList_inj.mp heq)
  have hup' : String.ofList (splitLast rest).2 ≠ ".." := fun heq => hup (String.ofList_inj.mp heq)
  obtain ⟨parents, hparents, hnames⟩ := names_split_last rest
  rw [resolve_below hnul hempty hrest, hnames] at hresolve
  rw [hparents] at hparent
  rw [resolve_below hnul hempty (by exact hrest), hnames]
  exact ⟨_, walk_new _ hparent hresolve hname hup'⟩

theorem resolve_write (h : t.write path content = .ok t') :
    ∃ place, t'.resolve path = .ok (place, .file content false) := by
  cases hresolve : t.resolve path with
  | ok found => exact ⟨found.1, resolve_write_old hresolve h⟩
  | error e =>
    obtain rfl := error_of_write hresolve h
    exact resolve_write_new hresolve h

end Written

/-- What was written to a path is read from it. -/
theorem read_write {t t' : FileTree} {path : String} {content : ByteString}
    (h : t.write path content = .ok t') : t'.read path = .ok content := by
  obtain ⟨place, hplace⟩ := resolve_write h
  rw [read, hplace]

theorem readText_write {t t' : FileTree} {path text : String}
    (h : t.write path (.ofText text) = .ok t') : t'.readText path = .ok text := by
  rw [readText, read_write h]
  dsimp only
  rw [ByteString.toText_ofText]

end ScenarioHost.FileTree
