/-!
Translations. Entries are keyed by a text and perhaps a context; overlays are lists of entries
without context that join the catalog when they are loaded.
-/
namespace ScenarioHost

/-- A list of bindings in which the newest binding of a key stands first. -/
abbrev Bindings (κ α : Type) := List (κ × α)

namespace Bindings

variable {κ α : Type} [DecidableEq κ]

def get? (bs : Bindings κ α) (k : κ) : Option α :=
  (bs.find? fun b => decide (b.1 = k)).map Prod.snd

def insert (bs : Bindings κ α) (k : κ) (a : α) : Bindings κ α :=
  (k, a) :: bs.filter fun b => decide (b.1 ≠ k)

end Bindings

structure Catalog where
  entries : Bindings (Option String × String) String
  overlays : Bindings String (List (String × String))
  /-- Names of the overlays asked for, newest first. -/
  requests : List String

namespace Catalog

def empty : Catalog := ⟨[], [], []⟩

instance : Inhabited Catalog := ⟨empty⟩

def insert (c : Catalog) (context : Option String) (text translated : String) : Catalog :=
  { c with entries := c.entries.insert (context, text) translated }

def register (c : Catalog) (name : String) (entries : List (String × String)) : Catalog :=
  { c with overlays := c.overlays.insert name entries }

def load (c : Catalog) (name : String) : Bool × Catalog :=
  let c := { c with requests := name :: c.requests }
  match c.overlays.get? name with
  | none => (false, c)
  | some entries => (true, entries.foldl (fun c e => c.insert none e.1 e.2) c)

def requested (c : Catalog) : List String := c.requests.reverse

def translate (c : Catalog) (text : String) : String :=
  (c.entries.get? (none, text)).getD text

def translateIn (c : Catalog) (context text : String) : String :=
  (c.entries.get? (some context, text)).getD (c.translate text)

end Catalog

end ScenarioHost
