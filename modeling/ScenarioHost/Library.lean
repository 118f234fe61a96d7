import ScenarioHost.Files
import ScenarioHost.ModuleName

/-!
Where script modules come from: a library answers a name with the module's source, which may turn
out to be unreadable, or does not know the name.
-/
namespace ScenarioHost

inductive Source where
  | bytes (content : ByteString)
  | unreadable (message : String)
deriving DecidableEq

structure Library where
  source? : String → Option Source

/-- A module that was found: the one spelling of its name, the name of its translations, and its
source. -/
structure OpenModule where
  name : String
  overlay : String
  source : Source

namespace Library

instance : Inhabited Library := ⟨⟨fun _ => none⟩⟩

def ofList (sources : List (String × Source)) : Library :=
  ⟨fun name => (sources.find? fun s => decide (s.1 = name)).map Prod.snd⟩

def open? (l : Library) (language name : String) : Option OpenModule :=
  let name := ModuleName.normalize name
  (l.source? name).map fun source => ⟨name, ModuleName.overlay name language, source⟩

def insert (l : Library) (name : String) (source : Source) : Library :=
  ⟨fun n => if n = name then some source else l.source? n⟩

def ofRoots (tree : FileTree) (roots : List String) : Library :=
  ⟨fun name =>
    match Roots.locate tree.isFile roots name with
    | none => none
    | some path =>
      match tree.read path with
      | .ok content => some (.bytes content)
      | .error _ => none⟩

end Library

end ScenarioHost
