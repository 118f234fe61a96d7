/-!
The version of the host.
-/
namespace ScenarioHost

structure Version where
  major : Nat
  minor : Nat
  patch : Nat

namespace Version

def current : Version := ⟨0, 1, 0⟩

def number (v : Version) : Nat := v.major * 10000 + v.minor * 100 + v.patch

def text (v : Version) : String :=
  toString v.major ++ "." ++ toString v.minor ++ "." ++ toString v.patch

end Version

end ScenarioHost
