import ScenarioHost.Host.Loading
import ScenarioHost.Proofs.Action

/-!
Calls from the host into an environment. What every task of the environment keeps is kept by a call
and by compiling a file as well, also where an error has to be turned into one of the host. Looking a
module up runs nothing: it counts a stream if the library knows the module.
-/
namespace ScenarioHost

open Lua (Evaluator Kind Site Spot Task Value)

def Lua.Task.env : {k : Kind} → Task k → EnvironmentId
  | _, .call env .. => env
  | _, .expr frame _ => frame.env
  | _, .stat frame _ => frame.env
  | _, .block frame _ => frame.env
  | _, .load env .. => env

def Lua.Evaluator.KeepsIn (run : Evaluator) (e : EnvironmentId) (R P : World → World → Prop) :
    Prop := ∀ k (t : Task k), t.env = e → (run k t).Keeps R P fun _ => True

section Keeping

variable {run : Evaluator} {e : EnvironmentId} {R P : World → World → Prop} [Progress R P]
  (h : run.KeepsIn e R P)

include h

theorem Lua.keeps_callHandler {s : Spot} (hs : s.env = e) (event : String) (f : Value)
    (args : List Value) : (callHandler run s event f args).Keeps R P fun _ => True := by
  unfold callHandler
  refine .bind (.look _) fun callable _ => ?_
  split
  · exact h _ (.call s.env _ f args) hs
  · unfold Spot.raise
    split <;> exact .raise _

namespace Boundary

theorem keeps_textOf {s : Spot} (hs : s.env = e) (v : Value) :
    (textOf run s v).Keeps R P fun _ => True := by
  unfold textOf
  refine .bind (.look _) fun f _ => ?_
  split
  · exact .read fun _ => trivial
  · refine .bind (Lua.keeps_callHandler h hs ..) fun vs _ => ?_
    split
    · exact .pure trivial
    · exact .raise _

theorem keeps_errorOf {ε : Type} (site : Site) (v : Value) :
    (errorOf run e site v : Act ε HostError).Keeps R P fun _ => True := by
  unfold errorOf
  refine .bind (.look _) fun r _ => ?_
  split
  · exact .pure trivial
  · refine .bind (.settle (keeps_textOf (s := ⟨e, site, none⟩) h rfl v)) fun r _ => ?_
    split <;> exact .pure trivial

theorem keeps_fromHost {α : Type} (site : Site) {x : Act Value α}
    (hx : x.Keeps R P fun _ => True) : (fromHost run e site x).Keeps R P fun _ => True := by
  unfold fromHost
  refine .bind hx.settle fun r _ => ?_
  split
  · exact .pure trivial
  · exact .bind (keeps_errorOf h site _) fun cause _ => .raise _

theorem keeps_call (site : Site) (f : Value) (args : List Value) :
    (call run e site f args).Keeps R P fun _ => True :=
  keeps_fromHost h site (h _ (.call e site f args) rfl)

end Boundary

namespace Loading

theorem keeps_compileText (site : Site) (name : String) (source : ByteString) :
    (compileText run e site name source).Keeps R P fun _ => True :=
  Boundary.keeps_fromHost h site (h _ (.load e (.ofText name) source) rfl)

theorem keeps_compileFile (site : Site) (path : String) (source : ByteString) :
    (compileFile run e site path source).Keeps R P fun _ => True := by
  unfold compileFile
  dsimp only
  split
  · exact .raise _
  · refine .bind (keeps_compileText h ..) fun r _ => ?_
    split
    · exact .pure trivial
    · exact .raise _

end Loading

end Keeping

section Agreeing

variable {run run' : Evaluator} (hvalues : run' .values = run .values) (env : EnvironmentId)
  (site : Site)

include hvalues

theorem error_of_congr {ε : Type} (v : Value) :
    (Boundary.errorOf run' env site v : Act ε HostError) = Boundary.errorOf run env site v := by
  simp only [Boundary.errorOf, Boundary.textOf, Lua.callHandler, hvalues]

theorem from_host_congr {α : Type} (x : Act Value α) :
    Boundary.fromHost run' env site x = Boundary.fromHost run env site x := by
  simp only [Boundary.fromHost, error_of_congr hvalues env site]

theorem call_congr (f : Value) (args : List Value) :
    Boundary.call run' env site f args = Boundary.call run env site f args := by
  simp only [Boundary.call, from_host_congr hvalues env site, hvalues]

/-- Compiling a file asks for the source of the file under its path, and for no other. -/
theorem compile_file_congr (path : String) (content : ByteString)
    (hload : run' .loaded (.load env (.ofText ("@" ++ path)) content) =
      run .loaded (.load env (.ofText ("@" ++ path)) content)) :
    Loading.compileFile run' env site path content =
      Loading.compileFile run env site path content := by
  simp only [Loading.compileFile, Loading.compileText, from_host_congr hvalues env site, hload]

end Agreeing

namespace Loading

variable {ε : Type} {name : String} {w : World}

theorem find_module_unknown (h : w.library.source? (ModuleName.normalize name) = none) :
    (findModule name : Act ε (Option OpenModule)) w = .done none w := by
  unfold findModule
  rw [Act.bind_apply, Act.read, Library.open?]
  dsimp only
  rw [h]
  rfl

theorem find_module_known {source : Source}
    (h : w.library.source? (ModuleName.normalize name) = some source) :
    (findModule name : Act ε (Option OpenModule)) w =
      .done (some ⟨ModuleName.normalize name, overlayName w name, source⟩)
        { w with streams := w.streams.open_ } := by
  unfold findModule
  rw [Act.bind_apply, Act.read, Library.open?]
  dsimp only
  rw [h]
  rfl

end Loading

namespace Conversion

variable {α : Type} {convert : Lua.Heap → Value → Except HostError α} {env : EnvironmentId}
  {args : List Value} {n : Nat} {w : World}

def given (convert : Lua.Heap → Value → Except HostError α) (args : List Value) (n : Nat)
    (h : Lua.Heap) : Except HostError α :=
  (convert h (Value.arg args (n - 1))).mapError (.badArgument none (.position n))

/-- Arguments are converted without a change of the world. -/
theorem argument_apply :
    argument convert env args n w = Act.ofExcept (given convert args n (w.heap env)) w := rfl

/-- So a call that goes on with an argument asks for what the argument is turned into. -/
theorem argument_bind {β γ : Type} {x : α → Except HostError β} {k : α → Act HostError γ}
    {ask : β → Act HostError γ} (h : ∀ a, k a w = (Act.ofExcept (x a) >>= ask) w) :
    (argument convert env args n >>= k) w =
      (Act.ofExcept (given convert args n (w.heap env) >>= x) >>= ask) w := by
  rw [Act.bind_apply, argument_apply]
  cases given convert args n (w.heap env) with
  | error e => rfl
  | ok a => exact h a

theorem argument_ok {a : α} (h : convert (w.heap env) (.arg args (n - 1)) = .ok a) :
    argument convert env args n w = .done a w := by
  rw [argument_apply]
  unfold given
  rw [h]
  rfl

end Conversion

end ScenarioHost
