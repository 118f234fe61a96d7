import ScenarioHost.Proofs.Calls
import ScenarioHost.Proofs.CatalogWrites

/-!
The two loaders of modules. `runFile` and `requireModule` open, read and release a module in orders
of their own; both come down to one action, run in one world, under two ways of naming its failures.
-/
namespace ScenarioHost

def World.streamed (w : World) : World := { w with streams := w.streams.open_.release }

namespace Loading

open Lua (Evaluator FunctionId Site Value)

/-- Why a module that the library knows gives no values. -/
inductive LoadFailure where
  | unreadable (message : String)
  | malformed (cause : HostError)
  | failed (cause : HostError)

def LoadFailure.text (path : String) : LoadFailure → String
  | .unreadable message => "Failed to read " ++ path ++ ": " ++ message
  | .malformed cause => cause.message
  | .failed cause => cause.message

def LoadFailure.required (path : String) : LoadFailure → ScriptError
  | .unreadable message => .load path message
  | .malformed cause => .load path cause.message
  | .failed cause => .runtime ("require:" ++ cause.message)

variable (run : Evaluator) (env : EnvironmentId) (site : Site) (path : String)

def runSource : Source → Act LoadFailure (List Value)
  | .unreadable message => Act.raise (.unreadable message)
  | .bytes content => do
    let f ← (compileFile run env site path content).mapError .malformed
    (Boundary.call run env site (.function f) []).mapError .failed

variable {run env} in
theorem keeps_runSource {R P : World → World → Prop} [Progress R P] (h : run.KeepsIn env R P)
    (source : Source) : (runSource run env site path source).Keeps R P fun _ => True := by
  cases source with
  | unreadable message => exact .raise _
  | bytes content =>
    refine .bind (.map_error (keeps_compileFile h site path content)) fun f _ => ?_
    exact .map_error (Boundary.keeps_call h site ..)

def prepared (w : World) (path : String) : World := (w.loadOverlay (overlayName w path)).streamed

section Errors

variable {ε ε' ε'' α β : Type}

theorem map_error_bind (f : ε → ε') (x : Act ε α) (g : α → Act ε β) :
    (x >>= g).mapError f = x.mapError f >>= fun a => (g a).mapError f := by
  funext w
  rw [Act.bind_apply]
  simp only [Act.mapError, Act.bind_apply]
  cases x w <;> rfl

theorem map_error_map_error (f : ε → ε') (g : ε' → ε'') (x : Act ε α) :
    (x.mapError f).mapError g = x.mapError (g ∘ f) := by
  funext w
  simp only [Act.mapError]
  cases x w <;> rfl

end Errors

theorem map_error_run_source (source : Source) {ε : Type} (f : LoadFailure → ε) :
    (runSource run env site path source).mapError f =
      match source with
      | .unreadable message => Act.raise (f (.unreadable message))
      | .bytes content =>
        (compileFile run env site path content).mapError (f ∘ .malformed) >>= fun g =>
          (Boundary.call run env site (.function g) []).mapError (f ∘ .failed) := by
  cases source with
  | unreadable message => rfl
  | bytes content =>
    simp only [runSource, map_error_bind, map_error_map_error]

variable (w : World)

theorem run_file_unknown (hpath : w.library.source? (ModuleName.normalize path) = none) :
    runFile run env site path w = .raised ("Script not found: " ++ path) w := by
  unfold runFile openModule
  simp only [Act.bind_apply, find_module_unknown hpath]
  rfl

theorem run_file_known {source : Source}
    (hpath : w.library.source? (ModuleName.normalize path) = some source) :
    runFile run env site path w =
      (runSource run env site path source).mapError (LoadFailure.text path) w.streamed := by
  rw [map_error_run_source]
  unfold runFile openModule
  simp only [Act.bind_apply, find_module_known hpath]
  cases source with
  | unreadable message => rfl
  | bytes content =>
    simp only [map_error_bind]
    rfl

theorem require_module_unknown (hpath : w.library.source? (ModuleName.normalize path) = none) :
    requireModule run env site path w = .raised (.moduleNotFound path) w := by
  unfold requireModule
  simp only [Act.bind_apply, find_module_unknown hpath]
  rfl

theorem require_module_known {source : Source}
    (hpath : w.library.source? (ModuleName.normalize path) = some source) :
    requireModule run env site path w =
      (runSource run env site path source).mapError (LoadFailure.required path)
        (prepared w path) := by
  rw [map_error_run_source]
  unfold requireModule
  simp only [Act.bind_apply, find_module_known hpath]
  cases source with
  | unreadable message => rfl
  | bytes content => rfl

/-- What `runFile` does, as one action. -/
theorem run_file_eq :
    runFile run env site path =
      Act.read (fun w => w.library.source? (ModuleName.normalize path)) >>= fun found =>
        found.elim (Act.raise ("Script not found: " ++ path)) fun source =>
          Act.update World.streamed >>= fun _ =>
            (runSource run env site path source).mapError (LoadFailure.text path) := by
  funext w
  rw [Act.bind_apply, Act.read]
  cases hpath : w.library.source? (ModuleName.normalize path) with
  | none => exact run_file_unknown run env site path w hpath
  | some source => exact run_file_known run env site path w hpath

/-- What `requireModule` does, as one action. -/
theorem require_module_eq :
    requireModule run env site path =
      Act.read (fun w => w.library.source? (ModuleName.normalize path)) >>= fun found =>
        found.elim (Act.raise (ScriptError.moduleNotFound path)) fun source =>
          loadOverlay path >>= fun _ => Act.update World.streamed >>= fun _ =>
            (runSource run env site path source).mapError (LoadFailure.required path) := by
  funext w
  rw [Act.bind_apply, Act.read]
  cases hpath : w.library.source? (ModuleName.normalize path) with
  | none => exact require_module_unknown run env site path w hpath
  | some source => exact require_module_known run env site path w hpath

theorem run_localized_apply :
    runLocalized run env site path w =
      (runFile run env site path >>= fun _ => pure ()) (w.loadOverlay (overlayName w path)) := rfl

/-- How the two loaders end, by how the one action that they come down to ends. -/
inductive Agree (path : String) :
    Outcome LoadFailure (List Value) → Outcome String Unit →
      Outcome ScriptError (List Value) → Prop where
  | loaded (values : List Value) (w : World) :
      Agree path (.done values w) (.done () w) (.done values w)
  | unreadable (message : String) (w : World) :
      Agree path (.raised (.unreadable message) w)
        (.raised ("Failed to read " ++ path ++ ": " ++ message) w)
        (.raised (.load path message) w)
  | malformed (cause : HostError) (w : World) :
      Agree path (.raised (.malformed cause) w) (.raised cause.message w)
        (.raised (.load path cause.message) w)
  | failed (cause : HostError) (w : World) :
      Agree path (.raised (.failed cause) w) (.raised cause.message w)
        (.raised (.runtime ("require:" ++ cause.message)) w)
  | starved (w : World) :
      Agree path (@Outcome.starved _ _ w) (@Outcome.starved _ _ w) (@Outcome.starved _ _ w)

theorem agree_of_known {source : Source}
    (hpath : w.library.source? (ModuleName.normalize path) = some source) :
    Agree path (runSource run env site path source (prepared w path))
      (runLocalized run env site path w) (requireModule run env site path w) := by
  -- an overlay changes no modules, so both loaders find the same source
  have hlocal := run_file_known run env site path (w.loadOverlay (overlayName w path)) hpath
  rw [run_localized_apply, Act.bind_apply, hlocal, require_module_known run env site path w hpath]
  simp only [Act.mapError, prepared]
  cases runSource run env site path source (w.loadOverlay (overlayName w path)).streamed with
  | done values w' => exact .loaded values w'
  | raised failure w' =>
    cases failure with
    | unreadable message => exact .unreadable message w'
    | malformed cause => exact .malformed cause w'
    | failed cause => exact .failed cause w'
  | starved => exact .starved _

theorem run_source_congr {run run' : Evaluator} (hvalues : run' .values = run .values)
    (content : ByteString)
    (hload : run' .loaded (.load env (.ofText ("@" ++ path)) content) =
      run .loaded (.load env (.ofText ("@" ++ path)) content)) :
    runSource run' env site path (.bytes content) =
      runSource run env site path (.bytes content) := by
  simp only [runSource, compile_file_congr hvalues env site path content hload,
    call_congr hvalues env site]

/-- Both loaders compile a known module under one name in one world, and end in one world however
that goes; an unknown one they refuse without running anything. -/
theorem loaders_agree :
    match w.library.source? (ModuleName.normalize path) with
    | some source =>
      Agree path (runSource run env site path source (prepared w path))
        (runLocalized run env site path w) (requireModule run env site path w) ∧
      (prepared w path).catalog.requested = w.catalog.requested ++ [overlayName w path] ∧
      ∀ content run', source = .bytes content → run' .values = run .values →
        run' .loaded (.load env (.ofText ("@" ++ path)) content) =
          run .loaded (.load env (.ofText ("@" ++ path)) content) →
        runLocalized run' env site path w = runLocalized run env site path w ∧
        requireModule run' env site path w = requireModule run env site path w
    | none =>
      runLocalized run env site path w =
        .raised ("Script not found: " ++ path) (w.loadOverlay (overlayName w path)) ∧
      requireModule run env site path w = .raised (.moduleNotFound path) w := by
  cases hpath : w.library.source? (ModuleName.normalize path) with
  | some source =>
    refine ⟨agree_of_known run env site path w hpath, ?_, ?_⟩
    · exact Catalog.requested_load w.catalog (overlayName w path)
    · rintro content run' rfl hvalues hload
      have hsame := run_source_congr env site path hvalues content hload
      have hlocal (run : Evaluator) :=
        run_file_known run env site path (w.loadOverlay (overlayName w path)) hpath
      constructor
      · rw [run_localized_apply, run_localized_apply, Act.bind_apply, Act.bind_apply, hlocal,
          hlocal, hsame]
      · rw [require_module_known run' env site path w hpath,
          require_module_known run env site path w hpath, hsame]
  | none =>
    refine ⟨?_, require_module_unknown run env site path w hpath⟩
    have hlocal := run_file_unknown run env site path (w.loadOverlay (overlayName w path)) hpath
    rw [run_localized_apply, Act.bind_apply, hlocal]

end Loading

end ScenarioHost
