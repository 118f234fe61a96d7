import ScenarioHost.Proofs.Runs

/-!
Module streams. Whatever a host and its scripts do, no stream is open while a script is compiled or
runs: each attempt to load a module that the library knows opens one stream and releases it before
anything else happens, and an attempt at another name opens none.
-/
namespace ScenarioHost

open Lua (Evaluator Kind Site Task Value)

namespace World

def Balanced (w : World) : Prop := w.streams.opened = w.streams.released

theorem Balanced.streamed {w : World} (h : w.Balanced) : w.streamed.Balanced :=
  congrArg (· + 1) h

theorem streams_clearScripts (w : World) : w.clearScripts.streams = w.streams :=
  same_clearScripts (·.streams) (fun _ _ => rfl) (fun _ _ => rfl) w

end World

theorem Effect.balanced {a : Agent} {w w' : World} (h : Effect a w w') (hw : w.Balanced) :
    w'.Balanced := by
  cases h with
  | clearScripts => rwa [World.Balanced, World.streams_clearScripts]
  | stream e => exact hw.streamed
  | letGo =>
    exact World.kept_by_letGo (T := fun w w' => w.Balanced → w'.Balanced) (fun _ hw => hw)
      (fun _ _ hw => hw) _ _ hw
  | _ => exact hw

/-- Nothing but the loading of modules opens streams: they are of no account to environments that
are entered and left, reached into, made or given up. -/
theorem lasting_balanced : Host.Lasting fun w w' => w.Balanced → w'.Balanced where
  refl _ hw := hw
  trans first second hw := second (first hw)
  effect he := he.balanced
  enter _ hw := hw
  leave _ _ hw := hw
  hold _ hw := hw
  unhold _ _ hw := hw
  extended _ hw := hw
  adopted _ _ _ hw := hw
  destroy _ _ hw := hw
  controlled _ _ _ hw := hw
  lending _ _ hw := hw
  adding _ _ hw := hw
  endSession w hw := by
    have hstreams : w.endSession.streams = w.streams := w.streams_clearScripts
    rwa [World.Balanced, hstreams]
  equipped _ _ hw := hw

def SameStreams (w w' : World) : Prop := w'.streams = w.streams

instance : Progress SameStreams SameStreams where
  refl _ := rfl
  trans h h' := h'.trans h
  here _ := rfl
  later h h' := h'.trans h

theorem upholds_same_streams {ε α : Type} {o : Outcome ε α} {w : World} :
    o.Upholds SameStreams SameStreams (fun _ => True) w ↔ o.world.streams = w.streams := by
  cases o with
  | done a w' => exact and_iff_left trivial
  | raised e w' => exact Iff.rfl
  | starved => exact Iff.rfl

def Lua.Evaluator.Streamless (run : Evaluator) : Prop :=
  ∀ k (t : Task k) w, (run k t w).world.streams = w.streams

theorem Lua.Evaluator.Streamless.keeps_in {run : Evaluator} (h : run.Streamless)
    (e : EnvironmentId) : run.KeepsIn e SameStreams SameStreams :=
  fun k t _ => ⟨fun w => upholds_same_streams.mpr (h k t w)⟩

namespace Loading

/-- The module streams after an attempt to load a module, for what it does by itself: one more was
opened and released if the library knows the name. -/
def attempted (w : World) (path : String) : Streams :=
  if (w.library.source? (ModuleName.normalize path)).isSome then w.streams.open_.release
  else w.streams

section Attempts

variable {run : Evaluator} (h : run.Streamless) (env : EnvironmentId) (site : Site) (path : String)
  (w : World)

include h

theorem streams_runSource {ε : Type} (f : LoadFailure → ε) (source : Source) :
    ((runSource run env site path source).mapError f w).world.streams = w.streams :=
  upholds_same_streams.mp
    ((Act.Keeps.map_error (keeps_runSource site path (h.keeps_in env) source)).upholds w)

theorem streams_runFile : (runFile run env site path w).world.streams = attempted w path := by
  unfold attempted
  cases hpath : w.library.source? (ModuleName.normalize path) with
  | none =>
    rw [run_file_unknown run env site path w hpath]
    rfl
  | some source =>
    rw [run_file_known run env site path w hpath, streams_runSource h env site path]
    rfl

theorem streams_requireModule :
    (requireModule run env site path w).world.streams = attempted w path := by
  unfold attempted
  cases hpath : w.library.source? (ModuleName.normalize path) with
  | none =>
    rw [require_module_unknown run env site path w hpath]
    rfl
  | some source =>
    rw [require_module_known run env site path w hpath, streams_runSource h env site path]
    rfl

theorem streams_runLocalized :
    (runLocalized run env site path w).world.streams = attempted w path := by
  have hfile := streams_runFile h env site path (w.loadOverlay (overlayName w path))
  rw [run_localized_apply, Act.bind_apply]
  cases hrun : runFile run env site path (w.loadOverlay (overlayName w path)) with
  | done values w' =>
    rw [hrun] at hfile
    exact hfile
  | raised message w' =>
    rw [hrun] at hfile
    exact hfile
  | starved =>
    rw [hrun] at hfile
    exact hfile

end Attempts

/-- No module stream is open at any moment of any run. Each attempt to load a module opens one if
its name is known, and releases it, however reading, compiling and running the module end; a module
is compiled only after that. -/
theorem streams_released :
    (∀ config library steps stop limit fuel,
      (Host.performAll (Engine.stopped stop limit fuel) [] steps
        (World.new config library)).world.Balanced) ∧
    (∀ (run : Evaluator) env site path w, run.Streamless →
      (runFile run env site path w).world.streams = attempted w path ∧
      (runLocalized run env site path w).world.streams = attempted w path ∧
      (requireModule run env site path w).world.streams = attempted w path) ∧
    ∀ (run : Evaluator) env site path w source,
      w.library.source? (ModuleName.normalize path) = some source →
      (∃ w', w'.streams = w.streams.open_.release ∧ runFile run env site path w =
        (runSource run env site path source).mapError (LoadFailure.text path) w') ∧
      ∃ w', w'.streams = w.streams.open_.release ∧ requireModule run env site path w =
        (runSource run env site path source).mapError (LoadFailure.required path) w' := by
  refine ⟨?_, ?_, ?_⟩
  · intro config library steps stop limit fuel
    have hlawful := Engine.lawful_stopped stop limit fuel
    have hrun := Host.advanced_performAll hlawful steps [] (World.new config library)
    exact lasting_balanced.advanced hrun rfl
  · intro run env site path w h
    exact ⟨streams_runFile h env site path w, streams_runLocalized h env site path w,
      streams_requireModule h env site path w⟩
  · intro run env site path w source hpath
    refine ⟨⟨w.streamed, rfl, run_file_known run env site path w hpath⟩, ?_⟩
    exact ⟨prepared w path, rfl, require_module_known run env site path w hpath⟩

/-- A module that cannot be read is released all the same. -/
theorem streams_released_unreadable :
    (requireModule (fun _ _ => Act.raise .nil) ⟨0⟩ .outside "a.lua"
      (World.new .default (.ofList [("a.lua", .unreadable "gone")]))).world.streams = ⟨1, 1⟩ :=
  ((streams_released.2.1 _ _ _ _ _ fun _ _ _ => rfl).2.2).trans (by decide)

end Loading

end ScenarioHost
