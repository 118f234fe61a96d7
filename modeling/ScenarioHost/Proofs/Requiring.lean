import ScenarioHost.Proofs.NestedLoads

/-!
What requiring a module comes to. A name that the library does not know changes nothing; a module
that gives no chunk leaves behind one request for its overlay and one stream that was opened and
released; any other one is run, and it is run anew each time it is required.
-/
namespace ScenarioHost

open Lua (Chunk Evaluator FunctionId Site Value)

def World.holding (w : World) (env : EnvironmentId) (c : Chunk) : World :=
  w.modifyHeap env fun h =>
    h.addFunction (.closure (.mk [] true c.body 0) c.name (w.environment env).globals [])

/-- The function is there, and it was not there before. -/
theorem World.function_holding (w : World) {env : EnvironmentId} (h : w.Allocated env) (c : Chunk) :
    (w.heap env).function? (w.heap env).nextFunction = none ∧
      ((w.holding env c).heap env).function? (w.heap env).nextFunction =
        some (.closure (.mk [] true c.body 0) c.name (w.environment env).globals []) := by
  constructor
  · exact Array.getElem?_eq_none (Nat.le_refl _)
  · rw [holding, w.heap_modifyHeap env h]
    exact Array.getElem?_push_size

/-- The text of an error can always be told. -/
theorem Boundary.error_of_ends (run : Evaluator) (env : EnvironmentId) (site : Site)
    (v : Value) (w : World) :
    (∃ cause w', (errorOf run env site v : Act HostError HostError) w = .done cause w') ∨
      ∃ w', (errorOf run env site v : Act HostError HostError) w = @Outcome.starved _ _ w' := by
  unfold errorOf
  rw [Act.bind_apply]
  unfold Act.readHeap Act.read
  dsimp only
  cases Conversion.hostError? (w.heap env) v with
  | some cause => exact Or.inl ⟨cause, w, rfl⟩
  | none =>
    dsimp only
    rw [Act.bind_apply, Act.attempt_apply]
    cases textOf run ⟨env, site, none⟩ v w with
    | done text w' => exact Or.inl ⟨_, w', rfl⟩
    | raised e w' => exact Or.inl ⟨_, w', rfl⟩
    | starved => exact Or.inr ⟨_, rfl⟩

theorem Boundary.call_apply (run : Evaluator) (env : EnvironmentId) (site : Site) (f : Value)
    (args : List Value) (w : World) :
    call run env site f args w =
      match run .values (.call env site f args) w with
      | .done vs w₁ => .done vs w₁
      | .raised v w₁ =>
        match (errorOf run env site v : Act HostError HostError) w₁ with
        | .done cause w₂ => .raised cause w₂
        | .raised e w₂ => .raised e w₂
        | @Outcome.starved _ _ w₂ => @Outcome.starved _ _ w₂
      | @Outcome.starved _ _ w₁ => @Outcome.starved _ _ w₁ := by
  unfold call fromHost
  rw [Act.bind_apply, Act.attempt_apply]
  cases run .values (.call env site f args) w with
  | done vs w₁ => rfl
  | raised v w₁ =>
    dsimp only
    rw [Act.bind_apply]
    cases (errorOf run env site v : Act HostError HostError) w₁ <;> rfl
  | starved => rfl

section Ends

variable (run : Evaluator) (env : EnvironmentId) (site : Site) (f : Value) (args vs : List Value)
  (cause : HostError) (w w' : World)

theorem Boundary.call_done_iff :
    call run env site f args w = .done vs w' ↔
      run .values (.call env site f args) w = .done vs w' := by
  rw [call_apply]
  cases run .values (.call env site f args) w with
  | done vs' w₁ => simp
  | raised v w₁ =>
    -- an error stays one, whatever its text is
    obtain ⟨text, w₂, htext⟩ | ⟨w₂, hstarved⟩ :=
      error_of_ends run env site v w₁
    · simp [htext]
    · simp [hstarved]
  | starved => simp

theorem Boundary.call_raised_iff :
    call run env site f args w = .raised cause w' ↔
      ∃ v w₁, run .values (.call env site f args) w = .raised v w₁ ∧
        (errorOf run env site v : Act HostError HostError) w₁ = .done cause w' := by
  rw [call_apply]
  cases run .values (.call env site f args) w with
  | done vs' w₁ => simp
  | raised v w₁ =>
    obtain ⟨text, w₂, htext⟩ | ⟨w₂, hstarved⟩ :=
      error_of_ends run env site v w₁
    · simp [htext]
    · simp [hstarved]
  | starved => simp

end Ends

namespace Loading

open Engine

def compiled (path : String) (content : ByteString) : Except HostError Chunk :=
  let name := "@" ++ path
  let before := (ByteString.ofText name).toList.takeWhile (· ≠ '\x00')
  if before.length < (ByteString.ofText name).size then
    .error (.runtime
      ("invalid name: nul byte found in provided data at position: " ++ toString before.length))
  else (Lua.compile (.ofText name) content).mapError fun e => .malformed e.message.toTextLossy

def chunkOf (path : String) : Source → Except String Chunk
  | .unreadable message => .error message
  | .bytes content => (compiled path content).mapError HostError.message

variable (limit fuel : Nat) (env : EnvironmentId) (site : Site) (name : String) (w : World)

theorem compile_file_eq (content : ByteString) :
    compileFile (engine limit (fuel + 1)) env site name content w =
      match compiled name content with
      | .error e => .raised e w
      | .ok c => .done (w.heap env).nextFunction (w.holding env c) := by
  unfold compileFile compiled
  dsimp only
  split
  · rfl
  · have hload : engine limit (fuel + 1) .loaded (.load env (.ofText ("@" ++ name)) content) w =
        Lua.loadChunk env (.ofText ("@" ++ name)) content w := rfl
    unfold compileText Boundary.fromHost
    rw [Act.bind_apply, Act.bind_apply, Act.attempt_apply, hload]
    unfold Lua.loadChunk
    cases Lua.compile (.ofText ("@" ++ name)) content with
    | error e => rfl
    | ok c => rfl

/-- A module that gives no chunk fails before anything of it is run. -/
theorem run_source_unloadable {source : Source} {message : String}
    (hchunk : chunkOf name source = .error message) :
    ∃ failure : LoadFailure, failure.required name = .load name message ∧
      runSource (engine limit (fuel + 1)) env site name source w = .raised failure w := by
  cases source with
  | unreadable text =>
    cases hchunk
    exact ⟨.unreadable message, rfl, rfl⟩
  | bytes content =>
    have hcompile := compile_file_eq limit fuel env site name w content
    rw [chunkOf] at hchunk
    cases hcompiled : compiled name content with
    | ok c =>
      rw [hcompiled] at hchunk
      cases hchunk
    | error e =>
      rw [hcompiled] at hchunk hcompile
      cases hchunk
      refine ⟨.malformed e, rfl, ?_⟩
      rw [runSource, Act.bind_apply, Act.map_error_apply, hcompile]

/-- A module that gives a chunk is run by one call of a new function. -/
theorem run_source_loadable {source : Source} {c : Chunk} (hchunk : chunkOf name source = .ok c) :
    runSource (engine limit (fuel + 1)) env site name source w =
      (Boundary.call (engine limit (fuel + 1)) env site (.function (w.heap env).nextFunction)
        []).mapError .failed (w.holding env c) := by
  cases source with
  | unreadable text => cases hchunk
  | bytes content =>
    have hcompile := compile_file_eq limit fuel env site name w content
    rw [chunkOf] at hchunk
    cases hcompiled : compiled name content with
    | error e =>
      rw [hcompiled] at hchunk
      cases hchunk
    | ok d =>
      rw [hcompiled] at hchunk hcompile
      cases hchunk
      rw [runSource, Act.bind_apply, Act.map_error_apply, hcompile]

theorem require_module_unloadable {source : Source} {message : String}
    (hname : w.library.source? (ModuleName.normalize name) = some source)
    (hchunk : chunkOf name source = .error message) :
    requireModule (engine limit (fuel + 1)) env site name w =
      .raised (.load name message) (prepared w name) := by
  obtain ⟨failure, hfailure, hrun⟩ :=
    run_source_unloadable limit fuel env site name (prepared w name) hchunk
  rw [require_module_known _ env site name w hname, Act.map_error_apply, hrun]
  dsimp only
  rw [hfailure]

theorem require_module_loadable {source : Source} {c : Chunk}
    (hname : w.library.source? (ModuleName.normalize name) = some source)
    (hchunk : chunkOf name source = .ok c) :
    requireModule (engine limit (fuel + 1)) env site name w =
      (Boundary.call (engine limit (fuel + 1)) env site (.function (w.heap env).nextFunction)
        []).mapError (fun cause => .runtime ("require:" ++ cause.message))
        ((prepared w name).holding env c) := by
  rw [require_module_known _ env site name w hname, Act.map_error_apply,
    run_source_loadable limit fuel env site name (prepared w name) hchunk,
    ← Act.map_error_apply, map_error_map_error]
  rfl

/-- A call of the new function executes the statements of the chunk. -/
theorem run_holding {c : Chunk} (henv : w.Allocated env) (hdepth : ¬ depthLimit < site.depth) :
    engine limit (fuel + 1) .values (.call env site (.function (w.heap env).nextFunction) [])
        (w.holding env c) =
      Lua.callClosure (engine limit fuel) env site (.mk [] true c.body 0) c.name
        (w.environment env).globals [] [] (w.holding env c) := by
  have hfunction := (w.function_holding henv c).2
  have hcall : engine limit (fuel + 1) .values
      (.call env site (.function (w.heap env).nextFunction) []) =
      callValue limit (engine limit fuel) env site (.function (w.heap env).nextFunction) [] := rfl
  rw [hcall, callValue, if_neg hdepth, Act.bind_apply]
  unfold Act.readHeap Act.read
  dsimp only
  rw [hfunction]
  rfl

/-- How loading a module ends by running it. The chunk of the module becomes a new function of the
environment, which is called once, without arguments: its values are what loading gives, and an
error that it raises is reported with its text. -/
inductive Ran (limit fuel : Nat) (env : EnvironmentId) (site : Site) (name : String) (c : Chunk)
    (w : World) : Except ScriptError (List Value) → World → Prop where
  | values {vs : List Value} {w' : World}
      (h : engine limit (fuel + 1) .values (.call env site (.function (w.heap env).nextFunction) [])
        ((prepared w name).holding env c) = .done vs w') :
      Ran limit fuel env site name c w (.ok vs) w'
  | error {v : Value} {w₁ w' : World} {cause : HostError}
      (h : engine limit (fuel + 1) .values (.call env site (.function (w.heap env).nextFunction) [])
        ((prepared w name).holding env c) = .raised v w₁)
      (hcause : (Boundary.errorOf (engine limit (fuel + 1)) env site v : Act HostError HostError) w₁ =
        .done cause w') :
      Ran limit fuel env site name c w (.error (.runtime ("require:" ++ cause.message))) w'

theorem ran_iff {source : Source} {c : Chunk}
    (hname : w.library.source? (ModuleName.normalize name) = some source)
    (hchunk : chunkOf name source = .ok c) (r : Except ScriptError (List Value)) (w' : World) :
    ((requireModule (engine limit (fuel + 1)) env site name).attempt :
      Act ScriptError (Except ScriptError (List Value))) w = .done r w' ↔
      Ran limit fuel env site name c w r w' := by
  rw [Act.attempt_apply, require_module_loadable limit fuel env site name w hname hchunk,
    Act.map_error_apply]
  constructor
  · intro h
    cases hcall : Boundary.call (engine limit (fuel + 1)) env site
        (.function (w.heap env).nextFunction) [] ((prepared w name).holding env c) with
    | done vs w₁ =>
      rw [hcall] at h
      cases h
      exact .values ((Boundary.call_done_iff ..).mp hcall)
    | raised cause w₁ =>
      rw [hcall] at h
      cases h
      -- the error of the call is the value that was raised, as the host reads it
      obtain ⟨v, w₂, hraised, hcause⟩ := (Boundary.call_raised_iff ..).mp hcall
      exact .error hraised hcause
    | starved =>
      rw [hcall] at h
      cases h
  · intro h
    cases h with
    | values h => rw [(Boundary.call_done_iff ..).mpr h]
    | error h hcause => rw [(Boundary.call_raised_iff ..).mpr ⟨_, _, h, hcause⟩]

/-- What opening a module leaves behind: one stream that was opened and released, and one request
for the overlay of the module, whose entries are taken over if there is one. -/
structure Opened (w : World) (name : String) (w' : World) : Prop where
  rest : w' = { w with
    catalog := w'.catalog, streams := ⟨w.streams.opened + 1, w.streams.released + 1⟩ }
  requested : w'.catalog.requested = w.catalog.requested ++ [overlayName w name]
  overlays : w'.catalog.overlays = w.catalog.overlays
  entries : w'.catalog.entries =
    ((w.catalog.overlays.get? (overlayName w name)).getD []).foldl
      (fun bs e => bs.insert (none, e.1) e.2) w.catalog.entries

theorem opened_prepared : Opened w name (prepared w name) := by
  have hcatalog : (prepared w name).catalog = { w.catalog with
      entries := ((w.catalog.overlays.get? (overlayName w name)).getD []).foldl
        (fun bs e => bs.insert (none, e.1) e.2) w.catalog.entries
      requests := overlayName w name :: w.catalog.requests } :=
    Catalog.load_eq w.catalog (overlayName w name)
  -- opening and releasing the stream and loading the overlay touch two fields of the world
  refine ⟨rfl, Catalog.requested_load w.catalog (overlayName w name), ?_, ?_⟩
  · rw [hcatalog]
  · rw [hcatalog]

/-- The errors of a module that is run are errors at run time. -/
theorem runtime_of_loadable {source : Source} {c : Chunk} {e : ScriptError} {w' : World}
    (hname : w.library.source? (ModuleName.normalize name) = some source)
    (hchunk : chunkOf name source = .ok c)
    (h : requireModule (engine limit (fuel + 1)) env site name w = .raised e w') :
    ∃ text, e = .runtime text := by
  rw [require_module_loadable limit fuel env site name w hname hchunk, Act.map_error_apply] at h
  split at h
  · cases h
  · cases h
    exact ⟨_, rfl⟩
  · cases h

theorem not_found_iff (n : String) (w' : World) :
    requireModule (engine limit (fuel + 1)) env site name w = .raised (.moduleNotFound n) w' ↔
      w.library.source? (ModuleName.normalize name) = none ∧ n = name ∧ w' = w := by
  constructor
  · intro h
    -- what is found and what it gives decide the kind of error
    cases hname : w.library.source? (ModuleName.normalize name) with
    | none =>
      rw [require_module_unknown _ env site name w hname] at h
      cases h
      exact ⟨rfl, rfl, rfl⟩
    | some source =>
      cases hchunk : chunkOf name source with
      | error message =>
        rw [require_module_unloadable limit fuel env site name w hname hchunk] at h
        cases h
      | ok c =>
        obtain ⟨text, htext⟩ := runtime_of_loadable limit fuel env site name w hname hchunk h
        cases htext
  · rintro ⟨hname, rfl, rfl⟩
    exact require_module_unknown _ env site n w' hname

theorem load_error_iff (n message : String) (w' : World) :
    requireModule (engine limit (fuel + 1)) env site name w = .raised (.load n message) w' ↔
      ∃ source, w.library.source? (ModuleName.normalize name) = some source ∧
        chunkOf name source = .error message ∧ n = name ∧ w' = prepared w name := by
  constructor
  · intro h
    cases hname : w.library.source? (ModuleName.normalize name) with
    | none =>
      rw [require_module_unknown _ env site name w hname] at h
      cases h
    | some source =>
      cases hchunk : chunkOf name source with
      | error text =>
        rw [require_module_unloadable limit fuel env site name w hname hchunk] at h
        cases h
        exact ⟨source, rfl, hchunk, rfl, rfl⟩
      | ok c =>
        obtain ⟨text, htext⟩ := runtime_of_loadable limit fuel env site name w hname hchunk h
        cases htext
  · rintro ⟨source, hname, hchunk, rfl, rfl⟩
    exact require_module_unloadable limit fuel env site n w hname hchunk

/-! Loading a module again and again. -/

/-- Successive loads of a module in one environment with their results, from any places and with
anything done by scripts or the host in between. -/
inductive Loads (limit : Nat) (env : EnvironmentId) (name : String) :
    List (Except ScriptError (List Value)) → World → World → Prop where
  | none (w : World) : Loads limit env name [] w w
  | load {fuel : Nat} {site : Site} {r : Except ScriptError (List Value)}
      {rs : List (Except ScriptError (List Value))} {w w₁ w' : World}
      (h : ((requireModule (engine limit (fuel + 1)) env site name).attempt :
        Act ScriptError (Except ScriptError (List Value))) w = .done r w₁)
      (rest : Loads limit env name rs w₁ w') : Loads limit env name (r :: rs) w w'
  | other {a : Agent} {rs : List (Except ScriptError (List Value))} {w w₁ w' : World}
      (h : Reaches a w w₁) (rest : Loads limit env name rs w₁ w') : Loads limit env name rs w w'

/-- Successive runs of a chunk with their results. -/
inductive Executions (limit : Nat) (env : EnvironmentId) (name : String) (c : Chunk) :
    List (Except ScriptError (List Value)) → World → World → Prop where
  | none (w : World) : Executions limit env name c [] w w
  | run {fuel : Nat} {site : Site} {r : Except ScriptError (List Value)}
      {rs : List (Except ScriptError (List Value))} {w w₁ w' : World}
      (h : Ran limit fuel env site name c w r w₁)
      (rest : Executions limit env name c rs w₁ w') : Executions limit env name c (r :: rs) w w'
  | other {a : Agent} {rs : List (Except ScriptError (List Value))} {w w₁ w' : World}
      (h : Reaches a w w₁) (rest : Executions limit env name c rs w₁ w') :
      Executions limit env name c rs w w'

theorem remembers_of_load {r : Except ScriptError (List Value)} {w' : World}
    (h : ((requireModule (engine limit (fuel + 1)) env site name).attempt :
      Act ScriptError (Except ScriptError (List Value))) w = .done r w') : w.Remembers w' := by
  have hwithin := within_requireModule (lawful_engine limit (fuel + 1)) env site name
  have hkept := (hwithin.upholds w).remembers
  rw [Act.attempt_apply] at h
  cases hload : requireModule (engine limit (fuel + 1)) env site name w with
  | done vs w₁ =>
    rw [hload] at h hkept
    cases h
    exact hkept
  | raised e w₁ =>
    rw [hload] at h hkept
    cases h
    exact hkept
  | starved =>
    rw [hload] at h
    cases h

/-- What scripts do changes no module, so each load of a module runs it. -/
theorem executions_of_loads {source : Source} {c : Chunk} (hchunk : chunkOf name source = .ok c)
    {rs : List (Except ScriptError (List Value))} {w w' : World}
    (h : Loads limit env name rs w w')
    (hname : w.library.source? (ModuleName.normalize name) = some source) :
    Executions limit env name c rs w w' := by
  -- on the loads: the library that the first of them finds is the one that all others find
  induction h with
  | none w => exact .none w
  | @load fuel site r rs w w₁ w' hload _ ih =>
    have hkept := remembers_of_load limit fuel env site name w hload
    refine .run ((ran_iff limit fuel env site name w hname hchunk r w₁).mp hload) (ih ?_)
    rw [hkept.library, hname]
  | @other a rs w w₁ w' hother _ ih =>
    refine .other hother (ih ?_)
    rw [(World.lasting_remembers.reaches hother).library, hname]

/-- Requiring a module fails without a trace if the library does not know it, and leaves the trace
of an opened module and no other if it gives no chunk. Else it is run, and comes to what that
comes to; each of any number of loads runs it once more. -/
theorem require_outcomes :
    (∀ n w', requireModule (engine limit (fuel + 1)) env site name w =
        .raised (.moduleNotFound n) w' ↔
      w.library.source? (ModuleName.normalize name) = none ∧ n = name ∧ w' = w) ∧
    (∀ n message w', requireModule (engine limit (fuel + 1)) env site name w =
        .raised (.load n message) w' ↔
      ∃ source, w.library.source? (ModuleName.normalize name) = some source ∧
        chunkOf name source = .error message ∧ n = name ∧ w' = prepared w name) ∧
    Opened w name (prepared w name) ∧
    ∀ source c, w.library.source? (ModuleName.normalize name) = some source →
      chunkOf name source = .ok c →
      (∀ r w', ((requireModule (engine limit (fuel + 1)) env site name).attempt :
          Act ScriptError (Except ScriptError (List Value))) w = .done r w' ↔
        Ran limit fuel env site name c w r w') ∧
      (w.Allocated env →
        (w.heap env).function? (w.heap env).nextFunction = none ∧
        (((prepared w name).holding env c).heap env).function? (w.heap env).nextFunction =
          some (.closure (.mk [] true c.body 0) c.name (w.environment env).globals []) ∧
        (¬ depthLimit < site.depth → engine limit (fuel + 1) .values
            (.call env site (.function (w.heap env).nextFunction) [])
            ((prepared w name).holding env c) =
          Lua.callClosure (engine limit fuel) env site (.mk [] true c.body 0) c.name
            (w.environment env).globals [] [] ((prepared w name).holding env c))) ∧
      ∀ rs w', Loads limit env name rs w w' → Executions limit env name c rs w w' := by
  refine ⟨not_found_iff limit fuel env site name w, load_error_iff limit fuel env site name w,
    opened_prepared name w, ?_⟩
  intro source c hname hchunk
  refine ⟨ran_iff limit fuel env site name w hname hchunk, ?_, ?_⟩
  · intro henv
    obtain ⟨hnew, hfunction⟩ := (prepared w name).function_holding henv c
    exact ⟨hnew, hfunction, run_holding limit fuel env site (prepared w name) henv⟩
  · intro rs w' hloads
    exact executions_of_loads limit env name hchunk hloads hname

abbrev firstLoad : Outcome ScriptError (List Value) :=
  requireModule (engine 20 20) ⟨0⟩ .outside "a.lua" (furnished [("a.lua", "return 'two'")])

abbrev secondLoad : Outcome ScriptError (List Value) :=
  requireModule (engine 20 20) ⟨0⟩ .outside "a.lua" firstLoad.world

theorem attempt_of_ends_in {p : World → Prop} {x : Act ScriptError (List Value)} {w : World}
    (h : (x w).EndsIn p) :
    ∃ vs, (x.attempt : Act ScriptError (Except ScriptError (List Value))) w =
      .done (.ok vs) (x w).world ∧ p (x w).world := by
  rw [Act.attempt_apply]
  cases hx : x w with
  | done vs w' =>
    rw [hx] at h
    exact ⟨vs, rfl, h⟩
  | raised e w' =>
    rw [hx] at h
    cases h
  | starved =>
    rw [hx] at h
    cases h

theorem two_loads_run_twice :
    ∃ c rs w', chunkOf "a.lua" (.bytes (.ofText "return 'two'")) = .ok c ∧ rs.length = 2 ∧
      Executions 20 ⟨0⟩ "a.lua" c rs (furnished [("a.lua", "return 'two'")]) w' ∧
      w'.streams = ⟨2, 2⟩ := by
  have hcompiles : (chunkOf "a.lua" (.bytes (.ofText "return 'two'"))).isOk = true := by
    decide +kernel
  have hends : firstLoad.EndsIn (fun w => w.streams = ⟨1, 1⟩) ∧
      secondLoad.EndsIn fun w => w.streams = ⟨2, 2⟩ := by
    decide +kernel
  obtain ⟨vs, hfirst, -⟩ := attempt_of_ends_in hends.1
  obtain ⟨vs', hsecond, hstreams⟩ := attempt_of_ends_in hends.2
  cases hchunk : chunkOf "a.lua" (.bytes (.ofText "return 'two'")) with
  | error message =>
    rw [hchunk] at hcompiles
    cases hcompiles
  | ok c =>
    have houtcomes := require_outcomes 20 19 ⟨0⟩ .outside "a.lua"
      (furnished [("a.lua", "return 'two'")])
    obtain ⟨-, -, hagain⟩ := houtcomes.2.2.2 (.bytes (.ofText "return 'two'")) c rfl hchunk
    exact ⟨c, _, _, rfl, rfl, hagain _ _ (.load hfirst (.load hsecond (.none _))), hstreams⟩

end Loading

end ScenarioHost
