import ScenarioHost.Host.Boundary

/-!
Loading of modules. A module is opened, read and released before any of its code is compiled or
run. `runFile` runs a module for the host, `requireModule` for a script or on its behalf.
-/
namespace ScenarioHost.Loading

open Lua (Evaluator FunctionId Site Value)

variable (run : Evaluator)

/-- Finds a module and counts the stream that is opened; `none` for a name the library does not
know. -/
def findModule {ε : Type} (name : String) : Act ε (Option OpenModule) := do
  match ← Act.read fun w => w.library.open? w.config.language name with
  | none => return none
  | some found => do
    Act.update fun w => { w with streams := w.streams.open_ }
    return some found

def openModule {ε : Type} (name : String) : Act ε (Option Source) := do
  return (← findModule name).map OpenModule.source

def releaseModule {ε : Type} : Act ε Unit :=
  Act.update fun w => { w with streams := w.streams.release }

def overlayName (w : World) (name : String) : String :=
  ModuleName.overlay (ModuleName.normalize name) w.config.language

def loadOverlay {ε : Type} (name : String) : Act ε Unit :=
  Act.update fun w => w.loadOverlay (overlayName w name)

def compileText (env : EnvironmentId) (site : Site) (name : String) (source : ByteString) :
    Act HostError (Except Lua.SyntaxError FunctionId) :=
  Boundary.fromHost run env site (run .loaded (.load env (.ofText name) source))

def compileFile (env : EnvironmentId) (site : Site) (path : String) (source : ByteString) :
    Act HostError FunctionId := do
  let name := "@" ++ path
  let before := (ByteString.ofText name).toList.takeWhile (· ≠ '\x00')
  if before.length < (ByteString.ofText name).size then
    Act.raise (.runtime
      ("invalid name: nul byte found in provided data at position: " ++ toString before.length))
  else
    match ← compileText run env site name source with
    | .ok f => return f
    | .error e => Act.raise (.malformed e.message.toTextLossy)

/-- Runs a module in an environment; the error is a text. -/
def runFile (env : EnvironmentId) (site : Site) (path : String) : Act String (List Value) := do
  match ← openModule path with
  | none => Act.raise ("Script not found: " ++ path)
  | some source => do
    releaseModule
    match source with
    | .unreadable message => Act.raise ("Failed to read " ++ path ++ ": " ++ message)
    | .bytes content =>
      Act.mapError HostError.message do
        let f ← compileFile run env site path content
        Boundary.call run env site (.function f) []

def runLocalized (env : EnvironmentId) (site : Site) (path : String) : Act String Unit := do
  loadOverlay path
  discard (runFile run env site path)

def requireModule (env : EnvironmentId) (site : Site) (name : String) :
    Act ScriptError (List Value) := do
  match ← findModule name with
  | none => Act.raise (.moduleNotFound name)
  | some found => do
    Act.update fun w => w.loadOverlay found.overlay
    releaseModule
    match found.source with
    | .unreadable message => Act.raise (.load name message)
    | .bytes content => do
      let f ← (compileFile run env site name content).mapError fun e => .load name e.message
      (Boundary.call run env site (.function f) []).mapError fun e => .runtime ("require:" ++ e.message)

def evaluate (env : EnvironmentId) (site : Site) (name : String) (source : ByteString) :
    Act HostError (List Value) := do
  match ← compileText run env site name (⟨"return "⟩ ++ source) with
  | .ok f => Boundary.call run env site (.function f) []
  | .error _ =>
    match ← compileText run env site name source with
    | .ok f => Boundary.call run env site (.function f) []
    | .error e => Act.raise (.malformed e.message.toTextLossy)

end ScenarioHost.Loading
