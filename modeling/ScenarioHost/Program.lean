import ScenarioHost.CommandLine
import ScenarioHost.ConfigFile
import ScenarioHost.EditorSettings
import ScenarioHost.Engine
import ScenarioHost.Headless
import ScenarioHost.Report
import ScenarioHost.Stubs

/-!
The program as a whole: what it prints and which files it leaves, for a command line and the files
of its directory.
-/
namespace ScenarioHost.Program

open CommandLine (Options Stop)
open Lua (Evaluator Site)

structure Result where
  code : Nat
  output : List String
  errors : List String
  files : FileTree

def defaultConfigPath : String := "./scriptbridge.ini"

def configure (options : Options) (files : FileTree) : Config :=
  let loaded := Config.default.loadedOver files (options.config.getD defaultConfigPath)
  { loaded with
    scriptDirs := if options.scripts.isEmpty then loaded.scriptDirs else options.scripts
    language := options.language.getD loaded.language }

def worldFor (options : Options) (files : FileTree) : World :=
  let config := configure options files
  (World.new config (.ofRoots files config.scriptDirs)).modifySession fun s =>
    options.settings.foldl (fun s e => s.setSetting e.1 e.2) s

def consoleLines (w : World) : List String :=
  w.console.lines.map fun l => "[" ++ l.level.label ++ "] " ++ l.message

def generated (files : FileTree) (path : String) (content : Except String String)
    (failed done : String) : Result :=
  match content with
  | .error e => ⟨1, [], [failed ++ e], files⟩
  | .ok text =>
    match files.writeText path text with
    | .error e => ⟨1, [], ["Error: " ++ e], files⟩
    | .ok files => ⟨0, [done ++ path], [], files⟩

def finished (files : FileTree) (report ok : Bool) (w : World) : Result :=
  let lines := consoleLines w
  let reported := if report then [Report.text (w.session.getD .new)] else []
  ⟨if ok then 0 else 1, lines ++ reported, [], files⟩

variable (run : Evaluator)

def perform (options : Options) (files : FileTree) (env : EnvironmentId) : Act String Result := do
  match options.stubs, options.luarc, options.entry with
  | some path, _, _ =>
    let bound ← Headless.boundNames run env Reference.names
    return generated files (path.getD "scripts/scriptbridge.lua") (Stubs.generate bound)
      "Error generating stubs: " "Lua stubs written to "
  | none, some path, _ =>
    let bound ← Headless.boundNames run env Reference.names
    return generated files (path.getD "scripts/.luarc.json")
      (.ok (EditorSettings.text bound "scriptbridge.lua")) "" ".luarc.json written to "
  | none, none, none =>
    return ⟨2, [], ["No scenario given. Pass an ENTRY module or see --help."], files⟩
  | none, none, some entry =>
    let ok ← Headless.runScenario run env entry options.ticks options.delta
    Act.read (finished files options.report ok)

def runIn (options : Options) (files : FileTree) (w : World) : Result :=
  match Environments.create run .outside w with
  | .raised e w => ⟨1, consoleLines w, ["Error creating script environment: " ++ e], files⟩
  | .starved => ⟨1, [], [], files⟩
  | .done env w =>
    match perform run options files env w with
    | .done result _ => result
    | .raised _ _ | .starved => ⟨1, [], [], files⟩

def execute (args : List String) (files : FileTree) : Result :=
  match CommandLine.parse args with
  | .error .help => ⟨0, ["Runs Lua scenario scripts against the script bridge."], [], files⟩
  | .error .version => ⟨0, ["scriptbridge " ++ Version.current.text], [], files⟩
  | .error (.error e) => ⟨2, [], ["error: " ++ e.message], files⟩
  | .ok options => runIn run options files (worldFor options files)

end ScenarioHost.Program
