import ScenarioHost.Text.Json

/-!
Editor support: the settings file of the language server, which names the known globals.
-/
namespace ScenarioHost.EditorSettings

def sorted (names : List String) : List String := names.mergeSort fun a b => decide (a ≤ b)

def document (bound : List String) (stubs : String) : Json :=
  .object
    [("$schema",
        .string "https://raw.githubusercontent.com/LuaLS/vscode-lua/master/setting/schema.json"),
      ("completion.autoRequire", .boolean false),
      ("diagnostics.globals", Json.strings (sorted bound)),
      ("runtime.version", .string "LuaJIT"),
      ("workspace.library", Json.strings [stubs])]

def text (bound : List String) (stubs : String) : String := (document bound stubs).pretty

end ScenarioHost.EditorSettings
