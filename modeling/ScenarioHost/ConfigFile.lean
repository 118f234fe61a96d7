import ScenarioHost.Config
import ScenarioHost.Files

/-!
The settings file: loading over given settings, saving, and what can go wrong with it.
-/
namespace ScenarioHost

inductive ConfigFileError where
  | unreadable (path : String) (e : FileError)
  | malformed (path : String) (e : IniError)
  | unwritable (e : FileError)
deriving DecidableEq

def ConfigFileError.message : ConfigFileError → String
  | .unreadable path e => "Failed to load config file: couldn't read " ++ path ++ ": " ++ e.message
  | .malformed path e => "Failed to load config file: couldn't read " ++ path ++ ": " ++ e.message
  | .unwritable e => "Failed to save config file: " ++ e.message

namespace Config

def loadFile (c : Config) (files : FileTree) (path : String) : Except ConfigFileError Config :=
  match files.readText path with
  | .error e => .error (.unreadable path e)
  | .ok text => (c.load text).mapError (.malformed path)

def loadedOver (c : Config) (files : FileTree) (path : String) : Config :=
  match c.loadFile files path with
  | .ok loaded => loaded
  | .error _ => c

def saveFile (c : Config) (files : FileTree) (path : String) : Except ConfigFileError FileTree :=
  (files.write path (.ofText c.save)).mapError .unwritable

end Config

end ScenarioHost
