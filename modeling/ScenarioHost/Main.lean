import ScenarioHost.Program

/-!
The command line program. It takes the files below the working directory, runs, and writes the
files that have changed.
-/
namespace ScenarioHost.Main

def bytesOf (content : ByteArray) : ByteString :=
  .ofList (content.toList.map fun b => Char.ofNat b.toNat)

def contentOf (bytes : ByteString) : ByteArray :=
  ⟨(bytes.toList.map fun c => UInt8.ofNat c.toNat).toArray⟩

/-- Adds what is in a directory; `depth` directories lie below it at most. -/
def gather (names : List String) : (depth : Nat) → Array IO.FS.DirEntry → FileTree → IO FileTree
  | 0, _, files => return files
  | depth + 1, entries, files =>
    entries.foldlM
      (fun files entry => do
        let names := names ++ [entry.fileName]
        if ← entry.path.isDir then
          gather names depth (← entry.path.readDir) (files.addDirectory names)
        else return files.addFile names (bytesOf (← IO.FS.readBinFile entry.path)))
      files

def writeChanged (before after : FileTree) : IO Unit :=
  after.nodes.forM fun n => do
    match n.2 with
    | .file content _ =>
      if before.get? n.1 ≠ some n.2 then
        IO.FS.writeBinFile (String.intercalate "/" n.1) (contentOf content)
    | .directory _ => return ()

end ScenarioHost.Main

def main (args : List String) : IO UInt32 := do
  let here ← IO.currentDir
  let files ← ScenarioHost.Main.gather [] 32 (← here.readDir) ScenarioHost.FileTree.empty
  let result := ScenarioHost.Program.execute ScenarioHost.Engine.ample args files
  ScenarioHost.Main.writeChanged files result.files
  result.output.forM IO.println
  result.errors.forM IO.eprintln
  return UInt32.ofNat result.code
