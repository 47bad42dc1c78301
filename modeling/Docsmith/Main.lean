/-
The program. The names of the files that it may read come on standard input, one to a line; files
that a command changed are written back when it is over. Services on the network are not reached
from here, so commands that need one say what is missing.
-/
import Docsmith.Command.Console
import Docsmith.Command.Line

namespace Docsmith

def variableNames : List String :=
  ["GROQ_API_KEY", "NETLIFY_TOKEN", "NETLIFY_SITE_ID", "VERCEL_TOKEN", "VERCEL_PROJECT_ID",
    "S3_BUCKET", "AWS_REGION", "GITHUB_WEBHOOK_SECRET"]

partial def linesOf (input : IO.FS.Stream) : IO (List String) := do
  let line ← input.getLine
  if line.isEmpty then pure []
  else
    let rest ← linesOf input
    pure ((line.dropEndWhile (· == '\n')).toString :: rest)

def loadFile (t : FileTree) (name : String) : IO FileTree := do
  let bytes ← IO.FS.readBinFile name
  let loc := t.place (.ofString name)
  pure ((t.putFolders loc.dropLast).put loc (.file bytes.toList))

def storeChanges (old new : FileTree) : IO Unit :=
  new.entries.forM fun (loc, entry) => do
    let text := "/" ++ "/".intercalate loc
    if old.at? loc != some entry then
      match entry with
      | .folder => IO.FS.createDirAll text
      | .file bytes => IO.FS.writeBinFile text ⟨bytes.toArray⟩

def runProgram (words : List String) : IO UInt32 := do
  let cwd ← IO.currentDir
  let names ← linesOf (← IO.getStdin)
  let start : FileTree := { cwd := .ofString cwd.toString }
  let files ← names.foldlM loadFile (start.putFolders start.cwd.parts)
  let env ← variableNames.filterMapM fun name => do
    let value ← IO.getEnv name
    pure (value.map fun v => (name, v))
  let world : World :=
    { files, env, missing := [.chatClient, .storageClient, .webFramework, .webServer] }
  let (result, world) := (Command.runLine words [] false).run.run world
  world.printed.forM fun n => n.plain.forM IO.println
  storeChanges files world.files
  match result with
  | .ok code => pure code.toUInt32
  | .error e => do
    IO.eprintln e.message
    pure 1

end Docsmith

def main (words : List String) : IO UInt32 := Docsmith.runProgram words
