import DocComment.Command.Run

/-!
The command line. Inputs are read from disk by name, the run itself is `DocComment.Options.run`,
and what it changed is written back. Patterns are expected to be expanded by the shell: what is on
the disk beside the named files is not looked at.
-/

namespace DocComment.CommandLine

/-- The working directory as a location of its own, so that relative and absolute paths stay
apart. -/
def here : Location :=
  ["."].map String.toList

def locationOf (path : Text) : Location :=
  (path.splitOn '/').foldl FileSystem.follow (if Path.isAbsolute path then [] else here)

def diskPath (loc : Location) : String :=
  let path := ['/'].intercalate loc
  String.ofList (if here.isPrefixOf loc then path else '/' :: path)

/-- Adds an input to the known files, if it can be read. -/
def load (fs : FileSystem) (path : Text) : IO FileSystem := do
  try
    let content ← IO.FS.readBinFile (String.ofList path)
    return fs.plant (locationOf path) (.file content)
  catch _ =>
    return fs

def store (change : Location × Node) : IO Unit :=
  match change with
  | (loc, .directory) => IO.FS.createDirAll (diskPath loc)
  | (loc, .file content) => IO.FS.writeBinFile (diskPath loc) content

partial def readAll (stream : IO.FS.Stream) (bytes : ByteArray) : IO ByteArray := do
  let more ← stream.read 65536
  if more.isEmpty then return bytes else readAll stream (bytes ++ more)

def usage : String :=
  "usage: docmeta [-o DIRECTORY] [-f json|markdown|tool] [--lang docstring|python|rust] "
    ++ "[--skip-empty] [-v]... [FILE]...\n"

def perform (o : Options) : IO UInt32 := do
  let stdin ← if o.inputs.isEmpty then readAll (← IO.getStdin) .empty else pure .empty
  let empty : FileSystem := { workingDirectory := here }
  let before ← o.inputs.foldlM load (empty.put here .directory)
  let outcome := o.run before stdin
  (FileSystem.changes before outcome.files).forM store
  (← IO.getStdout).putStr (String.ofList outcome.stdout)
  (← IO.getStderr).putStr (String.ofList (outcome.stderr o.verbosity))
  return outcome.status.toUInt32

end DocComment.CommandLine

open DocComment in
def main (arguments : List String) : IO UInt32 :=
  match Options.ofArguments (arguments.map String.toList) with
  | .ok o => CommandLine.perform o
  | .error u => do
    (← IO.getStderr).putStr CommandLine.usage
    return u.status.toUInt32
