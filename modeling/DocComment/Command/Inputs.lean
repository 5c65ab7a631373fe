import DocComment.Event
import DocComment.Glob.Search

/-!
The files that the inputs of a run stand for.
-/

namespace DocComment.Inputs

/-- An input that is a pattern and cannot be read as one. -/
structure BadPattern where
  pattern : Text
  error : Glob.SyntaxError
deriving DecidableEq, Repr

/-- Why the files of an input cannot be told. -/
inductive Problem where
  | pattern (p : BadPattern)
  /-- The input is a directory that cannot be listed. -/
  | directory (path : Text) (e : OsError)
deriving DecidableEq, Repr

namespace Problem

def message : Problem → Text
  | pattern p => "invalid glob pattern: ".toList ++ p.pattern
  | directory path _ => "failed to read directory: ".toList ++ path

def cause : Problem → Text
  | pattern p => p.error.message
  | directory _ e => e.message

end Problem

variable (fs : FileSystem)

/-- The supported files right in a directory, in the order of its listing. -/
def supportedIn (directory : Text) : List Text :=
  ((fs.names (Glob.locationOf fs directory)).map (Path.join directory)).filter fun path =>
    fs.isFile path && (Kind.ofPath? path).isSome

/-- The files that a pattern stands for. -/
def matching (pattern : Text) : Except BadPattern (List Text) :=
  match Glob.ofText pattern with
  | .error e => .error ⟨pattern, e⟩
  | .ok glob => .ok ((glob.paths fs).filter fs.isFile)

/-- The files of one input, which is tried as a file, then as a directory, then as a pattern. -/
def candidates (input : Text) : Except Problem (List Text) :=
  if fs.isFile input then .ok [input]
  else if fs.isDirectory input then
    match fs.faults.list (Glob.locationOf fs input) with
    | some e => .error (.directory input e)
    | none => .ok (supportedIn fs input)
  else (matching fs input).mapError .pattern

/-- The warning that an input is due with its candidates. -/
def warning (input : Text) (found : List Text) : List Event :=
  if found.isEmpty && !fs.isDirectory input then [.unmatched input] else []

/-- The candidates of all inputs, up to the first problem, and the warnings until then. -/
def collect : List Text → List Event × Except Problem (List Text)
  | [] => ([], .ok [])
  | input :: rest =>
    match candidates fs input with
    | .error p => ([], .error p)
    | .ok found =>
      let (warnings, others) := collect rest
      (warning fs input found ++ warnings, others.map (found ++ ·))

/-- Sorts paths and keeps one of those that are the same, in its first spelling. -/
def sortedOnce (paths : List Text) : List Text :=
  (paths.mergeSort Path.le).eraseRepsBy Path.same

end DocComment.Inputs
