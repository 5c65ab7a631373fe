import DocComment.Command.Inputs
import DocComment.Command.Options
import DocComment.Report.Format

/-!
A run of the command as a function of its options, the files and standard input. Standard input and
output themselves do not fail.
-/

namespace DocComment

/-- Why a run fails. -/
inductive Failure where
  | standardInput
  | request (e : Error)
  | input (p : Inputs.Problem)
  | outputDirectory (path : Text) (e : OsError)
  | output (path : Text) (e : OsError)
deriving DecidableEq, Repr

namespace Failure

def message : Failure → Text
  | standardInput => "failed to read stdin".toList
  | request e => e.message
  | input p => p.message
  | outputDirectory path _ => "failed to create output directory: ".toList ++ path
  | output path _ => "failed to write ".toList ++ path

def cause? : Failure → Option Text
  | standardInput => some ReadError.notText.message
  | request _ => none
  | input p => some p.cause
  | outputDirectory _ e | output _ e => some e.message

/-- The report that ends a run. -/
def report (f : Failure) : Text :=
  "Error: ".toList ++ f.message ++ ['\n']
    ++ match f.cause? with
      | none => []
      | some cause => "\nCaused by:\n    ".toList ++ cause ++ ['\n']

end Failure

/-- What a run leaves behind. -/
structure Outcome where
  files : FileSystem
  stdout : Text := []
  events : List Event := []
  failure : Option Failure := none

namespace Outcome

def status (o : Outcome) : Nat :=
  if o.failure.isSome then 1 else 0

/-- The events that the verbosity shows, then the failure. -/
def stderr (o : Outcome) (verbosity : Nat) : Text :=
  (o.events.filter (·.level.rank ≤ verbosity)).flatMap Event.line
    ++ (o.failure.map Failure.report).getD []

end Outcome

namespace Options

def formatOrDefault (o : Options) : Except Error Format :=
  match o.format with
  | none => .ok .json
  | some name => Format.ofName name

/-- Reports standard input, which is read before the name of the format is looked at. -/
def runOnStdin (o : Options) (fs : FileSystem) (stdin : ByteArray) : Outcome :=
  match Text.ofBytes? stdin with
  | none => { files := fs, failure := some .standardInput }
  | some text =>
    let kind := o.kind.getD .bare
    let declarations := kind.declarations ['-'] text
    let events := declarations.flatMap (Event.ofDeclaration kind)
    match o.formatOrDefault with
    | .error e => { files := fs, events, failure := some (.request e) }
    | .ok format =>
      { files := fs, events, stdout := format.render (Document.ofDeclarations declarations) }

end Options

/-- The document of a file, if it is a text of a supported type, and what reading it reports. -/
def readDocument (fs : FileSystem) (path : Text) : List Event × Option Document :=
  match fs.readText path with
  | .error e => ([.unreadable path e], none)
  | .ok text =>
    match Document.ofFile path text with
    | .error e => ([.unsupported path e], none)
    | .ok d => (parseEvents path text ++ [.parsed path d.functions.length], some d)
where
  parseEvents (path text : Text) : List Event :=
    match Kind.ofPath? path with
    | none => []
    | some kind =>
      (kind.declarations ((Path.stem? path).getD []) text).flatMap (Event.ofDeclaration kind)

/-- Writes the groups that have functions, one after the other, until one cannot be written. -/
def writeGroups (format : Format) (directory : Text) (fs : FileSystem) : List Group → Outcome
  | [] => { files := fs }
  | g :: rest =>
    if g.document.functions.isEmpty then
      let o := writeGroups format directory fs rest
      { o with events := .emptyOutput g.name :: o.events }
    else
      let path := Path.join directory (g.name ++ '.' :: format.extension)
      match fs.write path (Text.toBytes (format.render g.document)) with
      | ⟨fs, some e⟩ => { files := fs, failure := some (.output path e) }
      | ⟨fs, none⟩ =>
        let o := writeGroups format directory fs rest
        { o with events := .wrote path :: o.events }

namespace Options

/-- Reports documents one after the other on standard output, or each group of them to its file
in the output directory. -/
def report (o : Options) (format : Format) (fs : FileSystem) (ds : List Document) : Outcome :=
  match o.output with
  | none =>
    let shown := ds.filter fun d => !(o.skipEmpty && d.functions.isEmpty)
    { files := fs, stdout := shown.flatMap format.render }
  | some directory =>
    match fs.createDirectories directory with
    | ⟨fs, some e⟩ => { files := fs, failure := some (.outputDirectory directory e) }
    | ⟨fs, none⟩ =>
      let outcome := writeGroups format directory fs (Group.ofDocuments ds)
      let merging := (Group.repeated [] ds).map fun d => Event.sharedOutput d.output d.sourceName
      { outcome with events := merging ++ outcome.events }

/-- Reports the files of the inputs. -/
def runOnInputs (o : Options) (fs : FileSystem) : Outcome :=
  match o.formatOrDefault with
  | .error e => { files := fs, failure := some (.request e) }
  | .ok format =>
    match Inputs.collect fs o.inputs with
    | (warnings, .error p) => { files := fs, events := warnings, failure := some (.input p) }
    | (warnings, .ok candidates) =>
      let paths := Inputs.sortedOnce candidates
      let results := paths.map (readDocument fs)
      let outcome := o.report format fs (results.filterMap Prod.snd)
      { outcome with
        events := warnings ++ .inputs paths.length :: results.flatMap Prod.fst ++ outcome.events }

def run (o : Options) (fs : FileSystem) (stdin : ByteArray) : Outcome :=
  if o.inputs.isEmpty then o.runOnStdin fs stdin else o.runOnInputs fs

end Options

end DocComment
