import DocComment.FileSystem
import DocComment.Group
import DocComment.Text.Quoted

/-!
What a run reports while it works, and the lines in which it does so.
-/

namespace DocComment

inductive Level where
  | warn
  | info
  | debug
  | trace
deriving DecidableEq, Repr

namespace Level

/-- The verbosity from which on events of the level are shown. -/
def rank : Level → Nat
  | warn => 0
  | info => 1
  | debug => 2
  | trace => 3

/-- All labels have the same width. -/
def label : Level → Text
  | warn => " WARN".toList
  | info => " INFO".toList
  | debug => "DEBUG".toList
  | trace => "TRACE".toList

end Level

inductive Event where
  | unreadable (path : Text) (cause : ReadError)
  | unsupported (path : Text) (cause : Error)
  /-- An input that is neither a file nor a directory and matches nothing as a pattern. -/
  | unmatched (pattern : Text)
  | inputs (count : Nat)
  | emptyOutput (name : Text)
  | wrote (path : Text)
  | parsed (path : Text) (functions : Nat)
  | foundDocstring (name : Text) (line : Nat)
  | foundSlashComment (name : Text) (line : Nat)
  | sharedOutput (name source : Text)
  | sectionChange (change : SectionChange)
deriving DecidableEq, Repr

namespace Event

def level : Event → Level
  | unreadable .. | unsupported .. | unmatched .. => .warn
  | inputs .. | emptyOutput .. | wrote .. => .info
  | parsed .. | foundDocstring .. | foundSlashComment .. | sharedOutput .. => .debug
  | sectionChange .. => .trace

/-- The part of the program that reports the event. -/
def origin : Event → Text
  | parsed .. => "docmeta::parser".toList
  | foundDocstring .. => "docmeta::parser::python".toList
  | foundSlashComment .. => "docmeta::parser::rust".toList
  | sharedOutput .. => "docmeta::parser::merge".toList
  | sectionChange .. => "docmeta::parser::docstring".toList
  | _ => "docmeta".toList

def description : Event → Text
  | unreadable .. => "skipping unreadable file".toList
  | unsupported .. => "skipping file".toList
  | unmatched .. => "no files matched".toList
  | inputs .. => "processing input files".toList
  | emptyOutput .. => "no documented functions, skipping".toList
  | wrote .. => "wrote output".toList
  | parsed .. => "parsed source file".toList
  | foundDocstring .. => "found docstring".toList
  | foundSlashComment .. => "found doc comment".toList
  | sharedOutput .. => "merging into shared output".toList
  | sectionChange (.header ..) => "section header".toList
  | sectionChange (.dedent ..) => "de-indented line ends section".toList

def fields : Event → List (String × Text)
  | unreadable path cause => [("path", path), ("error", cause.message)]
  | unsupported path cause => [("path", path), ("error", cause.message)]
  | unmatched pattern => [("pattern", pattern)]
  | inputs count => [("count", Nat.toDigits 10 count)]
  | emptyOutput name => [("output", name)]
  | wrote path => [("path", path)]
  | parsed path functions => [("path", path), ("functions", Nat.toDigits 10 functions)]
  | foundDocstring name line | foundSlashComment name line =>
    [("function", name), ("line", Nat.toDigits 10 line)]
  | sharedOutput name source => [("output", name), ("source", Text.quoted source)]
  | sectionChange (.header old new) => [("from", old.label), ("to", new.label)]
  | sectionChange (.dedent old) => [("from", old.label)]

def line (e : Event) : Text :=
  e.level.label ++ ' ' :: e.origin ++ ": ".toList ++ e.description
    ++ e.fields.flatMap (fun f => ' ' :: f.1.toList ++ '=' :: f.2) ++ ['\n']

/-- The events that reading a declaration of an input of the given kind reports. -/
def ofDeclaration (kind : Kind) (d : Declaration) : List Event :=
  (match kind with
    | .bare => []
    | .tripleQuoted => [foundDocstring d.name d.line]
    | .slashes => [foundSlashComment d.name d.line])
  ++ (sectionChanges d.comment).map sectionChange

end Event

end DocComment
