import DocComment.Error
import DocComment.Path
import DocComment.Source.SlashComment
import DocComment.Source.TripleQuoted

/-!
The kinds of input, and the document that a file of each kind gives.
-/

namespace DocComment

/-- How the comments of an input are marked. -/
inductive Kind where
  /-- The whole text is one comment. -/
  | bare
  | tripleQuoted
  | slashes
deriving DecidableEq, Repr

namespace Kind

/-- The extensions of supported files. -/
def extensions : List (Text × Kind) :=
  [("py".toList, tripleQuoted), ("pyi".toList, tripleQuoted), ("rs".toList, slashes),
    ("txt".toList, bare), ("md".toList, bare)]

def ofExtension? (extension : Text) : Option Kind :=
  extensions.lookup extension

/-- The kind of a file, from its path alone. -/
def ofPath? (path : Text) : Option Kind :=
  (Path.extension? path).bind ofExtension?

/-- The documented declarations of a text. A bare comment counts as one, of the given name, on
line 0. -/
def declarations (kind : Kind) (name text : Text) : List Declaration :=
  match kind with
  | bare => [⟨name, 0, text⟩]
  | tripleQuoted => TripleQuoted.declarations text
  | slashes => SlashComment.declarations text

end Kind

namespace Document

/-- The document with its source noted, also at each of its functions. -/
def withSource (d : Document) (source : Text) : Document where
  source := some source
  functions := d.functions.map fun f => { f with source := some source }

/-- The document of a file; a bare comment is named after the stem of the file. -/
def ofFile (path content : Text) : Except Error Document :=
  match Kind.ofPath? path with
  | none => .error (.unsupportedFileType path)
  | some kind =>
    .ok ((ofDeclarations (kind.declarations ((Path.stem? path).getD []) content)).withSource path)

end Document

end DocComment
