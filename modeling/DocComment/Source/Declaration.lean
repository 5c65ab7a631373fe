import DocComment.Comment.Read

/-!
Declarations as they stand in a source: a name, a line, and the text of the comment.
-/

namespace DocComment

structure Declaration where
  name : Text
  /-- Counted from 1; 0 for a comment that stands alone. -/
  line : Nat
  comment : Text
deriving DecidableEq, Repr

def Declaration.function (d : Declaration) : DocumentedFunction where
  name := d.name
  line := d.line
  record := Record.ofText d.comment

def Document.ofDeclarations (ds : List Declaration) : Document where
  functions := ds.map Declaration.function

end DocComment
