import DocComment.Comment.State

/-!
The record of a whole comment. The first line of the trimmed text is the summary, whatever it
looks like; the state of `DocComment.State` reads the others.
-/

namespace DocComment

/-- The lines of a comment, without the white space around it. -/
def commentLines (text : Text) : List Text :=
  Text.lines (Text.trim text)

namespace Record

def ofText (text : Text) : Record :=
  match commentLines text with
  | [] => {}
  | first :: rest => (rest.foldl State.step (State.ofSummary (Text.trim first))).finish

/-- An absent comment documents nothing. -/
def ofComment : Option Text → Record
  | none => {}
  | some text => ofText text

end Record

/-- How the sections of a comment follow one another. -/
def sectionChanges (text : Text) : List SectionChange :=
  match commentLines text with
  | [] => []
  | first :: rest => (State.ofSummary (Text.trim first)).changes rest

end DocComment
