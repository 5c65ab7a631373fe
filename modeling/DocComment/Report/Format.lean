import DocComment.Error
import DocComment.Json.Document
import DocComment.Report.Markdown
import DocComment.Report.Tool

/-!
The formats in which documents are reported.
-/

namespace DocComment

inductive Format where
  | json
  | markdown
  | tool
deriving DecidableEq, Repr

namespace Format

def ofName (name : Text) : Except Error Format :=
  if name = "json".toList then .ok json
  else if name = "markdown".toList ∨ name = "md".toList then .ok markdown
  else if name = "tool".toList then .ok tool
  else .error (.unknownFormat name)

/-- The extension of a file in the format, without the dot in front. -/
def extension : Format → Text
  | json => "json".toList
  | markdown => "md".toList
  | tool => "tools.json".toList

/-- JSON ends with a line feed, Markdown with whatever its last block ends with. -/
def render : Format → Document → Text
  | json, d => d.toJson.pretty 0 ++ ['\n']
  | markdown, d => Markdown.render d
  | tool, d => (Tool.descriptors d).pretty 0 ++ ['\n']

end Format

end DocComment
