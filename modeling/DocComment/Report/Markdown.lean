import DocComment.Record

/-!
Documents as Markdown: a heading for each function, then what its comment holds.
-/

namespace DocComment.Markdown

def entryItem (name description : Text) : Text :=
  "* **".toList ++ name ++ "**".toList
    ++ if description.isEmpty then [] else ": ".toList ++ description

/-- The lines of a part, or none if it has no content. -/
def part (title : Text) (content : List Text) : List Text :=
  if content.isEmpty then [] else ["#### ".toList ++ title, []] ++ content ++ [[]]

/-- A text as the content of a part: one line, or nothing at all. -/
def paragraph (t : Text) : List Text :=
  if t.isEmpty then [] else [t]

def entryItems (e : Entries) : List Text :=
  e.toList.map fun p => entryItem p.1 p.2

def functionLines (f : DocumentedFunction) : List Text :=
  ["### ".toList ++ f.name, []]
    ++ (if f.record.summary.isEmpty then [] else [f.record.summary, []])
    ++ part "Arguments".toList (entryItems f.record.args)
    ++ part "Returns".toList (paragraph f.record.returns)
    ++ part "Raises".toList (entryItems f.record.raises)

def block (f : DocumentedFunction) : Text :=
  (functionLines f).flatMap (· ++ ['\n'])

/-- The blocks of the functions with an empty line between them. -/
def render (d : Document) : Text :=
  ['\n'].intercalate (d.functions.map block)

end DocComment.Markdown
