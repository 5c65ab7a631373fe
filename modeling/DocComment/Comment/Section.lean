import DocComment.Text.Basic

/-!
The sections of a doc comment and the lines that head them.
-/

namespace DocComment

inductive Section where
  /-- No section: the text before the first header, or after the last entry of a section. -/
  | outside
  | args
  | returns
  | raises
  /-- A section with a known header whose text is not kept. -/
  | other
deriving DecidableEq, Repr

namespace Section

def argsHeaders : List Text :=
  ["args:".toList, "arguments:".toList, "parameters:".toList]

def returnsHeaders : List Text :=
  ["returns:".toList, "yields:".toList]

/-- A line that starts like this heads the errors, whatever follows. -/
def raisesStarts : List Text :=
  ["raises ".toList, "raises:".toList, "errors:".toList, "exceptions:".toList]

def otherStarts : List Text :=
  ["attributes:".toList, "see also:".toList, "example:".toList, "examples:".toList,
    "notes:".toList]

/-- The section that a trimmed line heads. Letter case does not count, and only that of ASCII
letters can matter, since no other character has a letter of a header as its lower case. -/
def ofHeader? (line : Text) : Option Section :=
  let lower := line.map Char.toLower
  if lower ∈ argsHeaders then some args
  else if lower ∈ returnsHeaders then some returns
  else if raisesStarts.any (·.isPrefixOf lower) then some raises
  else if otherStarts.any (·.isPrefixOf lower) then some other
  else none

def label : Section → Text
  | outside => "None".toList
  | args => "Args".toList
  | returns => "Returns".toList
  | raises => "Raises".toList
  | other => "Other".toList

end Section

end DocComment
