import DocComment.Text.Basic

/-!
JSON values and the way they are written. Members of an object keep their order.
-/

namespace DocComment

/-- The numbers that occur are natural. -/
inductive Json where
  | null
  | number (n : Nat)
  | text (t : Text)
  | array (items : List Json)
  | object (members : List (Text × Json))

namespace Json

/-- A character inside a string. Beyond the quote and the backslash only control characters of
ASCII have an escape. -/
def escapeChar (c : Char) : Text :=
  if c = '"' then "\\\"".toList
  else if c = '\\' then "\\\\".toList
  else if c = '\x08' then "\\b".toList
  else if c = '\x0c' then "\\f".toList
  else if c = '\n' then "\\n".toList
  else if c = '\r' then "\\r".toList
  else if c = '\t' then "\\t".toList
  else if c.toNat < 32 then
    "\\u00".toList ++ [Nat.digitChar (c.toNat / 16), Nat.digitChar (c.toNat % 16)]
  else [c]

def string (t : Text) : Text :=
  '"' :: t.flatMap escapeChar ++ ['"']

mutual

/-- Without white space. -/
def compact : Json → Text
  | null => "null".toList
  | number n => Nat.toDigits 10 n
  | text t => string t
  | array items => '[' :: [','].intercalate (compactItems items) ++ [']']
  | object members => '\x7b' :: [','].intercalate (compactMembers members) ++ ['\x7d']

def compactItems : List Json → List Text
  | [] => []
  | item :: rest => compact item :: compactItems rest

def compactMembers : List (Text × Json) → List Text
  | [] => []
  | (name, value) :: rest => (string name ++ ':' :: compact value) :: compactMembers rest

end

def indentation (depth : Nat) : Text :=
  List.replicate (2 * depth) ' '

/-- The items of a container between its brackets, each on a line of its own, one step deeper than
the brackets; an empty container stays on one line. -/
def block (opener closer : Char) (depth : Nat) (items : List Text) : Text :=
  if items.isEmpty then [opener, closer]
  else opener :: '\n' :: ",\n".toList.intercalate (items.map (indentation (depth + 1) ++ ·))
    ++ '\n' :: indentation depth ++ [closer]

mutual

/-- One item or member a line, indented by two spaces for each container around it. -/
def pretty (depth : Nat) : Json → Text
  | null => "null".toList
  | number n => Nat.toDigits 10 n
  | text t => string t
  | array items => block '[' ']' depth (prettyItems (depth + 1) items)
  | object members => block '\x7b' '\x7d' depth (prettyMembers (depth + 1) members)

def prettyItems (depth : Nat) : List Json → List Text
  | [] => []
  | item :: rest => pretty depth item :: prettyItems depth rest

def prettyMembers (depth : Nat) : List (Text × Json) → List Text
  | [] => []
  | (name, value) :: rest =>
    (string name ++ ": ".toList ++ pretty depth value) :: prettyMembers depth rest

end

end Json

end DocComment
