import DocComment.Text.Blank

/-!
Where the signature of a `def` ends. It is scanned line by line: string literals hide brackets and
colons, and end with their line at the latest.
-/

namespace DocComment.Signature

/-- Where a character stands: in code, in a string literal, or there after a backslash. -/
inductive Place where
  | code
  | literal (quote : Char)
  | escaped (quote : Char)
deriving DecidableEq, Repr

def isQuote (c : Char) : Bool :=
  c = '"' || c = '\''

def isOpener (c : Char) : Bool :=
  c = '(' || c = '[' || c = '{'

def isCloser (c : Char) : Bool :=
  c = ')' || c = ']' || c = '}'

/-- Where the next character stands. -/
def Place.next (c : Char) : Place → Place
  | .code => if isQuote c then .literal c else .code
  | .literal q => if c = '\\' then .escaped q else if c = q then .code else .literal q
  | .escaped q => .literal q

/-- The text up to the first `#` outside of quotes. A backslash has no meaning here: every second
quote of a kind closes what the one before opened. -/
def uncommentedFrom : Option Char → Text → Text
  | _, [] => []
  | none, c :: t =>
    if c = '#' then [] else c :: uncommentedFrom (if isQuote c then some c else none) t
  | some q, c :: t => c :: uncommentedFrom (if c = q then none else some q) t

def uncommented (line : Text) : Text :=
  uncommentedFrom none line

/-- What a line does to the brackets of the parameter list. -/
inductive Closing where
  /-- The list ends; `tail` is the rest of the line. -/
  | closed (tail : Text)
  /-- The line ends inside `depth` brackets. -/
  | unclosed (depth : Nat)
deriving DecidableEq, Repr

/-- Scans a line behind `depth` open brackets. These are counted without a bound, where a count in
32 bits would end at 2 ^ 31 of them in one signature. -/
def closing (depth : Nat) (place : Place) : Text → Closing
  | [] => .unclosed depth
  | c :: t =>
    if place = .code ∧ isOpener c then closing (depth + 1) .code t
    else if place = .code ∧ isCloser c then
      if depth = 1 then .closed t else closing (depth - 1) .code t
    else closing depth (place.next c) t

/-- The lines, counted on from the one that closes the parameter list, up to the one whose colon
opens a body. `none` if a statement follows the colon on its line, or if there is no colon. -/
def colonOffset? (tail : Text) (rest : List Text) : Option Nat :=
  let code := Text.trim tail
  if code.getLast? = some ':' then some 0
  else if ':' ∈ code then none
  else match rest with
    | [] => none
    | line :: rest => (colonOffset? (uncommented line) rest).map (· + 1)

def extentFrom? (depth : Nat) (code : Text) (rest : List Text) : Option Nat :=
  match closing depth .code code with
  | .closed tail => colonOffset? tail rest
  | .unclosed depth =>
    match rest with
    | [] => none
    | line :: rest => (extentFrom? depth (uncommented line) rest).map (· + 1)

/-- How many of the lines `rest` belong to the signature whose parameter list starts with `params`
on the line before them, or `none` if no body follows on lines of its own. -/
def extent? (params : Text) (rest : List Text) : Option Nat :=
  extentFrom? 0 (uncommented params) rest

end DocComment.Signature
