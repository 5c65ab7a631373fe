import DocComment.Source.Declaration
import DocComment.Source.Signature

/-!
Functions documented by the triple-quoted string that opens their body, as in
`def f():` followed by an indented string. A method is named after its class.
-/

namespace DocComment.TripleQuoted

/-- A class that a declaration may stand in, by the width of its indentation. -/
structure Scope where
  indent : Nat
  name : Text
deriving DecidableEq, Repr

/-- The scopes that a line of indentation `indent` stands in, innermost first. -/
def enclosing (indent : Nat) (scopes : List Scope) : List Scope :=
  scopes.filter (·.indent < indent)

def qualified (name : Text) : List Scope → Text
  | [] => name
  | scope :: _ => scope.name ++ '.' :: name

structure DefLine where
  indent : Nat
  name : Text
  /-- The line from the bracket on that opens the parameter list. -/
  params : Text
deriving DecidableEq, Repr

/-- What follows the keyword and a gap, if the text starts with them. -/
def afterKeyword? (keyword t : Text) : Option Text := do
  let rest ← Text.after? keyword t
  if rest.head?.any Text.isIndent then some (rest.dropWhile Text.isIndent) else none

def classLine? (line : Text) : Option Scope := do
  let rest ← afterKeyword? "class".toList (line.dropWhile Text.isIndent)
  let name := rest.takeWhile Text.isWord
  if name.isEmpty then none else some ⟨(line.takeWhile Text.isIndent).length, name⟩

def defLine? (line : Text) : Option DefLine := do
  let t := line.dropWhile Text.isIndent
  let rest ← afterKeyword? "def".toList ((afterKeyword? "async".toList t).getD t)
  let name := rest.takeWhile Text.isWord
  let params := (rest.dropWhile Text.isWord).dropWhile Text.isIndent
  if name.isEmpty ∨ params.head? ≠ some '(' then none
  else some ⟨(line.takeWhile Text.isIndent).length, name, params⟩

def delimiters : List Text :=
  ["\"\"\"".toList, "'''".toList]

def isStringMark (c : Char) : Bool :=
  c = 'r' || c = 'R' || c = 'u' || c = 'U'

/-- The delimiter of a triple-quoted string that starts the line, and what follows it. -/
def opening? (line : Text) : Option (Text × Text) :=
  let t := line.dropWhile Text.isIndent
  let t := if t.head?.any isStringMark then t.tail else t
  delimiters.findSome? fun delimiter => (Text.after? delimiter t).map (delimiter, ·)

/-- The lines up to the delimiter, the last one cut before it, and how many lines they are. A
string that is not closed takes all lines. -/
def upTo (delimiter : Text) : List Text → List Text × Nat
  | [] => ([], 0)
  | line :: rest =>
    match Text.before? delimiter line with
    | some front => ([front], 1)
    | none =>
      let (body, used) := upTo delimiter rest
      (line :: body, used + 1)

/-- The text of the triple-quoted string that the lines start with, and how many lines it takes. -/
def docstring? : List Text → Option (Text × Nat)
  | [] => none
  | line :: rest => do
    let (delimiter, first) ← opening? line
    let (body, used) := upTo delimiter (first :: rest)
    some (['\n'].intercalate body, used)

/-- The docstring behind a `def` line, and the number of further lines that are done with it:
those of the signature, the blank ones after it and those of the docstring. -/
def commentAfter (d : DefLine) (rest : List Text) : Option Text × Nat :=
  match Signature.extent? d.params rest with
  | none => (none, 0)
  | some signature =>
    let body := rest.drop signature
    let blanks := (body.takeWhile Text.isBlankLine).length
    match docstring? (body.drop blanks) with
    | none => (none, signature)
    | some (text, used) => (some text, signature + blanks + used)

/-- The documented declarations among the lines, of which the first has the given number. -/
def declarationsFrom (number : Nat) (scopes : List Scope) : List Text → List Declaration
  | [] => []
  | line :: rest =>
    match classLine? line with
    | some scope => declarationsFrom (number + 1) (scope :: enclosing scope.indent scopes) rest
    | none =>
      match defLine? line with
      | none => declarationsFrom (number + 1) scopes rest
      | some d =>
        let scopes := enclosing d.indent scopes
        let (comment, used) := commentAfter d rest
        (comment.map (⟨qualified d.name scopes, number, ·⟩)).toList
          ++ declarationsFrom (number + 1 + used) scopes (rest.drop used)
termination_by lines => lines.length

def declarations (source : Text) : List Declaration :=
  declarationsFrom 1 [] (Text.lines source)

end DocComment.TripleQuoted
