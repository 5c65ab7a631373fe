import DocComment.Comment.KeyLine
import DocComment.Comment.Section
import DocComment.Record

/-!
Reading a doc comment line by line. A line has a role, which depends on the section it stands in
and on whether an item is open there; the role alone says how the state goes on.
-/

namespace DocComment

/-- What has been read of a comment, and the item that is still open. -/
structure State where
  record : Record
  current : Section := .outside
  /-- The name of the open entry, in a section of entries. -/
  key : Option Text := none
  /-- The lines of the open entry, or of the returns text. -/
  pending : List Text := []

namespace State

/-- What a line is for the state before it. -/
inductive Role where
  | blank
  | header (next : Section)
  /-- An unindented line after an open item: it ends the section and is not kept. -/
  | dedent
  | entry (line : KeyLine)
  /-- Goes on with the open item, or starts the returns text. -/
  | continued (text : Text)
  | ignored
deriving DecidableEq, Repr

def ofSummary (summary : Text) : State where
  record := { summary }

/-- Whether an entry or a returns text is being collected. -/
def hasOpenItem (s : State) : Bool :=
  match s.current with
  | .args | .raises => s.key.isSome
  | .returns => !s.pending.isEmpty
  | .outside | .other => false

/-- The text of the open item. -/
def text (s : State) : Text :=
  Text.trim ([' '].intercalate s.pending)

/-- The record with the open item in its place. -/
def committed (s : State) : Record :=
  match s.current, s.key with
  | .args, some key => { s.record with args := s.record.args.insert key s.text }
  | .raises, some key => { s.record with raises := s.record.raises.insert key s.text }
  | .returns, _ => { s.record with returns := s.text }
  | _, _ => s.record

/-- Puts the open item into the record, after which none is open. -/
def flush (s : State) : State where
  record := s.committed
  current := s.current

def role (s : State) (line : Text) : Role :=
  let trimmed := Text.trim line
  let indented := Text.isIndented line
  if trimmed.isEmpty then .blank
  else match Section.ofHeader? trimmed with
    | some next => .header next
    | none =>
      if !indented && s.hasOpenItem then .dedent
      else match s.current with
        | .args | .raises =>
          match KeyLine.ofLine? line with
          | some k => .entry k
          | none => if s.key.isSome && indented then .continued trimmed else .ignored
        | .returns =>
          if s.pending.isEmpty || indented then .continued trimmed else .ignored
        | .outside | .other => .ignored

def apply (s : State) : Role → State
  | .blank | .ignored => s
  | .header next => { s.flush with current := next }
  | .dedent => { s.flush with current := .outside }
  | .entry line => { s.flush with key := some line.key, pending := [line.description] }
  | .continued text => { s with pending := s.pending ++ [text] }

def step (s : State) (line : Text) : State :=
  s.apply (s.role line)

/-- The record at the end of the comment. -/
def finish (s : State) : Record :=
  if s.hasOpenItem then s.committed else s.record

end State

/-- A move from one section to the next. -/
inductive SectionChange where
  | header (old new : Section)
  | dedent (old : Section)
deriving DecidableEq, Repr

namespace State

def change? (s : State) (line : Text) : Option SectionChange :=
  match s.role line with
  | .header next => some (.header s.current next)
  | .dedent => some (.dedent s.current)
  | _ => none

/-- The moves between sections while the lines are read, in order. -/
def changes (s : State) : List Text → List SectionChange
  | [] => []
  | line :: rest => (s.change? line).toList ++ (s.step line).changes rest

end State

end DocComment
