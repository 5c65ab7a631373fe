import DocComment.Text.Order

/-!
Slash-separated paths as texts, and the components that decide which of them are the same.
-/

namespace DocComment.Path

inductive Component where
  /-- The slash that an absolute path starts with. -/
  | root
  /-- A leading `.`; elsewhere a `.` is no component. -/
  | here
  | up
  | name (n : Text)
deriving DecidableEq, Repr

/-- The component that a segment after the first stands for, if any. -/
def Component.ofSegment? (segment : Text) : Option Component :=
  if segment.isEmpty ∨ segment = ['.'] then none
  else if segment = ['.', '.'] then some .up
  else some (.name segment)

def isAbsolute (p : Text) : Bool :=
  p.head? = some '/'

/-- Repeated slashes, trailing slashes and segments `.` do not count, but for a `.` in front. -/
def components (p : Text) : List Component :=
  let segments := p.splitOn '/'
  let first :=
    if isAbsolute p then [.root]
    else if segments.head? = some ['.'] then [.here]
    else []
  first ++ segments.filterMap Component.ofSegment?

/-- Whether two spellings have the same components. -/
def same (p q : Text) : Bool :=
  components p = components q

/-- The place of a kind of component in the order of paths. -/
def Component.rank : Component → Nat
  | root => 0
  | here => 1
  | up => 2
  | name _ => 3

/-- Names are ordered by their characters. -/
def Component.lt : Component → Component → Bool
  | name m, name n => Text.lt m n
  | c, d => decide (c.rank < d.rank)

/-- The order of paths, component by component. -/
def le (p q : Text) : Bool :=
  lexLe Component.lt (components p) (components q)

def Component.toText : Component → Text
  | root => []
  | here => ['.']
  | up => ['.', '.']
  | name n => n

def ofComponents (cs : List Component) : Text :=
  if cs = [.root] then ['/'] else ['/'].intercalate (cs.map Component.toText)

/-- The paths of the directories around `p`, innermost first. -/
def parents (p : Text) : List Text :=
  let cs := components p
  (List.range cs.length).reverse.filterMap fun n =>
    if n = 0 then none else some (ofComponents (cs.take n))

def fileName? (p : Text) : Option Text :=
  match (components p).getLast? with
  | some (.name n) => some n
  | _ => none

/-- A file name cut at its last dot. A dot in front of everything starts no extension. -/
def cutExtension (n : Text) : Text × Option Text :=
  match n.reverse.dropWhile (· ≠ '.') with
  | [] | [_] => (n, none)
  | _ :: stem => (stem.reverse, some (n.reverse.takeWhile (· ≠ '.')).reverse)

def stem? (p : Text) : Option Text :=
  (fileName? p).map fun n => (cutExtension n).1

def extension? (p : Text) : Option Text :=
  (fileName? p).bind fun n => (cutExtension n).2

/-- The path of `p` seen from `dir`. -/
def join (dir p : Text) : Text :=
  if isAbsolute p || dir.isEmpty then p
  else if dir.getLast? = some '/' then dir ++ p
  else dir ++ '/' :: p

end DocComment.Path
