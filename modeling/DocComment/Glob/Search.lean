import DocComment.FileSystem
import DocComment.Glob.Pattern

/-!
The paths in a file system that a pattern with slashes stands for.
-/

namespace DocComment

/-- A pattern for paths, cut at its slashes. -/
structure Glob where
  absolute : Bool
  components : List Glob.Pattern
  /-- The pattern ends with a slash, and so only stands for directories. -/
  directoriesOnly : Bool

namespace Glob

/-- The pieces between slashes, but for an empty one at the end. -/
def pieces (t : Text) : List Text :=
  let all := t.splitOn '/'
  if all.getLast? = some [] then all.dropLast else all

/-- Reads a pattern: it has to be one as a whole, and so does each of its components. -/
def ofText (t : Text) : Except SyntaxError Glob := do
  let _ ← Pattern.ofText t
  let absolute := Path.isAbsolute t
  let relative := if absolute then t.tail else t
  let components ← (if relative.isEmpty then [[]] else pieces relative).mapM Pattern.ofText
  .ok { absolute, components, directoriesOnly := t.getLast? = some '/' }

/-- The spelling of a name in a directory. The working directory itself is not spelled out. -/
def child (path name : Text) : Text :=
  if Path.components path = [.here] then name else Path.join path name

def isSpecial (name : Text) : Bool :=
  name = ['.'] || name = ['.', '.']

variable (fs : FileSystem)

def locationOf (path : Text) : Location :=
  (fs.reach path).toOption.getD []

/-- The names in a directory, sorted. -/
def sortedNames (path : Text) : List Text :=
  (fs.names (locationOf fs path)).mergeSort Text.le

/-- Everything below a directory, as its path and the name at the end of it. No path is so long
that it goes deeper than its bytes. -/
def descendants (path : Text) : List (Text × Text) :=
  (fs.below (locationOf fs path) FileSystem.pathLimit).map fun names =>
    (names.foldl child path, names.getLast?.getD [])

/-- The special names that a component with wildcards stands for: only one that starts with a
plain dot does. -/
def specials (p : Pattern) : List Text :=
  if p.head? = some (.char '.') then [['.', '.'], ['.']].filter p.accepts else []

/-- The paths that the components lead to from `path`. A plain component is looked up, one with
wildcards is tried on the names in the directory, and `**` on everything below it. -/
def expand (directoriesOnly : Bool) (path : Text) : List Pattern → List Text
  | [] => if directoriesOnly && !fs.isDirectory path then [] else [path]
  | p :: rest =>
    match p.literal? with
    | some name =>
      let next := child path name
      if (if isSpecial name then fs.isDirectory path else (fs.find? next).isSome)
      then expand directoriesOnly next rest else []
    | none =>
      if !fs.isDirectory path then []
      else if p = [.recursive] then
        match rest with
        | [] =>
          (descendants fs path).filterMap fun d => if fs.isDirectory d.1 then some d.1 else none
        | q :: rest =>
          if q = [.recursive] then expand directoriesOnly path (q :: rest)
          else (descendants fs path).flatMap fun d =>
            if q.accepts d.2 then expand directoriesOnly d.1 rest else []
      else
        (specials p).flatMap (fun name => expand directoriesOnly (Path.join path name) rest)
          ++ (sortedNames fs path).flatMap fun name =>
            if p.accepts name then expand directoriesOnly (child path name) rest else []

def paths (g : Glob) : List Text :=
  expand fs g.directoriesOnly (if g.absolute then ['/'] else ['.']) g.components

end Glob

end DocComment
