import DocComment.Path
import DocComment.Table
import DocComment.Text.Bytes

/-!
Files and directories as a value, and what it takes to reach, read, list, create and write them by
path.

An entry of a directory may lead elsewhere: a link does, and so does a name that differs from
another one only in case where the case of names does not count. Two entries can so be one file.
The files may also be kept where not everything works, and then it is part of the value which
directories cannot be listed or created, which files cannot be read, and how far a write gets.

Left out are files that are neither regular nor directories, directories that may not be passed
through, a limit on the links of one path, and what others do to the files meanwhile.
-/

namespace DocComment

inductive OsError where
  | notFound
  | alreadyExists
  | notDirectory
  | isDirectory
  | nameTooLong
  /-- A cause that does not lie with the files, by its text and its number. -/
  | other (text : Text) (code : Nat)
deriving DecidableEq, Repr

def OsError.message : OsError → Text
  | notFound => "No such file or directory (os error 2)".toList
  | alreadyExists => "File exists (os error 17)".toList
  | notDirectory => "Not a directory (os error 20)".toList
  | isDirectory => "Is a directory (os error 21)".toList
  | nameTooLong => "File name too long (os error 36)".toList
  | other text code => text ++ " (os error ".toList ++ Nat.toDigits 10 code ++ [')']

/-- Why a file could not be read as a text. -/
inductive ReadError where
  | system (e : OsError)
  | notText
deriving DecidableEq, Repr

def ReadError.message : ReadError → Text
  | system e => e.message
  | notText => "stream did not contain valid UTF-8".toList

inductive Node where
  | directory
  | file (content : ByteArray)

/-- Two files are the same if their bytes are. -/
instance : DecidableEq Node
  | .directory, .directory => isTrue rfl
  | .directory, .file _ => isFalse nofun
  | .file _, .directory => isFalse nofun
  | .file a, .file b => decidable_of_iff (a.data = b.data) (by simp [ByteArray.ext_iff])

/-- The names on the way from the root. -/
abbrev Location := List Text

/-- Why a content does not come to stand in a file. -/
inductive WriteFault where
  /-- The file cannot be opened and stays as it is. -/
  | refused (e : OsError)
  /-- The file is opened, which empties it, and takes no more than so many bytes. -/
  | cut (size : Nat) (e : OsError)
deriving DecidableEq, Repr

/-- What fails although the files admit it, by location. -/
structure Faults where
  list : Location → Option OsError := fun _ => none
  create : Location → Option OsError := fun _ => none
  read : Location → Option OsError := fun _ => none
  write : Location → ByteArray → Option WriteFault := fun _ _ => none

/-- What stays the same however the files change. -/
structure Setting where
  workingDirectory : Location := []
  /-- Where an entry leads, which is itself unless its node is kept elsewhere. -/
  resolve : Location → Location := id
  resolve_resolve : ∀ loc, resolve (resolve loc) = resolve loc := by intro _; rfl
  faults : Faults := {}

structure FileSystem extends Setting where
  /-- Everything but the root, in the order in which directories list it. -/
  nodes : List (Location × Node) := []
  nodup_locations : (nodes.map Prod.fst).Nodup := by simp
  /-- The entries that directories list besides, whose nodes are kept elsewhere. -/
  links : List Location := []

namespace FileSystem

def node? (fs : FileSystem) (loc : Location) : Option Node :=
  if loc.isEmpty then some .directory else fs.nodes.lookup loc

def put (fs : FileSystem) (loc : Location) (node : Node) : FileSystem :=
  { fs with
    nodes := Table.put loc node fs.nodes
    nodup_locations := Table.nodup_map_fst_put fs.nodup_locations loc node }

theorem node?_put {fs : FileSystem} {loc : Location} (h : loc ≠ []) (node : Node) (l : Location) :
    (fs.put loc node).node? l = if l = loc then some node else fs.node? l := by
  cases l with
  | nil => simp [node?, h.symm]
  | cons => simp [node?, put, Table.lookup_put]

/-- The file system with a node added, and with the directories around it. -/
def plant (fs : FileSystem) (loc : Location) (node : Node) : FileSystem :=
  let around := (List.range loc.length).map (loc.take ·)
  let missing := around.filter fun l => (fs.node? l).isNone
  (missing.foldl (fun fs l => fs.put l .directory) fs).put loc node

/-- What is new in `after` or has another content there. -/
def changes (before after : FileSystem) : List (Location × Node) :=
  after.nodes.filter fun (loc, node) => before.node? loc ≠ some node

/-- The location, if there is a directory. -/
def directory (fs : FileSystem) (loc : Location) : Except OsError Location :=
  match fs.node? loc with
  | some .directory => .ok loc
  | some (.file _) => .error .notDirectory
  | none => .error .notFound

/-- The location that a segment of a path leads to from a directory. -/
def follow (loc : Location) (segment : Text) : Location :=
  match Path.Component.ofSegment? segment with
  | some (.name n) => loc ++ [n]
  | some .up => loc.dropLast
  | _ => loc

/-- The greatest number of bytes in a name. -/
def nameLimit : Nat := 255

/-- The greatest number of bytes in a path. -/
def pathLimit : Nat := 4095

/-- Goes one segment on from a directory, whether or not anything is there. -/
def enter (fs : FileSystem) (loc : Location) (segment : Text) : Except OsError Location :=
  (fs.directory loc).bind fun loc =>
    if nameLimit < segment.toBytes.size then .error .nameTooLong else .ok (follow loc segment)

/-- The directory at the end of the segments. Each one is looked up in a directory, so that a
file or a missing name on the way ends the search. -/
def descend (fs : FileSystem) (loc : Location) : List Text → Except OsError Location
  | [] => fs.directory loc
  | segment :: rest =>
    (fs.enter loc segment).bind fun entry => fs.descend (fs.resolve entry) rest

/-- The entry that a path names. If its last segment is a name, nothing needs to be there yet. -/
def locate (fs : FileSystem) (path : Text) : Except OsError Location :=
  let segments := path.splitOn '/'
  let start := fs.resolve (if Path.isAbsolute path then [] else fs.workingDirectory)
  if path.isEmpty then .error .notFound
  else if pathLimit < path.toBytes.size then .error .nameTooLong
  else match segments.getLast?.bind Path.Component.ofSegment? with
    | some (.name n) => (fs.descend start segments.dropLast).bind fun loc => fs.enter loc n
    | _ => fs.descend start segments

/-- The location that a path leads to. -/
def reach (fs : FileSystem) (path : Text) : Except OsError Location :=
  (fs.locate path).map fs.resolve

def find? (fs : FileSystem) (path : Text) : Option Node :=
  (fs.reach path).toOption.bind fs.node?

def isFile (fs : FileSystem) (path : Text) : Bool :=
  match fs.find? path with
  | some (.file _) => true
  | _ => false

def isDirectory (fs : FileSystem) (path : Text) : Bool :=
  fs.find? path = some .directory

def read (fs : FileSystem) (path : Text) : Except OsError ByteArray :=
  (fs.reach path).bind fun loc =>
    match fs.node? loc, fs.faults.read loc with
    | none, _ => .error .notFound
    | some .directory, _ => .error .isDirectory
    | some (.file _), some e => .error e
    | some (.file content), none => .ok content

def readText (fs : FileSystem) (path : Text) : Except ReadError Text :=
  match fs.read path with
  | .error e => .error (.system e)
  | .ok content =>
    match Text.ofBytes? content with
    | none => .error .notText
    | some text => .ok text

/-- The names in a directory; none can be told of one that cannot be listed. -/
def names (fs : FileSystem) (loc : Location) : List Text :=
  if (fs.faults.list loc).isSome then []
  else (fs.nodes.map Prod.fst ++ fs.links).filterMap fun entry =>
    if entry.dropLast = loc then entry.getLast? else none

/-- Everything below a directory to the given depth, as the names on the way from it; a directory
comes right before what it holds, and names in one directory by their characters. -/
def below (fs : FileSystem) (loc : Location) : Nat → List (List Text)
  | 0 => []
  | depth + 1 =>
    ((fs.names loc).mergeSort Text.le).flatMap fun name =>
      [name] :: (fs.below (fs.resolve (loc ++ [name])) depth).map (name :: ·)

/-- Creates a directory for an entry that is not there yet, in an existing directory. -/
def createEntry (fs : FileSystem) (entry : Location) : Except OsError FileSystem :=
  let loc := fs.resolve entry
  -- A link is there, even if nothing is where it leads.
  if entry ∈ fs.links ∨ (fs.node? loc).isSome then .error .alreadyExists
  else (fs.directory loc.dropLast).bind fun _ =>
    match fs.faults.create loc with
    | some e => .error e
    | none => .ok (fs.put loc .directory)

/-- Creates one directory. Slashes at the end of the path do not count. -/
def createDirectory (fs : FileSystem) (path : Text) : Except OsError FileSystem :=
  let bare := (path.reverse.dropWhile (· = '/')).reverse
  if pathLimit < path.toBytes.size then .error .nameTooLong
  else if bare.isEmpty then .error (if path.isEmpty then .notFound else .alreadyExists)
  else (fs.locate bare).bind fs.createEntry

/-- The outcome of a change that may stop half-way: the files as they are then, and what stopped
it. -/
structure Change where
  files : FileSystem
  error : Option OsError := none

/-- Creates a directory unless it is there. -/
def ensureDirectory (fs : FileSystem) (path : Text) : Change :=
  match fs.createDirectory path with
  | .ok fs => ⟨fs, none⟩
  | .error e => ⟨fs, if fs.isDirectory path then none else some e⟩

/-- Creates a directory whose parents may be missing; `parents` are the paths of these, innermost
first. -/
def createWithParents (fs : FileSystem) (path : Text) (parents : List Text) : Change :=
  match fs.createDirectory path, parents with
  | .error .notFound, parent :: parents =>
    match fs.createWithParents parent parents with
    | ⟨fs, none⟩ => fs.ensureDirectory path
    | stopped => stopped
  | _, _ => fs.ensureDirectory path

def createDirectories (fs : FileSystem) (path : Text) : Change :=
  if path.isEmpty then ⟨fs, none⟩ else fs.createWithParents path (Path.parents path)

/-- Opens a file for writing, which may exist already, in an existing directory. -/
def openFile (fs : FileSystem) (path : Text) : Except OsError Location :=
  (fs.reach path).bind fun loc =>
    match fs.node? loc with
    | some .directory => .error .isDirectory
    | some (.file _) => .ok loc
    | none => (fs.directory loc.dropLast).map fun _ => loc

/-- Writes a file. What it held before is gone once it is open, also if less than the content then
comes to stand in it. -/
def write (fs : FileSystem) (path : Text) (content : ByteArray) : Change :=
  match fs.openFile path with
  | .error e => ⟨fs, some e⟩
  | .ok loc =>
    match fs.faults.write loc content with
    | none => ⟨fs.put loc (.file content), none⟩
    | some (.refused e) => ⟨fs, some e⟩
    | some (.cut size e) => ⟨fs.put loc (.file (content.extract 0 size)), some e⟩

end FileSystem

end DocComment
