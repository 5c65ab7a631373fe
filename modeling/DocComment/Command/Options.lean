import DocComment.Source.Kind

/-!
The options of the command line.
-/

namespace DocComment

structure Options where
  /-- Files, directories or patterns. -/
  inputs : List Text := []
  /-- The directory for the outputs. -/
  output : Option Text := none
  format : Option Text := none
  /-- The kind of the text on standard input. -/
  kind : Option Kind := none
  skipEmpty : Bool := false
  verbosity : Nat := 0

/-- Why the arguments start no run. -/
inductive Usage where
  | help
  | unknownOption (argument : Text)
  | missingValue (option : Text)
  | unexpectedValue (option : Text)
  | invalidValue (option value : Text)
  | repeated (option : Text)
deriving DecidableEq, Repr

/-- The exit status without a run. -/
def Usage.status : Usage → Nat
  | help => 0
  | _ => 2

namespace Options

/-- The options that take a value. -/
inductive Valued where
  | output
  | format
  | kind
deriving DecidableEq, Repr

/-- The options that take none. -/
inductive Flag where
  | skipEmpty
  | verbose
  | help
deriving DecidableEq, Repr

/-- What a name or a letter stands for. -/
inductive Item where
  | valued (v : Valued)
  | flag (f : Flag)
deriving DecidableEq, Repr

def longNames : List (Text × Item) :=
  [("output".toList, .valued .output), ("format".toList, .valued .format),
    ("lang".toList, .valued .kind), ("skip-empty".toList, .flag .skipEmpty),
    ("verbose".toList, .flag .verbose), ("help".toList, .flag .help)]

def letters : List (Char × Item) :=
  [('o', .valued .output), ('f', .valued .format), ('v', .flag .verbose), ('h', .flag .help)]

def kindNames : List (Text × Kind) :=
  [("docstring".toList, .bare), ("python".toList, .tripleQuoted), ("rust".toList, .slashes)]

/-- Notes a value. No option with a value comes twice, and the output directory has a name. -/
def setValue (o : Options) (name : Text) (v : Valued) (value : Text) : Except Usage Options :=
  match v with
  | .output =>
    if o.output.isSome then .error (.repeated name)
    else if value.isEmpty then .error (.invalidValue name value)
    else .ok { o with output := some value }
  | .format =>
    if o.format.isSome then .error (.repeated name) else .ok { o with format := some value }
  | .kind =>
    if o.kind.isSome then .error (.repeated name)
    else match kindNames.lookup value with
      | none => .error (.invalidValue name value)
      | some kind => .ok { o with kind := some kind }

/-- Notes a flag. Each `verbose` adds one to the verbosity. -/
def setFlag (o : Options) (name : Text) : Flag → Except Usage Options
  | .skipEmpty =>
    if o.skipEmpty then .error (.repeated name) else .ok { o with skipEmpty := true }
  | .verbose => .ok { o with verbosity := o.verbosity + 1 }
  | .help => .error .help

/-- What one argument asks for. -/
inductive Argument where
  | input (t : Text)
  /-- Only inputs follow. -/
  | endOfOptions
  | options (o : Options)
  /-- The next argument is the value of this option. -/
  | pending (o : Options) (name : Text) (v : Valued)

/-- Reads the letters of an argument such as `-vf`. What follows the letter of an option with a
value is the value, after an equals sign if there is one. -/
def readLetters (o : Options) : Text → Except Usage Argument
  | [] => .ok (.options o)
  | c :: rest =>
    match letters.lookup c with
    | none => .error (.unknownOption ['-', c])
    | some (.flag f) => (o.setFlag ['-', c] f).bind fun o => readLetters o rest
    | some (.valued v) =>
      match rest with
      | [] => .ok (.pending o ['-', c] v)
      | '=' :: value => (o.setValue ['-', c] v value).map .options
      | value => (o.setValue ['-', c] v value).map .options

/-- Reads an argument that starts with two hyphens, which are left out here. -/
def readLong (o : Options) (t : Text) : Except Usage Argument :=
  let name := t.takeWhile (· ≠ '=')
  let shown := '-' :: '-' :: name
  match longNames.lookup name, t.dropWhile (· ≠ '=') with
  | none, _ => .error (.unknownOption shown)
  | some (.flag f), [] => (o.setFlag shown f).map .options
  | some (.flag _), _ => .error (.unexpectedValue shown)
  | some (.valued v), [] => .ok (.pending o shown v)
  | some (.valued v), _ :: value => (o.setValue shown v value).map .options

def readArgument (o : Options) (argument : Text) : Except Usage Argument :=
  match argument with
  | ['-', '-'] => .ok .endOfOptions
  | '-' :: '-' :: t => o.readLong t
  | '-' :: c :: rest => o.readLetters (c :: rest)
  | _ => .ok (.input argument)

/-- An argument with a hyphen in front is no value, unless it is the hyphen alone. -/
def isValue (argument : Text) : Bool :=
  argument = ['-'] || argument.head? ≠ some '-'

def readFrom (o : Options) : List Text → Except Usage Options
  | [] => .ok o
  | argument :: rest =>
    match o.readArgument argument with
    | .error u => .error u
    | .ok (.input t) => { o with inputs := o.inputs ++ [t] }.readFrom rest
    | .ok .endOfOptions => .ok { o with inputs := o.inputs ++ rest }
    | .ok (.options o) => o.readFrom rest
    | .ok (.pending o name v) =>
      match rest with
      | [] => .error (.missingValue name)
      | value :: rest =>
        if isValue value then
          match o.setValue name v value with
          | .error u => .error u
          | .ok o => o.readFrom rest
        else .error (.missingValue name)

def ofArguments (arguments : List Text) : Except Usage Options :=
  ({} : Options).readFrom arguments

end Options

end DocComment
