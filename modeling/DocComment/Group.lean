import DocComment.Source.Kind

/-!
Documents that share an output. `api.py` and `lib/api.rs` both go to the output `api`.
-/

namespace DocComment

/-- The name of the output for a source: what follows its last slash or backslash, without the
first supported extension that it ends with. -/
def outputName (source : Text) : Text :=
  let name := ((source.splitOnP fun c => c = '/' || c = '\\').getLast?).getD []
  let cut? (extension : Text) : Option Text :=
    if ('.' :: extension).isSuffixOf name then some (name.take (name.length - extension.length - 1))
    else none
  ((Kind.extensions.map Prod.fst).findSome? cut?).getD name

namespace Document

/-- The source as it is named where one is needed; `-` stands for none. -/
def sourceName (d : Document) : Text :=
  d.source.getD ['-']

def output (d : Document) : Text :=
  outputName d.sourceName

end Document

/-- An output and the document that goes there. -/
structure Group where
  name : Text
  document : Document
deriving DecidableEq

namespace Group

/-- The group with the functions of one more document. -/
def extend (g : Group) (d : Document) : Group :=
  { g with document := { g.document with functions := g.document.functions ++ d.functions } }

/-- Adds a document to the group of the name, or as a new last group. -/
def add (name : Text) (d : Document) : List Group → List Group
  | [] => [⟨name, d⟩]
  | g :: rest => if g.name = name then g.extend d :: rest else g :: add name d rest

/-- The groups of the documents, in the order in which their outputs first come. -/
def ofDocuments (ds : List Document) : List Group :=
  ds.foldl (fun groups d => add d.output d groups) []

/-- The documents whose output an earlier one has already, given the outputs seen so far. -/
def repeated (seen : List Text) : List Document → List Document
  | [] => []
  | d :: rest =>
    if d.output ∈ seen then d :: repeated seen rest else repeated (d.output :: seen) rest

end Group

end DocComment
