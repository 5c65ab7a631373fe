import DocComment.Json.Value
import DocComment.Record

/-!
Documents as tool descriptors: each function is a tool, and its parameters are the properties of
the tool's input.
-/

namespace DocComment.Tool

/-- The summary and the returns text in one. -/
def description (r : Record) : Text :=
  if r.returns.isEmpty then r.summary
  else if r.summary.isEmpty then "Returns: ".toList ++ r.returns
  else r.summary ++ "\n\nReturns: ".toList ++ r.returns

def properties (e : Entries) : Json :=
  .object (e.toList.map fun p => (p.1, .object [("description".toList, .text p.2)]))

def descriptor (f : DocumentedFunction) : Json :=
  .object
    [("name".toList, .text f.name),
      ("description".toList, .text (description f.record)),
      ("inputSchema".toList, .object
        [("type".toList, .text "object".toList),
          ("properties".toList, properties f.record.args)])]

def descriptors (d : Document) : Json :=
  .array (d.functions.map descriptor)

end DocComment.Tool
