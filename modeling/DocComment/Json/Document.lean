import DocComment.Json.Value
import DocComment.Record

/-!
Documents as JSON.
-/

namespace DocComment

/-- An object with one member for each name. -/
def Entries.toJson (e : Entries) : Json :=
  .object (e.toList.map fun p => (p.1, .text p.2))

/-- A source that is absent has no member. -/
def DocumentedFunction.toJson (f : DocumentedFunction) : Json :=
  .object <|
    [("name".toList, .text f.name), ("line".toList, .number f.line)]
    ++ (f.source.map fun s => ("source".toList, Json.text s)).toList
    ++ [("summary".toList, .text f.record.summary), ("args".toList, f.record.args.toJson),
      ("returns".toList, .text f.record.returns), ("raises".toList, f.record.raises.toJson)]

/-- Here an absent source is `null`. -/
def Document.toJson (d : Document) : Json :=
  .object
    [("source".toList, (d.source.map Json.text).getD .null),
      ("functions".toList, .array (d.functions.map DocumentedFunction.toJson))]

end DocComment
