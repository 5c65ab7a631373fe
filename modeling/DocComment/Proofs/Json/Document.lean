import DocComment.Proofs.Json.Pretty
import DocComment.Report.Format

/-!
Documents are read back from their JSON text. The text spells one value, in which no object names
two members alike, and a reader that looks members up by name finds in it the document that was
written. A source that is absent has no member in a function and is `null` in a document.
-/

namespace DocComment

namespace Json.Tree

/-- The value of the first member with the name. -/
def member? (name : Text) : Tree → Option Tree
  | object members => members.lookup name
  | _ => none

def text? : Tree → Option Text
  | text t => some t
  | _ => none

def items? : Tree → Option (List Tree)
  | array items => some items
  | _ => none

/-- Numbers with a sign, a point or an exponent are not natural. -/
def natural? : Tree → Option Nat
  | number t => if isInteger t then some (Nat.ofDigitChars 10 t 0) else none
  | _ => none

/-- A text or its absence. -/
def optional? : Option Tree → Option (Option Text)
  | none => some none
  | some v => v.text?.map some

/-- A text or `null`. -/
def nullable? : Tree → Option (Option Text)
  | null => some none
  | v => v.text?.map some

def textAt? (name : Text) (v : Tree) : Option Text :=
  (v.member? name).bind text?

/-- A value is within itself and within the containers around it. -/
inductive Within : Tree → Tree → Prop where
  | self {v : Tree} : Within v v
  | item {v w : Tree} {items : List Tree} : w ∈ items → Within v w → Within v (.array items)
  | member {v : Tree} {m : Text × Tree} {members : List (Text × Tree)} : m ∈ members →
      Within v m.2 → Within v (.object members)

/-- No object within the value has two members of one name. -/
def DistinctNames (v : Tree) : Prop :=
  ∀ members, Within (.object members) v → (members.map Prod.fst).Nodup

theorem distinctNames_null : DistinctNames .null := by
  intro members h
  cases h

theorem distinctNames_number (t : Text) : DistinctNames (.number t) := by
  intro members h
  cases h

theorem distinctNames_text (t : Text) : DistinctNames (.text t) := by
  intro members h
  cases h

theorem distinctNames_array {items : List Tree} (h : ∀ v ∈ items, v.DistinctNames) :
    DistinctNames (.array items) := by
  intro members hmembers
  cases hmembers with
  | item hw hmembers => exact h _ hw members hmembers

theorem distinctNames_object {members : List (Text × Tree)} (hnames : (members.map Prod.fst).Nodup)
    (h : ∀ m ∈ members, m.2.DistinctNames) : DistinctNames (.object members) := by
  intro members' hmembers
  cases hmembers with
  | self => exact hnames
  | member hm hmembers => exact h _ hm members' hmembers

theorem optional?_map_text (t : Option Text) : optional? (t.map text) = some t := by
  cases t <;> rfl

theorem nullable?_getD_null (t : Option Text) : nullable? ((t.map text).getD null) = some t := by
  cases t <;> rfl

theorem natural?_number_toDigits (n : Nat) : natural? (.number (Nat.toDigits 10 n)) = some n := by
  rw [natural?, if_pos (isInteger_toDigits n), Nat.ofDigitChars_ten_toDigits]

end Json.Tree

open Json (Tree)

namespace Entries

/-- The members one by one, each with the text of its value. -/
def ofTree? : Tree → Option Entries
  | .object members => (members.mapM fun m : Text × Tree => m.2.text?.map (m.1, ·)).map ofList
  | _ => none

theorem tree_toJson (e : Entries) :
    e.toJson.tree = .object (e.toList.map fun p => (p.1, .text p.2)) := by
  rw [toJson, Json.tree_object, List.map_map]
  rfl

theorem ofTree?_tree (e : Entries) : ofTree? e.toJson.tree = some e := by
  have hmembers : (e.toList.map fun p => (p.1, Tree.text p.2)).mapM
      (fun m : Text × Tree => m.2.text?.map (m.1, ·)) = some e.toList :=
    mapM_map_eq_some fun _ _ => rfl
  rw [tree_toJson, ofTree?, hmembers, Option.map_some, ofList_toList]

theorem distinctNames_tree (e : Entries) : e.toJson.tree.DistinctNames := by
  rw [tree_toJson]
  refine Tree.distinctNames_object ?_ ?_
  · rw [List.map_map]
    exact e.nodup_keys
  · intro m hm
    obtain ⟨p, -, rfl⟩ := List.mem_map.mp hm
    exact Tree.distinctNames_text p.2

end Entries

namespace DocumentedFunction

def ofTree? (v : Tree) : Option DocumentedFunction := do
  let name ← v.textAt? "name".toList
  let line ← (← v.member? "line".toList).natural?
  let source ← Tree.optional? (v.member? "source".toList)
  let summary ← v.textAt? "summary".toList
  let args ← Entries.ofTree? (← v.member? "args".toList)
  let returns ← v.textAt? "returns".toList
  let raises ← Entries.ofTree? (← v.member? "raises".toList)
  return { name, line, source, record := { summary, args, returns, raises } }

theorem tree_toJson (f : DocumentedFunction) :
    f.toJson.tree = .object (
      [("name".toList, .text f.name), ("line".toList, .number (Nat.toDigits 10 f.line))]
        ++ (f.source.map fun s => ("source".toList, Tree.text s)).toList
        ++ [("summary".toList, .text f.record.summary), ("args".toList, f.record.args.toJson.tree),
          ("returns".toList, .text f.record.returns),
          ("raises".toList, f.record.raises.toJson.tree)]) := by
  rw [toJson, Json.tree_object]
  cases f.source <;> rfl

theorem member?_source_tree (f : DocumentedFunction) :
    f.toJson.tree.member? "source".toList = f.source.map Tree.text := by
  rw [tree_toJson]
  cases f.source <;> rfl

theorem ofTree?_tree (f : DocumentedFunction) : ofTree? f.toJson.tree = some f := by
  have hname : f.toJson.tree.textAt? "name".toList = some f.name := by
    rw [tree_toJson]
    rfl
  have hline : f.toJson.tree.member? "line".toList = some (.number (Nat.toDigits 10 f.line)) := by
    rw [tree_toJson]
    rfl
  have hsummary : f.toJson.tree.textAt? "summary".toList = some f.record.summary := by
    rw [tree_toJson]
    cases f.source <;> rfl
  have hargs : f.toJson.tree.member? "args".toList = some f.record.args.toJson.tree := by
    rw [tree_toJson]
    cases f.source <;> rfl
  have hreturns : f.toJson.tree.textAt? "returns".toList = some f.record.returns := by
    rw [tree_toJson]
    cases f.source <;> rfl
  have hraises : f.toJson.tree.member? "raises".toList = some f.record.raises.toJson.tree := by
    rw [tree_toJson]
    cases f.source <;> rfl
  rw [ofTree?, hname, hline, hsummary, hargs, hreturns, hraises, member?_source_tree]
  simp only [Option.bind_eq_bind, Option.bind_some, Tree.natural?_number_toDigits,
    Tree.optional?_map_text, Entries.ofTree?_tree]
  rfl

theorem distinctNames_tree (f : DocumentedFunction) : f.toJson.tree.DistinctNames := by
  rw [tree_toJson]
  refine Tree.distinctNames_object ?_ ?_
  · cases f.source with
    | none =>
        have hnames : ["name".toList, "line".toList, "summary".toList, "args".toList,
          "returns".toList, "raises".toList].Nodup := by decide
        exact hnames
    | some s =>
        have hnames : ["name".toList, "line".toList, "source".toList, "summary".toList,
          "args".toList, "returns".toList, "raises".toList].Nodup := by decide
        exact hnames
  · intro m hm
    simp only [List.mem_append, List.mem_cons, List.not_mem_nil, or_false, Option.mem_toList,
      Option.map_eq_some_iff] at hm
    rcases hm with ((rfl | rfl) | ⟨s, -, rfl⟩) | rfl | rfl | rfl | rfl
    · exact Tree.distinctNames_text _
    · exact Tree.distinctNames_number _
    · exact Tree.distinctNames_text _
    · exact Tree.distinctNames_text _
    · exact Entries.distinctNames_tree _
    · exact Tree.distinctNames_text _
    · exact Entries.distinctNames_tree _

end DocumentedFunction

namespace Document

def ofTree? (v : Tree) : Option Document := do
  let source ← (← v.member? "source".toList).nullable?
  let items ← (← v.member? "functions".toList).items?
  return { source, functions := ← items.mapM DocumentedFunction.ofTree? }

theorem tree_toJson (d : Document) :
    d.toJson.tree = .object
      [("source".toList, (d.source.map Tree.text).getD .null),
        ("functions".toList, .array (d.functions.map fun f => f.toJson.tree))] := by
  rw [toJson, Json.tree_object, List.map_cons, List.map_cons, List.map_nil, Json.tree_array,
    List.map_map]
  cases d.source <;> rfl

theorem ofTree?_tree (d : Document) : ofTree? d.toJson.tree = some d := by
  have hfunctions : (d.functions.map fun f => f.toJson.tree).mapM DocumentedFunction.ofTree? =
      some d.functions := mapM_map_eq_some fun f _ => f.ofTree?_tree
  have hsource : d.toJson.tree.member? "source".toList =
      some ((d.source.map Tree.text).getD .null) := by
    rw [tree_toJson]
    rfl
  have hitems : d.toJson.tree.member? "functions".toList =
      some (.array (d.functions.map fun f => f.toJson.tree)) := by
    rw [tree_toJson]
    rfl
  rw [ofTree?, hsource, hitems]
  simp only [Option.bind_eq_bind, Option.bind_some, Tree.nullable?_getD_null, Tree.items?,
    hfunctions]
  rfl

theorem distinctNames_tree (d : Document) : d.toJson.tree.DistinctNames := by
  rw [tree_toJson]
  refine Tree.distinctNames_object ?_ ?_
  · have hnames : ["source".toList, "functions".toList].Nodup := by decide
    exact hnames
  · intro m hm
    rcases List.mem_pair.mp hm with rfl | rfl
    · cases d.source with
      | none => exact Tree.distinctNames_null
      | some s => exact Tree.distinctNames_text s
    · refine Tree.distinctNames_array ?_
      intro v hv
      obtain ⟨f, -, rfl⟩ := List.mem_map.mp hv
      exact f.distinctNames_tree

theorem toJson_inj {d e : Document} (h : d.toJson = e.toJson) : d = e := by
  have hread : some d = some e := by rw [← d.ofTree?_tree, h, e.ofTree?_tree]
  exact Option.some.inj hread

end Document

/-- The JSON text of a document is one value and a line feed. The value names no member twice and
is read as the document, whose functions have a member for their source just when they have one;
so no other document has this text. -/
theorem json_read_back (d : Document) :
    ∃ text tree, Format.json.render d = text ++ ['\n'] ∧ (∀ v, Json.Spells v text ↔ v = tree) ∧
      tree.DistinctNames ∧ Json.read? (Format.json.render d) = some tree ∧
      Document.ofTree? tree = some d ∧
      (∃ items, tree.member? "functions".toList = some (.array items) ∧
        List.Forall₂ (fun f v => v.member? "source".toList = f.source.map Tree.text)
          d.functions items) ∧
      ∀ e, Format.json.render e = Format.json.render d → e = d := by
  have hspells : Json.Spells d.toJson.tree (d.toJson.pretty 0) := Json.spells_pretty d.toJson 0
  refine ⟨d.toJson.pretty 0, d.toJson.tree, rfl, ?_, d.distinctNames_tree, ?_, d.ofTree?_tree,
    ⟨d.functions.map fun f => f.toJson.tree, ?_, ?_⟩, ?_⟩
  · intro v
    constructor
    · intro hv
      exact hv.unique hspells
    · rintro rfl
      exact hspells
  · have hfront : Json.IsGap [] := nofun
    have hback : Json.IsGap ['\n'] := by
      intro c hc
      rw [List.mem_singleton.mp hc]
      rfl
    exact Json.read?_of_spells hfront hspells hback
  · rw [Document.tree_toJson]
    rfl
  · rw [List.forall₂_map_right_iff, List.forall₂_same]
    intro f _
    exact f.member?_source_tree
  · intro e he
    exact Document.toJson_inj (Json.pretty_inj (List.append_cancel_right he))

end DocComment
