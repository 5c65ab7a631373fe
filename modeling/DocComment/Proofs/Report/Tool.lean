import DocComment.Proofs.Comment.Plain
import DocComment.Proofs.Json.Pretty
import DocComment.Report.Format

/-!
Tool descriptors keep what they carry. A description holds two texts, of which the first ends at
the first line feed, since a summary has none and only an empty comment has no summary. Two reports
agree just when their functions do, in order, in names, summaries, returns texts and parameters.
-/

namespace DocComment

namespace Tool

variable {r r' : Record} {f g : DocumentedFunction}

/-- What a description says behind the summary. -/
def returnsNote (returns : Text) : Text :=
  if returns.isEmpty then [] else "\n\nReturns: ".toList ++ returns

theorem description_eq (hr : r.IsRead) : description r = r.summary ++ returnsNote r.returns := by
  cases hs : r.summary with
  | nil =>
      rw [hr.eq_empty hs]
      rfl
  | cons c s =>
      rw [description, returnsNote, hs]
      cases r.returns <;> simp

/-- One line feed behind the note makes it start with one, even if it is empty. -/
theorem returnsNote_append (returns : Text) :
    returnsNote returns ++ ['\n'] =
      '\n' :: if returns.isEmpty then [] else "\nReturns: ".toList ++ returns ++ ['\n'] := by
  cases returns <;> rfl

theorem description_inj (hr : r.IsRead) (hr' : r'.IsRead) (h : description r = description r') :
    r.summary = r'.summary ∧ r.returns = r'.returns := by
  have hlines : r.summary ++ (returnsNote r.returns ++ ['\n']) =
      r'.summary ++ (returnsNote r'.returns ++ ['\n']) := by
    rw [← List.append_assoc, ← List.append_assoc, ← description_eq hr, ← description_eq hr', h]
  rw [returnsNote_append, returnsNote_append] at hlines
  obtain ⟨hsummary, hnote⟩ := append_cons_inj hr.plain.summary.newline_not_mem
    hr'.plain.summary.newline_not_mem hlines
  refine ⟨hsummary, ?_⟩
  cases ht : r.returns <;> cases hu : r'.returns <;> simp_all

theorem properties_inj {e e' : Entries} (h : properties e = properties e') : e = e' := by
  rw [properties, properties, Json.object.injEq] at h
  refine Entries.eq_of_toList_eq (eq_of_map_eq ?_ h)
  intro p _ q _ hpq
  simp only [Prod.mk.injEq, Json.object.injEq, List.cons.injEq, Json.text.injEq, true_and,
    and_true] at hpq
  exact Prod.ext hpq.1 hpq.2

theorem descriptor_eq_iff :
    descriptor f = descriptor g ↔ f.name = g.name ∧
      description f.record = description g.record ∧ f.record.args = g.record.args := by
  constructor
  · intro h
    simp only [descriptor, Json.object.injEq, List.cons.injEq, Prod.mk.injEq, Json.text.injEq,
      true_and, and_true] at h
    obtain ⟨hname, hdescription, hproperties⟩ := h
    exact ⟨hname, hdescription, properties_inj hproperties⟩
  · rintro ⟨hname, hdescription, hargs⟩
    rw [descriptor, hname, hdescription, hargs]
    rfl

end Tool

/-- Two documents have one tool text just when their functions agree one by one in what is carried
of them: lines, sources and errors are not. The description alone gives both of its texts. -/
theorem tool_eq_iff {d e : Document} (hd : ∀ f ∈ d.functions, f.IsCommented)
    (he : ∀ g ∈ e.functions, g.IsCommented) :
    (Format.tool.render d = Format.tool.render e ↔
      List.Forall₂ (fun f g => f.name = g.name ∧ f.record.summary = g.record.summary ∧
        f.record.returns = g.record.returns ∧ f.record.args = g.record.args)
        d.functions e.functions) ∧
    ∀ f ∈ d.functions, ∀ g ∈ e.functions,
      Tool.description f.record = Tool.description g.record →
        f.record.summary = g.record.summary ∧ f.record.returns = g.record.returns := by
  have hdescription : ∀ f ∈ d.functions, ∀ g ∈ e.functions,
      Tool.description f.record = Tool.description g.record →
        f.record.summary = g.record.summary ∧ f.record.returns = g.record.returns :=
    fun f hf g hg h => Tool.description_inj (hd f hf).isRead (he g hg).isRead h
  refine ⟨⟨?_, ?_⟩, hdescription⟩
  · intro h
    have hdescriptors := Json.pretty_inj (List.append_cancel_right h)
    rw [Tool.descriptors, Tool.descriptors, Json.array.injEq] at hdescriptors
    refine forall₂_of_map_eq ?_ hdescriptors
    intro f hf g hg hfg
    obtain ⟨hname, hdesc, hargs⟩ := Tool.descriptor_eq_iff.mp hfg
    obtain ⟨hsummary, hreturns⟩ := hdescription f hf g hg hdesc
    exact ⟨hname, hsummary, hreturns, hargs⟩
  · intro h
    have hdescriptors : d.functions.map Tool.descriptor = e.functions.map Tool.descriptor := by
      rw [← List.forall₂_eq_eq_eq, List.forall₂_map_left_iff, List.forall₂_map_right_iff]
      refine h.imp ?_
      rintro f g ⟨hname, hsummary, hreturns, hargs⟩
      refine Tool.descriptor_eq_iff.mpr ⟨hname, ?_, hargs⟩
      rw [Tool.description, hsummary, hreturns]
      rfl
    have htools : Tool.descriptors d = Tool.descriptors e := congrArg Json.array hdescriptors
    rw [Format.render, Format.render, htools]

theorem tool_eq_iff_errors :
    ∃ d e : Document, d ≠ e ∧ (∀ f ∈ d.functions, f.IsCommented) ∧
      (∀ g ∈ e.functions, g.IsCommented) ∧ Format.tool.render d = Format.tool.render e ∧
      d.functions.map (·.record) = [{ summary := "Returns: x".toList },
        ⟨"Get.".toList, ∅, "x".toList, Entries.ofList [("E".toList, "y".toList)]⟩] := by
  let note := "Returns: x".toList
  let failing := "Get.\nReturns:\n  x\nRaises:\n  E: y".toList
  let yielding := "Get.\nYields:\n  x".toList
  let r := Record.ofComment (some note)
  let s := Record.ofComment (some failing)
  let t := Record.ofComment (some yielding)
  let d : Document := ⟨none, [⟨"f".toList, 1, none, r⟩, ⟨"g".toList, 2, none, s⟩]⟩
  let e : Document := ⟨some "a.py".toList, [⟨"f".toList, 3, none, r⟩, ⟨"g".toList, 5, none, t⟩]⟩
  have hd : ∀ f ∈ d.functions, f.IsCommented := by
    intro f hf
    rcases List.mem_pair.mp hf with rfl | rfl
    · exact ⟨some note, rfl⟩
    · exact ⟨some failing, rfl⟩
  have he : ∀ g ∈ e.functions, g.IsCommented := by
    intro g hg
    rcases List.mem_pair.mp hg with rfl | rfl
    · exact ⟨some note, rfl⟩
    · exact ⟨some yielding, rfl⟩
  have hr : r = { summary := "Returns: x".toList } := by decide +kernel
  have hs : s = ⟨"Get.".toList, ∅, "x".toList, Entries.ofList [("E".toList, "y".toList)]⟩ := by
    decide +kernel
  have ht : t = ⟨"Get.".toList, ∅, "x".toList, ∅⟩ := by decide +kernel
  have hst : s.summary = t.summary ∧ s.returns = t.returns ∧ s.args = t.args := by
    rw [hs, ht]
    exact ⟨rfl, rfl, rfl⟩
  refine ⟨d, e, by decide, hd, he, ?_, ?_⟩
  · exact (tool_eq_iff hd he).1.mpr (.cons ⟨rfl, rfl, rfl, rfl⟩ (.cons ⟨rfl, hst⟩ .nil))
  · exact congrArg₂ (fun r s => [r, s]) hr hs

end DocComment
