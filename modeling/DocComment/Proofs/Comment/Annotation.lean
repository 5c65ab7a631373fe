import DocComment.Proofs.Comment.Plain
import DocComment.Proofs.Comment.Written

/-!
Annotations between a name and its text. A line with one opens the entry of its name, whatever the
annotation holds. But the annotation reaches into the text behind it when a bracket closes right
before a colon there, and what it takes of the text is lost.
-/

namespace DocComment

/-- An indented line `name (type): text` that heads no section. The brackets of the type need not
match. -/
structure AnnotatedLine where
  indent : Text
  name : Text
  type : Text
  text : Text
  indent_blank : Text.isBlankLine indent = true
  indent_ne_nil : indent ≠ []
  isKey_name : KeyLine.IsKey name
  content : Section.ofHeader? (Text.trim (entryLine indent name (some type) text)) = none

def AnnotatedLine.line (a : AnnotatedLine) : Text :=
  entryLine a.indent a.name (some a.type) a.text

theorem AnnotatedLine.ofLine?_line (a : AnnotatedLine) :
    KeyLine.ofLine? a.line = some ⟨a.name, Text.trim (KeyLine.keptText a.text)⟩ :=
  ofLine?_entryLine a.indent_blank a.isKey_name.ne_nil a.isKey_name.isKeyChar_of_mem (some a.type)
    a.text

/-- What an annotation takes of the text behind it holds a colon, so trimming does not hide it. -/
theorem KeyLine.trim_keptText_eq_iff (d : Text) :
    Text.trim (keptText d) = Text.trim d ↔ ¬ [')', ':'] <:+: d := by
  constructor
  · intro hsame hin
    cases hafter : Text.afterLast? [')', ':'] d with
    | none => exact Text.afterLast?_eq_none_iff.mp hafter hin
    | some u =>
        obtain ⟨front, hd⟩ := Text.afterLast?_eq_append hafter
        have hkept : keptText d = u := by simp only [keptText, hafter, Option.getD_some]
        have hcolons : u.count ':' = d.count ':' := by
          have h := congrArg (List.count ':') hsame
          rwa [hkept, Text.count_trim rfl, Text.count_trim rfl] at h
        have hmore : d.count ':' = front.count ':' + 1 + u.count ':' := by
          rw [hd, List.count_append, List.count_append]
          rfl
        omega
  · intro hd
    rw [keptText_eq_self hd]

/-- In a section of entries the line opens the entry of its name. The text is kept whole if and
only if no bracket closes right before a colon in it. -/
theorem step_annotatedLine (a : AnnotatedLine) {s : State} (hs : s.current.HasEntries) :
    s.step a.line =
        { s.flush with
          key := some a.name
          pending := [Text.trim (KeyLine.keptText a.text)] } ∧
      (Text.trim (KeyLine.keptText a.text) = Text.trim a.text ↔
        ¬ [')', ':'] <:+: a.text) := by
  have htext : Text.isBlankLine a.line = false :=
    isBlankLine_entryLine a.isKey_name.ne_nil a.isKey_name.isKeyChar_of_mem (some a.type) a.text
  have hindented : Text.isIndented a.line = true :=
    isIndented_entryLine a.indent_blank a.indent_ne_nil a.name (some a.type) a.text
  constructor
  · exact State.step_of_entry htext a.content hs (.inl hindented) a.ofLine?_line
  · exact KeyLine.trim_keptText_eq_iff a.text

theorem step_annotatedLine_nested :
    ∃ a : AnnotatedLine, a.line = "    x (Callable[(int), k:v]): a (b) : c".toList ∧
      State.step { record := {}, current := .args } a.line =
        { record := {}, current := .args, key := some "x".toList,
          pending := ["a (b) : c".toList] } := by
  have hcontent : Section.ofHeader? (Text.trim (entryLine "    ".toList "x".toList
      (some "Callable[(int), k:v]".toList) " a (b) : c".toList)) = none := by decide +kernel
  have hline : entryLine "    ".toList "x".toList (some "Callable[(int), k:v]".toList)
      " a (b) : c".toList = "    x (Callable[(int), k:v]): a (b) : c".toList := by decide +kernel
  have hwhole : ¬ [')', ':'] <:+: " a (b) : c".toList := by decide +kernel
  have htrim : Text.trim " a (b) : c".toList = "a (b) : c".toList := by decide +kernel
  let a : AnnotatedLine := ⟨"    ".toList, "x".toList, "Callable[(int), k:v]".toList,
    " a (b) : c".toList, by decide, by decide, ⟨by decide, List.all_eq_true.mp (by decide)⟩,
    hcontent⟩
  have hargs : Section.HasEntries (State.current { record := {}, current := .args }) := .inl rfl
  obtain ⟨hstep, hkept⟩ := step_annotatedLine a hargs
  have hpending : Text.trim (KeyLine.keptText a.text) = "a (b) : c".toList :=
    (hkept.mpr hwhole).trans htrim
  rw [hpending] at hstep
  exact ⟨a, hline, hstep⟩

theorem ofText_annotated_ne_trim :
    (Record.ofText "S.\nArgs:\n    x (int): see (note): more".toList).args.get? "x".toList =
        some "more".toList ∧
      Text.trim "see (note): more".toList ≠ "more".toList := by
  decide +kernel

end DocComment
