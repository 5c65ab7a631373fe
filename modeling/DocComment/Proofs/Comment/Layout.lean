import DocComment.Proofs.Comment.Rows
import DocComment.Proofs.Comment.Step
import Mathlib.Data.List.Forall2

/-!
Layout counts only as far as a line is indented or not. Two comments whose lines that are not
blank agree in this, in their text and in the sections they head have one record. Blank lines,
white space behind a line, carriage returns, the depth of an indentation and the spelling of a
header are thus free.
-/

namespace DocComment

/-- Lines that differ in layout only: headers of one section, or lines with one text that are
both indented or both not. -/
inductive SameLine (l m : Text) : Prop where
  | header {next : Section} : Section.ofHeader? (Text.trim l) = some next →
      Section.ofHeader? (Text.trim m) = some next → SameLine l m
  | content : Text.trim l = Text.trim m → Text.isIndented l = Text.isIndented m → SameLine l m

/-- Comments that differ in layout only. Of the first line nothing but the text counts. -/
structure SameLayout (t u : Text) : Prop where
  first : (commentLines t).head?.map Text.trim = (commentLines u).head?.map Text.trim
  rest : List.Forall₂ SameLine ((commentLines t).tail.filter (!Text.isBlankLine ·))
    ((commentLines u).tail.filter (!Text.isBlankLine ·))

/-- A change of the layout of a text, given by its pieces between line feeds. -/
inductive Relayout : List Text → List Text → Prop where
  | blank (front back : List Text) {b : Text} : Text.isBlankLine b = true →
      Relayout (front ++ back) (front ++ b :: back)
  /-- A carriage return before the line feed is white space, too. -/
  | trailing (front back : List Text) (l : Text) {w : Text} : Text.isBlankLine w = true →
      Relayout (front ++ l :: back) (front ++ (l ++ w) :: back)
  | indentation (front back : List Text) (l : Text) {v w : Text} :
      Text.isBlankLine v = true → v ≠ [] → Text.isBlankLine w = true → w ≠ [] →
      Relayout (front ++ (v ++ l) :: back) (front ++ (w ++ l) :: back)
  /-- The first line that is not blank heads nothing. -/
  | header (front back : List Text) {first l m : Text} {next : Section} : first ∈ front →
      Text.isBlankLine first = false → Section.ofHeader? (Text.trim l) = some next →
      Section.ofHeader? (Text.trim m) = some next →
      Relayout (front ++ l :: back) (front ++ m :: back)

theorem SameLine.step_eq {l m : Text} (h : SameLine l m) (s : State) : s.step l = s.step m := by
  cases h with
  | header hl hm => rw [State.step_of_header hl, State.step_of_header hm]
  | content ht hi => rw [State.step, s.role_congr ht hi, State.step]

/-- The two readers stay in the same state. -/
theorem foldl_step_eq_of_sameLine {ls ms : List Text} (h : List.Forall₂ SameLine ls ms)
    (s : State) : ls.foldl State.step s = ms.foldl State.step s := by
  induction h generalizing s with
  | nil => rfl
  | cons hline _ ih => rw [List.foldl_cons, List.foldl_cons, hline.step_eq, ih]

theorem SameLayout.ofText_eq {t u : Text} (h : SameLayout t u) :
    Record.ofText t = Record.ofText u := by
  obtain ⟨hfirst, hrest⟩ := h
  rw [Record.ofText_eq_ofLines, Record.ofText_eq_ofLines]
  cases ht : commentLines t with
  | nil =>
      cases hu : commentLines u with
      | nil => rfl
      | cons m ms =>
          rw [ht, hu] at hfirst
          cases hfirst
  | cons l ls =>
      cases hu : commentLines u with
      | nil =>
          rw [ht, hu] at hfirst
          cases hfirst
      | cons m ms =>
          rw [ht, hu] at hfirst hrest
          have hsummary : Text.trim l = Text.trim m := Option.some.inj hfirst
          have hrun := foldl_step_eq_of_sameLine hrest (State.ofSummary (Text.trim m))
          simp only [List.tail_cons, State.foldl_step_filter] at hrun
          rw [Record.ofLines, Record.ofLines, hsummary, hrun]

/-- Exchanging the rows behind the first for others that act alike changes nothing. -/
theorem Record.ofRows_append_cons {front back : List Row} (hfront : front ≠ []) {q r : Row}
    (hqr : ∀ s : State, s.readRow q = s.readRow r) :
    ofRows (front ++ q :: back) = ofRows (front ++ r :: back) := by
  obtain ⟨first, rest, rfl⟩ := List.exists_cons_of_ne_nil hfront
  simp only [List.cons_append, ofRows, List.foldl_append, List.foldl_cons, hqr]

theorem Relayout.ofRows_eq {ls ms : List Text} (h : Relayout ls ms) :
    Record.ofRows (ls.filterMap Row.ofLine?) = Record.ofRows (ms.filterMap Row.ofLine?) := by
  cases h with
  | blank front back hb =>
      rw [List.filterMap_append, List.filterMap_append,
        List.filterMap_cons_none (Row.ofLine?_of_isBlankLine hb)]
  | trailing front back l hw =>
      simp only [List.filterMap_append, List.filterMap_cons, Row.ofLine?_append_blank hw]
  | indentation front back l hv hv' hw hw' =>
      simp only [List.filterMap_append, List.filterMap_cons, Row.ofLine?_blank_append hv hv',
        Row.ofLine?_blank_append hw hw']
  | @header front back first l m next hmem hfirst hl hm =>
      have hfront : front.filterMap Row.ofLine? ≠ [] :=
        List.ne_nil_of_mem (List.mem_filterMap.mpr ⟨first, hmem, Row.ofLine?_eq_some hfirst⟩)
      have hlrow := Row.ofLine?_eq_some (Section.isBlankLine_of_header hl)
      have hmrow := Row.ofLine?_eq_some (Section.isBlankLine_of_header hm)
      rw [List.filterMap_append, List.filterMap_append, List.filterMap_cons_some hlrow,
        List.filterMap_cons_some hmrow]
      apply Record.ofRows_append_cons hfront
      intro s
      rw [← s.step_eq_readRow hlrow, ← s.step_eq_readRow hmrow, (SameLine.header hl hm).step_eq]

/-- A record depends on the layout of its comment only through which lines are indented. -/
theorem ofText_eq_of_sameLayout :
    (∀ t u, SameLayout t u → Record.ofText t = Record.ofText u) ∧
      ∀ t u : Text, Relayout (t.splitOn '\n') (u.splitOn '\n') →
        Record.ofText t = Record.ofText u := by
  constructor
  · intro t u h
    exact h.ofText_eq
  · intro t u h
    rw [Record.ofText_eq_ofRows, Record.ofText_eq_ofRows]
    exact h.ofRows_eq

theorem ofText_eq_of_sameLayout_respelled :
    (SameLayout "S.\nArgs:\n  x: a\n  b".toList "\n S.\r\nPARAMETERS:\r\n\r\n\tx: a \n\tb".toList ∧
      Record.ofText "S.\nArgs:\n  x: a\n  b".toList =
        Record.ofText "\n S.\r\nPARAMETERS:\r\n\r\n\tx: a \n\tb".toList) ∧
      Relayout ("S.\nRaises:\n E: e".toList.splitOn '\n')
          ("S.\nerrors: these\n E: e".toList.splitOn '\n') ∧
        Record.ofText "S.\nRaises:\n E: e".toList =
          Record.ofText "S.\nerrors: these\n E: e".toList := by
  have hleft : (commentLines "S.\nArgs:\n  x: a\n  b".toList).tail.filter (!Text.isBlankLine ·) =
      ["Args:".toList, "  x: a".toList, "  b".toList] := by decide +kernel
  have hright : (commentLines "\n S.\r\nPARAMETERS:\r\n\r\n\tx: a \n\tb".toList).tail.filter
      (!Text.isBlankLine ·) = ["PARAMETERS:".toList, "\tx: a ".toList, "\tb".toList] := by
    decide +kernel
  have hone : Section.ofHeader? (Text.trim "Args:".toList) = some .args := by decide +kernel
  have htwo : Section.ofHeader? (Text.trim "PARAMETERS:".toList) = some .args := by decide +kernel
  have hentry : SameLine "  x: a".toList "\tx: a ".toList := .content (by decide) (by decide)
  have hmore : SameLine "  b".toList "\tb".toList := .content (by decide) (by decide)
  have hsame : SameLayout "S.\nArgs:\n  x: a\n  b".toList
      "\n S.\r\nPARAMETERS:\r\n\r\n\tx: a \n\tb".toList := by
    refine ⟨by decide +kernel, ?_⟩
    rw [hleft, hright]
    exact .cons (.header hone htwo) (.cons hentry (.cons hmore .nil))
  have hthree : Section.ofHeader? (Text.trim "Raises:".toList) = some .raises := by decide +kernel
  have hfour : Section.ofHeader? (Text.trim "errors: these".toList) = some .raises := by
    decide +kernel
  have hrelayout : Relayout ("S.\nRaises:\n E: e".toList.splitOn '\n')
      ("S.\nerrors: these\n E: e".toList.splitOn '\n') :=
    .header ["S.".toList] [" E: e".toList] (List.mem_singleton_self _) (by decide) hthree hfour
  exact ⟨⟨hsame, ofText_eq_of_sameLayout.1 _ _ hsame⟩, hrelayout,
    ofText_eq_of_sameLayout.2 _ _ hrelayout⟩

end DocComment
