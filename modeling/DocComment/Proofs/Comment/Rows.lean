import DocComment.Comment.Read
import DocComment.Proofs.Comment.KeyLine
import DocComment.Proofs.Text.Lines

/-!
Reading a comment by rows. A row is all that the reader sees of a line: whether it is indented,
and its text without the white space around it. A comment is read off the rows of its text, cut
at line feeds alone. Blank lines, carriage returns and the white space around the whole text play
no part.
-/

namespace DocComment

structure Row where
  indented : Bool
  text : Text
deriving DecidableEq, Repr

namespace Row

/-- What is seen of a line; nothing of a blank one. -/
def ofLine? (line : Text) : Option Row :=
  if Text.isBlankLine line then none else some ⟨Text.isIndented line, Text.trim line⟩

/-- The plainest line that is seen as the row. -/
def line (r : Row) : Text :=
  if r.indented then ' ' :: r.text else r.text

theorem ofLine?_of_isBlankLine {l : Text} (hl : Text.isBlankLine l = true) : ofLine? l = none :=
  if_pos hl

theorem ofLine?_eq_some {l : Text} (hl : Text.isBlankLine l = false) :
    ofLine? l = some ⟨Text.isIndented l, Text.trim l⟩ := by
  rw [ofLine?, hl]
  rfl

theorem ofLine?_append_blank {w : Text} (hw : Text.isBlankLine w = true) (l : Text) :
    ofLine? (l ++ w) = ofLine? l := by
  cases hl : Text.isBlankLine l with
  | true =>
      have hlw : Text.isBlankLine (l ++ w) = true := by rw [Text.isBlankLine_append, hl, hw]; rfl
      rw [ofLine?_of_isBlankLine hlw, ofLine?_of_isBlankLine hl]
  | false =>
      have hlw : Text.isBlankLine (l ++ w) = false := by rw [Text.isBlankLine_append, hl]; rfl
      have hne : l ≠ [] := by
        rintro rfl
        cases hl
      rw [ofLine?_eq_some hlw, ofLine?_eq_some hl, Text.isIndented_append hne,
        Text.trim_append_blank l hw]

@[simp] theorem ofLine?_chomp (l : Text) : ofLine? (Text.chomp l) = ofLine? l := by
  obtain ⟨w, hw, hl⟩ := Text.exists_eq_chomp_append l
  have h : ofLine? (Text.chomp l ++ w) = ofLine? (Text.chomp l) := ofLine?_append_blank hw _
  rw [← h, ← hl]

@[simp] theorem ofLine?_trimEnd (l : Text) : ofLine? (Text.trimEnd l) = ofLine? l := by
  obtain ⟨w, hw, hl⟩ := Text.exists_eq_trimEnd_append l
  have h : ofLine? (Text.trimEnd l ++ w) = ofLine? (Text.trimEnd l) := ofLine?_append_blank hw _
  rw [← h, ← hl]

/-- White space in front changes the row at most to an indented one. -/
theorem ofLine?_blank_append {w : Text} (hw : Text.isBlankLine w = true) (hne : w ≠ [])
    (l : Text) : ofLine? (w ++ l) = (ofLine? l).map fun r => ⟨true, r.text⟩ := by
  cases hl : Text.isBlankLine l with
  | true =>
      have hwl : Text.isBlankLine (w ++ l) = true := by rw [Text.isBlankLine_append, hl, hw]; rfl
      rw [ofLine?_of_isBlankLine hwl, ofLine?_of_isBlankLine hl]
      rfl
  | false =>
      have hwl : Text.isBlankLine (w ++ l) = false := by rw [Text.isBlankLine_append, hl, hw]; rfl
      rw [ofLine?_eq_some hwl, ofLine?_eq_some hl, Text.trim_blank_append hw,
        Text.isIndented_append hne, Text.isIndented_of_isBlankLine hw hne]
      rfl

end Row

namespace State

/-- The role of a line is a matter of its row. -/
theorem role_congr (s : State) {l m : Text} (ht : Text.trim l = Text.trim m)
    (hi : Text.isIndented l = Text.isIndented m) : s.role l = s.role m := by
  have hkey : KeyLine.ofLine? l = KeyLine.ofLine? m := by
    rw [← KeyLine.ofLine?_trim l, ht, KeyLine.ofLine?_trim]
  simp only [role, ht, hi, hkey]

theorem step_of_isBlankLine (s : State) {l : Text} (hl : Text.isBlankLine l = true) :
    s.step l = s := by
  have hrole : s.role l = .blank := by rw [role, Text.isEmpty_trim, hl]; rfl
  rw [step, hrole]
  rfl

def readRow (s : State) (r : Row) : State :=
  s.step r.line

theorem step_eq_readRow (s : State) {l : Text} {r : Row} (h : Row.ofLine? l = some r) :
    s.step l = s.readRow r := by
  cases hl : Text.isBlankLine l with
  | true =>
      rw [Row.ofLine?_of_isBlankLine hl] at h
      cases h
  | false =>
      rw [Row.ofLine?_eq_some hl] at h
      cases h
      have hrole : s.role l = s.role (Row.line ⟨Text.isIndented l, Text.trim l⟩) := by
        cases hi : Text.isIndented l with
        | true =>
            have ht : Text.trim (' ' :: Text.trim l) = Text.trim l := by
              rw [← List.singleton_append, Text.trim_blank_append (by decide), Text.trim_trim]
            exact s.role_congr ht.symm hi
        | false =>
            exact s.role_congr (Text.trim_trim l).symm (hi.trans (Text.isIndented_trim l).symm)
      rw [readRow, step, step, hrole]

theorem foldl_step (lines : List Text) (s : State) :
    lines.foldl step s = (lines.filterMap Row.ofLine?).foldl readRow s := by
  induction lines generalizing s with
  | nil => rfl
  | cons l lines ih =>
      rw [List.foldl_cons, ih]
      cases hl : Text.isBlankLine l with
      | true =>
          rw [s.step_of_isBlankLine hl, List.filterMap_cons_none (Row.ofLine?_of_isBlankLine hl)]
      | false =>
          have hrow := Row.ofLine?_eq_some hl
          rw [s.step_eq_readRow hrow, List.filterMap_cons_some hrow, List.foldl_cons]

end State

theorem commentLines_of_isBlankLine {t : Text} (ht : Text.isBlankLine t = true) :
    commentLines t = [] := by
  rw [commentLines, Text.trim_eq_nil_iff.mpr ht]
  rfl

/-- A trimmed text starts with a line that is not blank. -/
theorem exists_commentLines_eq_cons {t : Text} (ht : Text.isBlankLine t = false) :
    ∃ first rest, commentLines t = first :: rest ∧ Text.isBlankLine first = false := by
  apply Text.lines_of_not_isIndented (Text.isIndented_trim t)
  intro hnil
  rw [Text.trim_eq_nil_iff, ht] at hnil
  cases hnil

theorem isBlankLine_of_commentLines_eq_cons {t first : Text} {rest : List Text}
    (h : commentLines t = first :: rest) : Text.isBlankLine first = false := by
  cases ht : Text.isBlankLine t with
  | true =>
      rw [commentLines_of_isBlankLine ht] at h
      cases h
  | false =>
      obtain ⟨l, ls, hlines, hl⟩ := exists_commentLines_eq_cons ht
      rw [hlines] at h
      cases h
      exact hl

/-- The rows of a text, which is cut at its line feeds. -/
def rows (text : Text) : List Row :=
  (text.splitOn '\n').filterMap Row.ofLine?

theorem rows_append_newline (t u : Text) : rows (t ++ '\n' :: u) = rows t ++ rows u := by
  rw [rows, List.splitOn_append_cons_self, List.filterMap_append, rows, rows]

theorem rows_append_blank {w : Text} (hw : Text.isBlankLine w = true) (t : Text) :
    rows (t ++ w) = rows t := by
  induction w generalizing t with
  | nil => rw [List.append_nil]
  | cons c w ih =>
      obtain ⟨hblank, hw'⟩ := Text.isBlankLine_cons_iff.mp hw
      have hc : Text.isBlankLine [c] = true := Text.isBlankLine_cons_iff.mpr ⟨hblank, rfl⟩
      rw [List.append_cons, ih hw']
      by_cases hnl : c = '\n'
      · subst hnl
        rw [rows_append_newline]
        exact List.append_nil _
      · have hmem : '\n' ∉ [c] := fun h => hnl (List.mem_singleton.mp h).symm
        obtain ⟨front, last, ht, htc⟩ := Text.exists_splitOn_append hmem t
        rw [rows, rows, ht, htc, List.filterMap_append, List.filterMap_append,
          List.filterMap_cons, List.filterMap_cons, Row.ofLine?_append_blank hc]

theorem filterMap_ofLine?_lines (t : Text) : (Text.lines t).filterMap Row.ofLine? = rows t := by
  have hpieces (ps : List Text) :
      (Text.linesOfPieces ps).filterMap Row.ofLine? = ps.filterMap Row.ofLine? := by
    induction ps with
    | nil => rfl
    | cons p ps ih =>
        cases ps with
        | nil => cases p <;> rfl
        | cons q qs =>
            rw [Text.linesOfPieces, List.filterMap_cons, Row.ofLine?_chomp, ih,
              ← List.filterMap_cons]
            exact List.cons_ne_nil q qs
  exact hpieces _

theorem filterMap_ofLine?_filter (lines : List Text) :
    (lines.filter (!Text.isBlankLine ·)).filterMap Row.ofLine? = lines.filterMap Row.ofLine? := by
  rw [List.filterMap_filter]
  congr 1
  funext l
  cases hl : Text.isBlankLine l with
  | true => exact (Row.ofLine?_of_isBlankLine hl).symm
  | false => rfl

theorem State.foldl_step_filter (lines : List Text) (s : State) :
    (lines.filter (!Text.isBlankLine ·)).foldl step s = lines.foldl step s := by
  rw [foldl_step, filterMap_ofLine?_filter, ← foldl_step]

/-- The rows of lines written under one another. -/
theorem rows_intercalate {lines : List Text} (hlines : ∀ l ∈ lines, '\n' ∉ l) :
    rows (['\n'].intercalate lines) = lines.filterMap Row.ofLine? := by
  cases lines with
  | nil => rfl
  | cons l lines => rw [rows, List.splitOn_intercalate '\n' hlines (List.cons_ne_nil l lines)]

namespace Record

/-- The record of a comment with these rows. Of the first, only the text counts. -/
def ofRows : List Row → Record
  | [] => {}
  | first :: rest => (rest.foldl State.readRow (State.ofSummary first.text)).finish

/-- The record of a comment with these lines. -/
def ofLines : List Text → Record
  | [] => {}
  | first :: rest => (rest.foldl State.step (State.ofSummary (Text.trim first))).finish

theorem ofLines_cons {first : Text} (hfirst : Text.isBlankLine first = false) (rest : List Text) :
    ofLines (first :: rest) = ofRows ((first :: rest).filterMap Row.ofLine?) := by
  rw [List.filterMap_cons_some (Row.ofLine?_eq_some hfirst), ofLines, ofRows, State.foldl_step]

theorem ofRows_rows_cons {c : Char} (hc : Text.isBlank c = true) (t : Text) :
    ofRows (rows (c :: t)) = ofRows (rows t) := by
  by_cases hnl : c = '\n'
  · subst hnl
    have h : rows ([] ++ '\n' :: t) = rows [] ++ rows t := rows_append_newline [] t
    exact congrArg ofRows h
  · have hmem : '\n' ∉ [c] := fun h => hnl (List.mem_singleton.mp h).symm
    have hblank : Text.isBlankLine [c] = true := Text.isBlankLine_cons_iff.mpr ⟨hc, rfl⟩
    obtain ⟨p, ps, ht⟩ := List.exists_cons_of_ne_nil (List.splitOn_ne_nil '\n' t)
    have hct := Text.splitOn_append_left hmem t
    rw [ht, List.modifyHead_cons] at hct
    rw [rows, rows, ← List.singleton_append, hct, ht, List.filterMap_cons, List.filterMap_cons,
      Row.ofLine?_blank_append hblank (List.cons_ne_nil c [])]
    cases Row.ofLine? p <;> rfl

theorem ofRows_rows_blank_append {w : Text} (hw : Text.isBlankLine w = true) (t : Text) :
    ofRows (rows (w ++ t)) = ofRows (rows t) := by
  induction w with
  | nil => rfl
  | cons c w ih =>
      obtain ⟨hc, hw'⟩ := Text.isBlankLine_cons_iff.mp hw
      rw [List.cons_append, ofRows_rows_cons hc, ih hw']

theorem ofText_eq_ofLines (t : Text) : ofText t = ofLines (commentLines t) := by
  rw [ofText]
  cases commentLines t <;> rfl

theorem ofText_eq_ofRows (t : Text) : ofText t = ofRows (rows t) := by
  obtain ⟨v, w, hv, hw, ht⟩ := Text.exists_eq_append_trim t
  have hrows : ofRows (rows (v ++ Text.trim t ++ w)) = ofRows (rows (Text.trim t)) := by
    rw [rows_append_blank hw, ofRows_rows_blank_append hv]
  rw [← ht] at hrows
  rw [ofText_eq_ofLines, hrows]
  cases hblank : Text.isBlankLine t with
  | true =>
      rw [commentLines_of_isBlankLine hblank, Text.trim_eq_nil_iff.mpr hblank]
      rfl
  | false =>
      obtain ⟨first, rest, hlines, hfirst⟩ := exists_commentLines_eq_cons hblank
      rw [hlines, ofLines_cons hfirst, ← hlines, commentLines, filterMap_ofLine?_lines]

/-- Lines written under one another are read as they are, if the first has text. -/
theorem ofText_intercalate_lines {first : Text} {rest : List Text}
    (hlines : ∀ l ∈ first :: rest, '\n' ∉ l) (hfirst : Text.isBlankLine first = false) :
    ofText (['\n'].intercalate (first :: rest)) = ofLines (first :: rest) := by
  rw [ofText_eq_ofRows, rows_intercalate hlines, ← ofLines_cons hfirst]

/-- Lines with the rows of a text make up a comment with its record. -/
theorem ofText_intercalate {lines : List Text} (hlines : ∀ l ∈ lines, '\n' ∉ l) {t : Text}
    (ht : lines.filterMap Row.ofLine? = rows t) :
    ofText (['\n'].intercalate lines) = ofText t := by
  rw [ofText_eq_ofRows, rows_intercalate hlines, ht, ← ofText_eq_ofRows]

/-- A comment is read from those of its lines that are not blank. -/
theorem ofText_eq_ofLines_filter (t : Text) :
    ofText t = ofLines ((t.splitOn '\n').filter (!Text.isBlankLine ·)) := by
  rw [ofText_eq_ofRows, rows, ← filterMap_ofLine?_filter]
  cases hkept : (t.splitOn '\n').filter (!Text.isBlankLine ·) with
  | nil => rfl
  | cons first rest =>
      have hmem : first ∈ (t.splitOn '\n').filter (!Text.isBlankLine ·) :=
        hkept ▸ List.mem_cons_self ..
      exact (ofLines_cons (Text.isBlankLine_of_mem_filter _ first hmem) rest).symm

end Record

end DocComment
