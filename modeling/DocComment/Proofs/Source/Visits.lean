import DocComment.Proofs.Text.Search
import DocComment.Proofs.Text.Trim
import DocComment.Source.TripleQuoted

/-!
The way of the reader through a source. It examines one line after the other for a `class` or a
`def`, and with a `def` it may be done with further lines, of the signature and of the docstring,
which it does not examine. Which lines it comes to does not depend on the scopes, and what it
declares at a line depends on the lines before it by their scopes alone.
-/

namespace DocComment.TripleQuoted

/-- The docstring behind a line, if it is a `def` with one, and the number of further lines that
are done with it. -/
def readBehind (line : Text) (rest : List Text) : Option Text × Nat :=
  match classLine? line, defLine? line with
  | none, some d => commentAfter d rest
  | _, _ => (none, 0)

/-- How far a `class` or `def` line is indented. -/
def headingIndent? (line : Text) : Option Nat :=
  match classLine? line with
  | some scope => some scope.indent
  | none => (defLine? line).map DefLine.indent

/-- The scopes behind a line that is examined. -/
def scopesBehind (scopes : List Scope) (line : Text) : List Scope :=
  match headingIndent? line with
  | none => scopes
  | some indent => (classLine? line).toList ++ enclosing indent scopes

/-- Whether the line is blank or a comment. -/
def isRemark (line : Text) : Bool :=
  (Text.trimStart line).head?.all (· = '#')

/-- A line that is examined, and the lines below it. -/
structure Visit where
  number : Nat
  line : Text
  rest : List Text

namespace Visit

def comment? (v : Visit) : Option Text :=
  (readBehind v.line v.rest).1

/-- The number of the last line that is done with this one. -/
def last (v : Visit) : Nat :=
  v.number + (readBehind v.line v.rest).2

def declared? (scopes : List Scope) (v : Visit) : Option Declaration :=
  (defLine? v.line).bind fun d =>
    v.comment?.map (⟨qualified d.name (enclosing d.indent scopes), v.number, ·⟩)

end Visit

def visitsFrom (number : Nat) : List Text → List Visit
  | [] => []
  | line :: rest =>
    ⟨number, line, rest⟩ ::
      visitsFrom (number + 1 + (readBehind line rest).2) (rest.drop (readBehind line rest).2)
termination_by lines => lines.length

/-- The lines of a source that the reader examines. -/
def visits (source : Text) : List Visit :=
  visitsFrom 1 (Text.lines source)

/-- The scopes behind lines that were all examined. -/
def scopesAfter (scopes : List Scope) (vs : List Visit) : List Scope :=
  (vs.map Visit.line).foldl scopesBehind scopes

variable {number : Nat} {scopes : List Scope} {line : Text} {lines rest : List Text}

theorem readBehind_of_headingIndent?_eq_none (h : headingIndent? line = none) (rest : List Text) :
    readBehind line rest = (none, 0) := by
  unfold headingIndent? at h
  unfold readBehind
  cases hclass : classLine? line with
  | some scope => rfl
  | none =>
      rw [hclass, Option.map_eq_none_iff] at h
      rw [h]

theorem afterKeyword?_eq_none {c : Char} {keyword t : Text} (h : ∀ b ∈ t.head?, b ≠ c) :
    afterKeyword? (c :: keyword) t = none := by
  have hafter : Text.after? (c :: keyword) t = none := by
    rw [Text.after?_eq_none_iff]
    rintro ⟨rest, rfl⟩
    exact h c rfl rfl
  rw [afterKeyword?, hafter]
  rfl

/-- Headings start with a keyword behind their indentation. -/
theorem headingIndent?_eq_none
    (h : ∀ c ∈ (line.dropWhile Text.isIndent).head?, c ≠ 'c' ∧ c ≠ 'a' ∧ c ≠ 'd') :
    headingIndent? line = none := by
  have hclass : classLine? line = none := by
    rw [classLine?, show "class".toList = 'c' :: "lass".toList from rfl,
      afterKeyword?_eq_none fun c hc => (h c hc).1]
    rfl
  have hdef : defLine? line = none := by
    rw [defLine?, show "async".toList = 'a' :: "sync".toList from rfl,
      afterKeyword?_eq_none fun c hc => (h c hc).2.1]
    rw [Option.getD_none, show "def".toList = 'd' :: "ef".toList from rfl,
      afterKeyword?_eq_none fun c hc => (h c hc).2.2]
    rfl
  rw [headingIndent?, hclass, hdef]
  rfl

/-- Behind its indentation a remark holds nothing, other white space, or a comment. -/
theorem isBlank_of_isRemark (h : isRemark line = true) :
    ∀ c ∈ (line.dropWhile Text.isIndent).head?, Text.isBlank c = true ∨ c = '#' := by
  intro c hc
  have hindent : Text.isBlankLine (line.takeWhile Text.isIndent) = true :=
    List.all_eq_true.mpr fun b hb => Text.isBlank_of_isIndent (List.mem_takeWhile_imp hb)
  have hstart : Text.trimStart (line.dropWhile Text.isIndent) = Text.trimStart line := by
    rw [← Text.trimStart_blank_append hindent, List.takeWhile_append_dropWhile]
  cases hrest : line.dropWhile Text.isIndent with
  | nil => simp [hrest] at hc
  | cons b rest =>
      have hb : b = c := by simpa [hrest] using hc
      subst hb
      by_cases hblank : Text.isBlank b = true
      · exact .inl hblank
      · rw [hrest, Text.trimStart, List.dropWhile_cons_of_neg hblank] at hstart
        rw [isRemark, ← hstart] at h
        exact .inr (by simpa using h)

theorem headingIndent?_of_isRemark (h : isRemark line = true) : headingIndent? line = none := by
  apply headingIndent?_eq_none
  intro c hc
  rcases isBlank_of_isRemark h c hc with hblank | rfl
  · refine ⟨?_, ?_, ?_⟩ <;> rintro rfl <;> exact absurd hblank (by decide)
  · decide

/-- A string starts with a quote or with the letter of its kind. -/
theorem exists_head?_of_opening? {opened : Text × Text} (h : opening? line = some opened) :
    ∃ c, (line.dropWhile Text.isIndent).head? = some c ∧
      (isStringMark c = true ∨ Signature.isQuote c = true) := by
  cases hrest : line.dropWhile Text.isIndent with
  | nil => simp [opening?, hrest, delimiters, Text.after?] at h
  | cons c rest =>
      refine ⟨c, rfl, ?_⟩
      by_contra hc
      obtain ⟨hmark, hquote⟩ := not_or.mp hc
      have hne {q : Char} (hq : Signature.isQuote q = true) (p : Text) :
          Text.after? (q :: p) (c :: rest) = none := by
        rw [Text.after?_eq_none_iff, List.cons_prefix_cons]
        rintro ⟨rfl, -⟩
        exact hquote hq
      simp [opening?, hrest, hmark, delimiters, hne (show Signature.isQuote '"' = true by decide),
        hne (show Signature.isQuote '\'' = true by decide)] at h

theorem headingIndent?_of_opening? {opened : Text × Text} (h : opening? line = some opened) :
    headingIndent? line = none := by
  obtain ⟨c, hc, hstart⟩ := exists_head?_of_opening? h
  apply headingIndent?_eq_none
  intro b hb
  obtain rfl : c = b := by simpa [hc] using hb
  refine ⟨?_, ?_, ?_⟩ <;> rintro rfl <;> simp [isStringMark, Signature.isQuote] at hstart

/-- A remark does not start a string. -/
theorem opening?_of_isRemark (h : isRemark line = true) : opening? line = none := by
  by_contra hopening
  obtain ⟨opened, hopened⟩ := Option.ne_none_iff_exists'.mp hopening
  obtain ⟨c, hc, hstart⟩ := exists_head?_of_opening? hopened
  rcases isBlank_of_isRemark h c hc with hblank | rfl
  · simp only [isStringMark, Signature.isQuote, Bool.or_eq_true, decide_eq_true_eq] at hstart
    rcases hstart with (((rfl | rfl) | rfl) | rfl) | rfl | rfl <;> exact absurd hblank (by decide)
  · simp [isStringMark, Signature.isQuote] at hstart

theorem visitsFrom_cons (number : Nat) (line : Text) (rest : List Text) :
    visitsFrom number (line :: rest) =
      ⟨number, line, rest⟩ ::
        visitsFrom (number + 1 + (readBehind line rest).2)
          (rest.drop (readBehind line rest).2) := by
  rw [visitsFrom]

theorem declarationsFrom_nil (number : Nat) (scopes : List Scope) :
    declarationsFrom number scopes [] = [] := by
  rw [declarationsFrom]

theorem declarationsFrom_cons (number : Nat) (scopes : List Scope) (line : Text)
    (rest : List Text) :
    declarationsFrom number scopes (line :: rest) =
      ((⟨number, line, rest⟩ : Visit).declared? scopes).toList ++
        declarationsFrom (number + 1 + (readBehind line rest).2) (scopesBehind scopes line)
          (rest.drop (readBehind line rest).2) := by
  rw [declarationsFrom]
  simp only [Visit.declared?, Visit.comment?, readBehind, scopesBehind, headingIndent?]
  cases hclass : classLine? line with
  | some scope => cases defLine? line <;> rfl
  | none => cases hdef : defLine? line <;> rfl

theorem scopesAfter_append (scopes : List Scope) (vs ws : List Visit) :
    scopesAfter scopes (vs ++ ws) = scopesAfter (scopesAfter scopes vs) ws := by
  rw [scopesAfter, List.map_append, List.foldl_append, scopesAfter, scopesAfter]

/-- A function is declared where the reader comes to its line, in the scopes of the lines that it
came to before. -/
theorem mem_declarationsFrom_iff {d : Declaration} :
    d ∈ declarationsFrom number scopes lines ↔
      ∃ before v after, visitsFrom number lines = before ++ v :: after ∧
        v.declared? (scopesAfter scopes before) = some d := by
  fun_induction visitsFrom number lines generalizing scopes with
  | case1 => simp [declarationsFrom_nil]
  | case2 number line rest ih =>
      rw [declarationsFrom_cons, List.mem_append, Option.mem_toList, ih]
      constructor
      · rintro (hd | ⟨before, v, after, hvisits, hd⟩)
        · exact ⟨[], _, _, rfl, hd⟩
        · exact ⟨⟨number, line, rest⟩ :: before, v, after, by rw [hvisits, List.cons_append], hd⟩
      · rintro ⟨before, v, after, hvisits, hd⟩
        cases before with
        | nil =>
            cases hvisits
            exact .inl hd
        | cons w before =>
            obtain ⟨rfl, htail⟩ := List.cons_eq_cons.mp hvisits
            exact .inr ⟨before, v, after, htail, hd⟩

theorem exists_eq_of_drop_eq {k : Nat} {above below : List Text}
    (h : rest.drop k = above ++ line :: below) :
    ∃ front, front.length = k ∧ rest = front ++ (above ++ line :: below) := by
  have hk : k ≤ rest.length := by
    by_contra hlong
    rw [List.drop_eq_nil_of_le (Nat.le_of_not_le hlong)] at h
    simp at h
  refine ⟨rest.take k, List.length_take_of_le hk, ?_⟩
  rw [← h, List.take_append_drop]

/-- A line that is examined stands in the source, and reading goes on behind the last line that is
done with it. -/
theorem lines_of_visitsFrom_eq {before after : List Visit} {v : Visit}
    (h : visitsFrom number lines = before ++ v :: after) :
    ∃ above, lines = above ++ v.line :: v.rest ∧ v.number = number + above.length ∧
      after = visitsFrom (v.last + 1) (v.rest.drop (readBehind v.line v.rest).2) := by
  fun_induction visitsFrom number lines generalizing before with
  | case1 => simp at h
  | case2 number line rest ih =>
      cases before with
      | nil =>
          cases h
          exact ⟨[], rfl, rfl, by rw [Visit.last, Nat.add_right_comm]⟩
      | cons w before =>
          -- the lines that are done with the first one stand above the line as well
          obtain ⟨above, hlines, hnumber, hafter⟩ := ih (List.cons_eq_cons.mp h).2
          obtain ⟨front, hfront, hrest⟩ := exists_eq_of_drop_eq hlines
          refine ⟨line :: (front ++ above), ?_, ?_, hafter⟩
          · rw [hrest, List.cons_append, List.append_assoc]
          · rw [hnumber, List.length_cons, List.length_append, hfront]
            omega

/-- The lines between two that are examined. -/
theorem exists_lines_between {before between after : List Visit} {v w : Visit}
    (h : visitsFrom number lines = before ++ v :: (between ++ w :: after)) :
    ∃ above middle, lines = above ++ v.line :: (middle ++ w.line :: w.rest) ∧
      v.number = number + above.length ∧ w.number = v.number + 1 + middle.length := by
  obtain ⟨above, hlines, hv, hrest⟩ := lines_of_visitsFrom_eq h
  obtain ⟨near, hdrop, hw, -⟩ := lines_of_visitsFrom_eq hrest.symm
  obtain ⟨front, hfront, hbelow⟩ := exists_eq_of_drop_eq hdrop
  refine ⟨above, front ++ near, ?_, hv, ?_⟩
  · rw [hlines, hbelow, List.append_assoc]
  · rw [hw, Visit.last, List.length_append, hfront]
    omega

theorem getElem?_of_mem_visitsFrom {v : Visit} (hv : v ∈ visitsFrom number lines) :
    ∃ k, v.number = number + k ∧ lines[k]? = some v.line := by
  obtain ⟨before, after, h⟩ := List.append_of_mem hv
  obtain ⟨above, hlines, hnumber, -⟩ := lines_of_visitsFrom_eq h
  exact ⟨above.length, hnumber, by simp [hlines]⟩

theorem number_le_of_mem_visitsFrom {v : Visit} (hv : v ∈ visitsFrom number lines) :
    number ≤ v.number := by
  obtain ⟨k, hnumber, -⟩ := getElem?_of_mem_visitsFrom hv
  omega

/-- What is done with one line ends before the next line that is examined. -/
theorem pairwise_visitsFrom (number : Nat) (lines : List Text) :
    (visitsFrom number lines).Pairwise (·.last < ·.number) := by
  fun_induction visitsFrom number lines with
  | case1 => exact .nil
  | case2 number line rest ih =>
      refine .cons ?_ ih
      intro w hw
      have := number_le_of_mem_visitsFrom hw
      simp only [Visit.last]
      omega

theorem number_le_last (v : Visit) : v.number ≤ v.last :=
  Nat.le_add_right ..

theorem mem_between_of_number {before between after : List Visit} {u v w : Visit}
    (h : visitsFrom number lines = before ++ v :: (between ++ w :: after))
    (hu : u ∈ visitsFrom number lines) (hvu : v.number < u.number) (huw : u.number < w.number) :
    u ∈ between := by
  have hsorted : (visitsFrom number lines).Pairwise (·.number < ·.number) :=
    (pairwise_visitsFrom number lines).imp fun {a _} hab =>
      Nat.lt_of_le_of_lt (number_le_last a) hab
  rw [h] at hu hsorted
  obtain ⟨-, hback, hfront⟩ := List.pairwise_append.mp hsorted
  obtain ⟨-, hback, hmiddle⟩ := List.pairwise_append.mp (List.pairwise_cons.mp hback).2
  rcases List.mem_append.mp hu with hu | hu
  · have := hfront u hu v (List.mem_cons_self ..)
    omega
  · rcases List.mem_cons.mp hu with rfl | hu
    · omega
    · rcases List.mem_append.mp hu with hu | hu
      · exact hu
      · rcases List.mem_cons.mp hu with rfl | hu
        · omega
        · have := (List.pairwise_cons.mp hback).1 u hu
          omega

end DocComment.TripleQuoted
