import DocComment.Proofs.Source.Remarks
import DocComment.Proofs.Source.TripleQuoted

/-!
Strings over several lines. The docstring of a function that is found is not examined. The lines
of any other string are read as if they were code: they do no harm as long as none of them looks
like a `class` or a `def`, and then it does not matter what they say.
-/

namespace DocComment.TripleQuoted

/-- The lines of a triple-quoted string that does not end where it starts. -/
structure LongString where
  opening : Text
  inner : List Text
  closing : Text
  delimiter : Text
  /-- What follows the delimiter on the first line. -/
  first : Text
  opening?_opening : opening? opening = some (delimiter, first)
  not_infix_first : ¬ delimiter <:+: first
  not_infix_of_mem_inner : ∀ l ∈ inner, ¬ delimiter <:+: l
  infix_closing : delimiter <:+: closing

namespace LongString

def lines (s : LongString) : List Text :=
  s.opening :: (s.inner ++ [s.closing])

/-- No line of the string looks like a `class` or a `def`. -/
def IsPlain (s : LongString) : Prop :=
  ∀ l ∈ s.inner ++ [s.closing], headingIndent? l = none

end LongString

/-- The reader comes to the line with this number, and looks for a `class` or a `def` there. -/
def IsExamined (source : Text) (number : Nat) : Prop :=
  ∃ v ∈ visits source, v.number = number

/-- The documented functions, each as the number of its line and that of the last line of its
docstring. -/
def spans (source : Text) : List (Nat × Nat) :=
  ((visits source).filter (·.comment?.isSome)).map fun v => (v.number, v.last)

variable {source line next : Text} {above below below' ls rest : List Text} {number : Nat}
  {scopes : List Scope}

theorem mem_spans_iff {span : Nat × Nat} :
    span ∈ spans source ↔
      ∃ v ∈ visits source, v.comment?.isSome = true ∧ (v.number, v.last) = span := by
  simp only [spans, List.mem_map, List.mem_filter, and_assoc]

theorem comment?_of_headingIndent?_eq_none {v : Visit} (h : headingIndent? v.line = none) :
    v.comment? = none := by
  rw [Visit.comment?, readBehind_of_headingIndent?_eq_none h]

theorem map_line_toList_declared? (scopes : List Scope) (v : Visit) :
    (v.declared? scopes).toList.map Declaration.line =
      if v.comment?.isSome then [v.number] else [] := by
  cases hcomment : v.comment? with
  | none => cases hdef : defLine? v.line <;> simp [Visit.declared?, hcomment, hdef]
  | some comment =>
      cases hdef : defLine? v.line with
      | some start => simp [Visit.declared?, hcomment, hdef]
      | none =>
          rw [Visit.comment?, readBehind, hdef] at hcomment
          cases hclass : classLine? v.line <;> simp [hclass] at hcomment

theorem map_line_declarationsFrom (number : Nat) (scopes : List Scope) (lines : List Text) :
    (declarationsFrom number scopes lines).map Declaration.line =
      ((visitsFrom number lines).filter (·.comment?.isSome)).map Visit.number := by
  fun_induction visitsFrom number lines generalizing scopes with
  | case1 => simp [declarationsFrom_nil]
  | case2 number line rest ih =>
      rw [declarationsFrom_cons, List.map_append, ih, map_line_toList_declared?, List.filter_cons]
      cases (⟨number, line, rest⟩ : Visit).comment? <;> rfl

theorem map_line_declarations (source : Text) :
    (declarations source).map Declaration.line = (spans source).map Prod.fst := by
  rw [declarations, map_line_declarationsFrom, spans, List.map_map]
  rfl

/-- A docstring ends above the next function that is found. -/
theorem pairwise_spans (source : Text) : (spans source).Pairwise (·.2 < ·.1) := by
  rw [spans, List.pairwise_map]
  exact (pairwise_visitsFrom 1 (Text.lines source)).filter _

theorem last_lt_of_number_lt {u v : Visit} (hu : u ∈ visits source) (hv : v ∈ visits source)
    (h : u.number < v.number) : u.last < v.number := by
  have hpairs := pairwise_visitsFrom 1 (Text.lines source)
  have hforth : (visits source).Pairwise fun a b => a.number < b.number → a.last < b.number := by
    refine hpairs.imp fun {a b} hlast => ?_
    exact fun _ => hlast
  have hback : (visits source).Pairwise fun a b => b.number < a.number → b.last < a.number := by
    refine hpairs.imp fun {a b} hlast hback => ?_
    have := number_le_last a
    omega
  exact hforth.forall_of_forall_of_flip (fun a _ hself => absurd hself (lt_irrefl _)) hback hu hv h

theorem line_mem_of_mem_visits {v : Visit} (hlines : Text.lines source = above ++ (ls ++ below))
    (hv : v ∈ visits source) (habove : above.length < v.number)
    (hbelow : v.number ≤ above.length + ls.length) : v.line ∈ ls := by
  obtain ⟨k, hk, hline⟩ := getElem?_of_mem_visitsFrom hv
  rw [hlines, List.getElem?_append_right (by omega), List.getElem?_append_left (by omega)] at hline
  exact List.mem_of_getElem? hline

/-- Lines that are no headings are examined one after the other. -/
theorem declarationsFrom_plain_append (h : ∀ l ∈ ls, headingIndent? l = none) (number : Nat)
    (scopes : List Scope) (rest : List Text) :
    declarationsFrom number scopes (ls ++ rest) =
      declarationsFrom (number + ls.length) scopes rest := by
  induction ls generalizing number with
  | nil => rfl
  | cons l ls ih =>
      obtain ⟨hl, hls⟩ := List.forall_mem_cons.mp h
      have hdeclared : (⟨number, l, ls ++ rest⟩ : Visit).declared? scopes = none := by
        rw [Visit.declared?, comment?_of_headingIndent?_eq_none hl]
        cases defLine? l <;> rfl
      have hscopes : scopesBehind scopes l = scopes := by rw [scopesBehind, hl]
      rw [List.cons_append, declarationsFrom_cons, hdeclared, hscopes,
        readBehind_of_headingIndent?_eq_none hl, List.drop_zero, ih hls, List.length_cons,
        Nat.add_zero, Nat.add_assoc, Nat.add_comm 1]
      rfl

theorem exists_mem_visitsFrom_of_plain (h : ∀ l ∈ ls, headingIndent? l = none) (number : Nat)
    (line : Text) (rest : List Text) :
    ∃ v ∈ visitsFrom number (ls ++ line :: rest), v.number = number + ls.length := by
  induction ls generalizing number with
  | nil =>
      rw [List.nil_append, visitsFrom_cons]
      exact ⟨_, List.mem_cons_self .., rfl⟩
  | cons l ls ih =>
      obtain ⟨hl, hls⟩ := List.forall_mem_cons.mp h
      obtain ⟨v, hv, hnumber⟩ := ih hls (number + 1)
      rw [List.cons_append, visitsFrom_cons, readBehind_of_headingIndent?_eq_none hl]
      refine ⟨v, List.mem_cons_of_mem _ hv, ?_⟩
      rw [hnumber, List.length_cons]
      omega

/-- The reader comes to the docstring of a module. -/
theorem isExamined_of_plain (hlines : Text.lines source = above ++ line :: below)
    (habove : ∀ l ∈ above, headingIndent? l = none) : IsExamined source (above.length + 1) := by
  obtain ⟨v, hv, hnumber⟩ := exists_mem_visitsFrom_of_plain habove 1 line below
  exact ⟨v, by rwa [visits, hlines], hnumber.trans (Nat.add_comm ..)⟩

/-- The reader comes to the docstring of a class. -/
theorem isExamined_behind_class {first : Text} {between : List Text} {scope : Scope}
    (hlines : Text.lines source = above ++ first :: (between ++ line :: below))
    (hexamined : IsExamined source (above.length + 1)) (hclass : classLine? first = some scope)
    (hbetween : ∀ l ∈ between, headingIndent? l = none) :
    IsExamined source (above.length + between.length + 2) := by
  obtain ⟨v, hv, hnumber⟩ := hexamined
  obtain ⟨before, after, hvisits⟩ := List.append_of_mem hv
  obtain ⟨front, hfront, hv', hafter⟩ := lines_of_visitsFrom_eq hvisits
  obtain ⟨-, hsplit⟩ := List.append_inj (hlines.symm.trans hfront) (by omega)
  obtain ⟨rfl, hrest⟩ := List.cons_eq_cons.mp hsplit
  have hread : readBehind v.line v.rest = (none, 0) := by rw [readBehind, hclass]
  obtain ⟨u, hu, hu'⟩ := exists_mem_visitsFrom_of_plain hbetween (v.number + 1) line below
  have hlast : v.last = v.number := by rw [Visit.last, hread, Nat.add_zero]
  rw [hlast, hread, List.drop_zero, ← hrest] at hafter
  rw [← hafter] at hu
  refine ⟨u, ?_, by omega⟩
  rw [hvisits]
  exact List.mem_append_right before (List.mem_cons_of_mem v hu)

/-- The ways to the same line are the same if both come to it. -/
theorem Passes.alike (hnext : Text.isBlankLine next = false) (h : Passes (next :: below) above)
    (h' : Passes (next :: below') above) : PassesAlike (next :: below) (next :: below') above := by
  induction h with
  | here => exact .here
  | @step line above _ stops _ ih =>
      cases h' with
      | step _ stops' further' =>
          -- a signature that one way leaves open does not end before the place on the other
          have hopen : ∀ d ∈ defLine? line, classLine? line = none →
              Signature.extent? d.params (above ++ next :: below) = none →
                Signature.extent? d.params (above ++ next :: below') = none := by
            intro d hd hclass hnone
            by_contra hclosed
            obtain ⟨signature, hsignature⟩ := Option.ne_none_iff_exists'.mp hclosed
            rw [readBehind, hclass, Option.mem_def.mp hd] at stops'
            have hends := (extent?_le_commentAfter hsignature).trans stops'
            rw [Signature.extent?_append hsignature hends] at hnone
            cases hnone
          have halike := readBehind_append hnext hopen stops
          rw [halike] at further'
          exact .step halike stops (ih further')

namespace LongString

variable (s : LongString)

theorem isBlankLine_opening : Text.isBlankLine s.opening = false := by
  by_contra hblank
  have hopening := opening?_of_isRemark (isRemark_of_isBlankLine (eq_true_of_ne_false hblank))
  rw [s.opening?_opening] at hopening
  cases hopening

/-- The reader finds the end of a string that it takes for a docstring. -/
theorem stringBehindBlanks?_lines (rest : List Text) :
    ∃ text, stringBehindBlanks? (s.lines ++ rest) = some (text, s.lines.length) := by
  have hclosing : Text.before? s.delimiter s.closing ≠ none :=
    fun hnone => Text.before?_eq_none_iff.mp hnone s.infix_closing
  obtain ⟨front, hfront⟩ := Option.ne_none_iff_exists'.mp hclosing
  have hbody : ∀ l ∈ s.first :: s.inner, ¬ s.delimiter <:+: l :=
    List.forall_mem_cons.mpr ⟨s.not_infix_first, s.not_infix_of_mem_inner⟩
  have hupTo := upTo_append hbody hfront rest
  have hlines : s.lines ++ rest = s.opening :: (s.inner ++ s.closing :: rest) := by
    simp [lines]
  rw [hlines, stringBehindBlanks?_of_not_blank s.isBlankLine_opening,
    docstring?_of_some s.opening?_opening, ← List.cons_append, hupTo]
  refine ⟨_, congrArg some (Prod.ext rfl ?_)⟩
  simp [lines]

variable {s}

/-- A string that the reader comes to and that is plain lies apart from the functions that are
found. -/
theorem disjoint_spans (hplain : s.IsPlain)
    (hlines : Text.lines source = above ++ (s.lines ++ below))
    (hexamined : IsExamined source (above.length + 1)) {span : Nat × Nat}
    (hspan : span ∈ spans source) :
    span.2 ≤ above.length ∨ above.length + s.lines.length < span.1 := by
  obtain ⟨v, hv, hcomment, rfl⟩ := mem_spans_iff.mp hspan
  obtain ⟨u, hu, hnumber⟩ := hexamined
  by_cases hbefore : v.number < u.number
  · have := last_lt_of_number_lt hv hu hbefore
    exact .inl (by omega)
  · by_cases hbehind : above.length + s.lines.length < v.number
    · exact .inr hbehind
    · have hline : v.line ∈ s.lines := line_mem_of_mem_visits hlines hv (by omega) (by omega)
      have hheading : headingIndent? v.line = none := by
        rcases List.mem_cons.mp hline with hline | hline
        · rw [hline]
          exact headingIndent?_of_opening? s.opening?_opening
        · exact hplain v.line hline
      rw [comment?_of_headingIndent?_eq_none hheading] at hcomment
      cases hcomment

/-- What a plain string says does not matter to the functions that are found. -/
theorem declarations_eq {t : LongString} {source' : Text} (hs : s.IsPlain) (ht : t.IsPlain)
    (hopening : t.opening = s.opening) (hlength : t.inner.length = s.inner.length)
    (hlines : Text.lines source = above ++ (s.lines ++ below))
    (hlines' : Text.lines source' = above ++ (t.lines ++ below))
    (hexamined : IsExamined source (above.length + 1))
    (hexamined' : IsExamined source' (above.length + 1)) :
    declarations source' = declarations source := by
  have hpasses {u : LongString} {text : Text} (hu : Text.lines text = above ++ (u.lines ++ below))
      (h : IsExamined text (above.length + 1)) : Passes (u.lines ++ below) above := by
    obtain ⟨v, hv, hnumber⟩ := h
    rw [visits, hu] at hv
    exact passes_of_mem_visitsFrom hv (hnumber.trans (Nat.add_comm ..))
  have halike : PassesAlike (s.lines ++ below) (t.lines ++ below) above := by
    have hsame : t.lines = s.opening :: (t.inner ++ [t.closing]) := by rw [lines, hopening]
    have hcomes := hpasses hlines' hexamined'
    rw [hsame] at hcomes ⊢
    exact (hpasses hlines hexamined).alike s.isBlankLine_opening hcomes
  obtain ⟨ds, scopes, -, hbelow, hbelow'⟩ := halike.exists_declarationsFrom 1 []
  have hbody {u : LongString} (hu : u.IsPlain) : ∀ l ∈ u.lines, headingIndent? l = none :=
    List.forall_mem_cons.mpr ⟨headingIndent?_of_opening? u.opening?_opening, hu⟩
  have hlength' : t.lines.length = s.lines.length := by simp [lines, hlength]
  rw [declarations, declarations, hlines, hlines', hbelow, hbelow',
    declarationsFrom_plain_append (hbody hs), declarationsFrom_plain_append (hbody ht), hlength']

end LongString

/-- The docstring of a function that is found ends where its span ends. -/
theorem DefPlace.mem_spans (p : DefPlace) {s : LongString}
    (hlines : Text.lines source = p.linesWith [])
    (hfound : ∃ d ∈ declarations source, d.line = p.number) (hbelow : p.below = s.lines ++ rest) :
    (p.number, p.number + p.signature.length + p.gap.length + s.lines.length) ∈ spans source := by
  rw [declarations, hlines] at hfound
  obtain ⟨text, hstring⟩ := s.stringBehindBlanks?_lines rest
  have hclass := (p.exists_string_of_isFound hfound).1
  have hv := (p.exists_declared?_of_isFound hfound).1
  have hread : readBehind p.line (p.signature ++ p.gap ++ (s.lines ++ rest)) =
      (some text, (p.signature ++ p.gap).length + s.lines.length) := by
    rw [p.readBehind_gap hclass, hstring]
  rw [hbelow, ← hlines] at hv
  refine mem_spans_iff.mpr ⟨_, hv, ?_, ?_⟩
  · rw [Visit.comment?, hread]
    rfl
  · rw [Visit.last, hread, List.length_append]
    simp only [Nat.add_assoc]

/-- Functions that are found stand outside of the docstrings of each other, and outside of any other
string that is plain; and what such a string says does not matter to them. -/
theorem declared_outside_strings (source : Text) :
    (declarations source).map Declaration.line = (spans source).map Prod.fst ∧
    (spans source).Pairwise (·.2 < ·.1) ∧
    (∀ (p : DefPlace) (s : LongString) (rest : List Text), Text.lines source = p.linesWith [] →
      (∃ d ∈ declarations source, d.line = p.number) → p.below = s.lines ++ rest →
      (p.number, p.number + p.signature.length + p.gap.length + s.lines.length) ∈ spans source) ∧
    ∀ (s : LongString) (above below : List Text), s.IsPlain →
      Text.lines source = above ++ (s.lines ++ below) → IsExamined source (above.length + 1) →
      (∀ span ∈ spans source,
        span.2 ≤ above.length ∨ above.length + s.lines.length < span.1) ∧
      ∀ (t : LongString) (source' : Text), t.IsPlain → t.opening = s.opening →
        t.inner.length = s.inner.length → Text.lines source' = above ++ (t.lines ++ below) →
        IsExamined source' (above.length + 1) → declarations source' = declarations source := by
  refine ⟨map_line_declarations source, pairwise_spans source, ?_, ?_⟩
  · intro p s rest hlines hfound hbelow
    exact p.mem_spans hlines hfound hbelow
  · intro s above below hs hlines hexamined
    constructor
    · intro span hspan
      exact LongString.disjoint_spans hs hlines hexamined hspan
    · intro t source' ht hopening hlength hlines' hexamined'
      exact LongString.declarations_eq hs ht hopening hlength hlines hlines' hexamined hexamined'

theorem declared_outside_strings_usage :
    ∃ (s t : LongString) (source source' : Text),
      Text.lines source = s.lines ++ ["def f():".toList, "    '''F.'''".toList] ∧
      Text.lines source' = t.lines ++ ["def f():".toList, "    '''F.'''".toList] ∧
      s.inner = ["    run".toList] ∧ t.inner = ["    define".toList] ∧
      declarations source = [⟨"f".toList, 4, "F.".toList⟩] ∧
      declarations source' = [⟨"f".toList, 4, "F.".toList⟩] := by
  let s : LongString :=
    { opening := "'''Usage:".toList
      inner := ["    run".toList]
      closing := "'''".toList
      delimiter := "'''".toList
      first := "Usage:".toList
      opening?_opening := by decide +kernel
      not_infix_first := by decide +kernel
      not_infix_of_mem_inner := by decide +kernel
      infix_closing := by decide +kernel }
  let t : LongString :=
    { s with
      inner := ["    define".toList]
      not_infix_of_mem_inner := by decide +kernel }
  let below : List Text := ["def f():".toList, "    '''F.'''".toList]
  let source : Text := "'''Usage:\n    run\n'''\ndef f():\n    '''F.'''\n".toList
  let source' : Text := "'''Usage:\n    define\n'''\ndef f():\n    '''F.'''\n".toList
  have hlines : Text.lines source = [] ++ (s.lines ++ below) := by decide +kernel
  have hlines' : Text.lines source' = [] ++ (t.lines ++ below) := by decide +kernel
  have hs : s.IsPlain := by
    rw [LongString.IsPlain]
    decide +kernel
  have ht : t.IsPlain := by
    rw [LongString.IsPlain]
    decide +kernel
  have hexamined : IsExamined source 1 := isExamined_of_plain hlines (by simp)
  have hexamined' : IsExamined source' 1 := isExamined_of_plain hlines' (by simp)
  have hdeclared : declarations source = [⟨"f".toList, 4, "F.".toList⟩] := by decide +kernel
  obtain ⟨-, hsame⟩ := (declared_outside_strings source).2.2.2 s [] below hs hlines hexamined
  exact ⟨s, t, source, source', hlines, hlines', rfl, rfl, hdeclared,
    (hsame t source' ht rfl rfl hlines' hexamined').trans hdeclared⟩

/-- A line of a string of the module is taken for a function, and the quotes that close the string
for its docstring. -/
theorem declared_inside_string :
    ∃ (s : LongString) (source : Text), Text.lines source = s.lines ∧
      s.inner = ["def f():".toList] ∧ declarations source = [⟨"f".toList, 2, []⟩] ∧
      spans source = [(2, s.lines.length)] := by
  let s : LongString :=
    { opening := "\"\"\"Usage:".toList
      inner := ["def f():".toList]
      closing := "    \"\"\"".toList
      delimiter := "\"\"\"".toList
      first := "Usage:".toList
      opening?_opening := by decide +kernel
      not_infix_first := by decide +kernel
      not_infix_of_mem_inner := by decide +kernel
      infix_closing := by decide +kernel }
  exact ⟨s, "\"\"\"Usage:\ndef f():\n    \"\"\"\n".toList, by decide +kernel, rfl,
    by decide +kernel, by decide +kernel⟩

end DocComment.TripleQuoted
