import DocComment.Proofs.Source.Offsets
import DocComment.Proofs.Source.Scopes
import DocComment.Proofs.Source.Strings
import DocComment.Proofs.Text.Lines

/-!
What is reported of a source is laid out like the source. A function stands on the line that it is
reported with, its comment stands in quotes below this line, and everything of it ends above the
line of the next function.
-/

namespace DocComment.TripleQuoted

/-- The lines hold the text behind a delimiter and before another one. Without another one there is
nothing below the text. -/
def IsQuoted (text : Text) (string below : List Text) : Prop :=
  ∃ delimiter ∈ delimiters, ∃ front back,
    ['\n'].intercalate string = front ++ delimiter ++ text ++ back ∧
      '\n' ∉ front ++ delimiter ∧ '\n' ∉ back ∧ (delimiter <+: back ∨ back = [] ∧ below = [])

/-- The place of a function in the lines of a source. -/
structure Placement (lines : List Text) (f : DocumentedFunction) where
  above : List Text
  line : Text
  /-- The lines from the declaration to the docstring. -/
  between : List Text
  string : List Text
  below : List Text
  start : DefLine
  comment : Text
  lines_eq : lines = above ++ line :: (between ++ (string ++ below))
  line_eq : f.line = above.length + 1
  defLine?_eq : defLine? line = some start
  name_cases : f.name = start.name ∨ ∃ first ∈ above, ∃ scope, classLine? first = some scope ∧
    f.name = scope.name ++ '.' :: start.name
  isQuoted : IsQuoted comment string below
  record_eq : f.record = Record.ofText comment

/-- The number of the last line of the docstring. -/
def Placement.last {lines : List Text} {f : DocumentedFunction} (p : Placement lines f) : Nat :=
  f.line + p.between.length + p.string.length

theorem Placement.line_bounds {lines : List Text} {f : DocumentedFunction}
    (p : Placement lines f) : 1 ≤ f.line ∧ f.line ≤ lines.length := by
  have hlength := congrArg List.length p.lines_eq
  rw [List.length_append, List.length_cons] at hlength
  have hline := p.line_eq
  omega

variable {source : Text} {lines : List Text} {d : Declaration}

theorem length_upTo (delimiter : Text) (lines : List Text) :
    (upTo delimiter lines).1.length = (upTo delimiter lines).2 := by
  induction lines with
  | nil => rfl
  | cons line rest ih =>
      rw [upTo]
      cases Text.before? delimiter line with
      | some front => rfl
      | none => exact congrArg (· + 1) ih

/-- The text before the delimiter ends on the last of the lines up to it. -/
theorem exists_back_of_upTo (hlines : ∀ l ∈ lines, '\n' ∉ l) (delimiter : Text) :
    ∃ string below back, lines = string ++ below ∧ string.length = (upTo delimiter lines).2 ∧
      ['\n'].intercalate string = ['\n'].intercalate (upTo delimiter lines).1 ++ back ∧
      '\n' ∉ back ∧ (delimiter <+: back ∨ back = [] ∧ below = []) := by
  induction lines with
  | nil => exact ⟨[], [], [], rfl, rfl, rfl, nofun, .inr ⟨rfl, rfl⟩⟩
  | cons line rest ih =>
      obtain ⟨hline, hrest⟩ := List.forall_mem_cons.mp hlines
      rw [upTo]
      cases hfront : Text.before? delimiter line with
      | some front =>
          obtain ⟨behind, rfl⟩ := Text.before?_eq_append hfront
          rw [List.append_assoc] at hline ⊢
          refine ⟨[front ++ (delimiter ++ behind)], rest, delimiter ++ behind, rfl, rfl, ?_,
            fun h => hline (List.mem_append_right front h), .inl (List.prefix_append ..)⟩
          simp only [List.intercalate_singleton]
      | none =>
          obtain ⟨string, below, back, rfl, hlength, htext, hback, hend⟩ := ih hrest
          refine ⟨line :: string, below, back, rfl, congrArg (· + 1) hlength, ?_, hback, hend⟩
          exact Text.intercalate_cons_append (hlength.trans (length_upTo ..).symm) htext line

/-- The lines that a docstring takes hold its text in quotes. -/
theorem exists_string_of_docstring? {found : Text × Nat} (hlines : ∀ l ∈ lines, '\n' ∉ l)
    (h : docstring? lines = some found) :
    ∃ string below, lines = string ++ below ∧ string.length = found.2 ∧
      IsQuoted found.1 string below := by
  cases lines with
  | nil => cases h
  | cons line rest =>
      cases hopening : opening? line with
      | none =>
          rw [docstring?_of_none hopening] at h
          cases h
      | some opened =>
          obtain ⟨delimiter, first⟩ := opened
          rw [docstring?_of_some hopening] at h
          cases h
          obtain ⟨hmem, front, rfl⟩ := exists_front_of_opening? hopening
          obtain ⟨hline, hrest⟩ := List.forall_mem_cons.mp hlines
          obtain ⟨hfront, hfirst⟩ := not_or.mp (hline ∘ List.mem_append.mpr)
          obtain ⟨string, below, back, hcut, hlength, htext, hback, hend⟩ :=
            exists_back_of_upTo (List.forall_mem_cons.mpr ⟨hfirst, hrest⟩) delimiter
          cases string with
          | nil => exact absurd (hlength ▸ one_le_upTo delimiter first rest) (by simp)
          | cons s string =>
              obtain ⟨rfl, rfl⟩ := List.cons_eq_cons.mp hcut
              refine ⟨(front ++ delimiter ++ first) :: string, below, rfl, hlength, ?_⟩
              refine ⟨delimiter, hmem, front, back, ?_, hfront, hback, hend⟩
              rw [Text.intercalate_append_cons, htext]
              exact (List.append_assoc ..).symm

theorem line_mem_above {number : Nat} {before after : List Visit} {v c : Visit}
    {above : List Text} (h : visitsFrom number lines = before ++ v :: after)
    (hlines : lines = above ++ v.line :: v.rest) (hc : c ∈ before) : c.line ∈ above := by
  obtain ⟨outside, inside, rfl⟩ := List.append_of_mem hc
  rw [List.append_assoc, List.cons_append] at h
  obtain ⟨far, near, hbetween, -⟩ := exists_lines_between h
  have habove : above = far ++ c.line :: near := by
    refine List.append_cancel_right (hlines.symm.trans (hbetween.trans ?_))
    rw [List.append_assoc, List.cons_append]
  rw [habove]
  exact List.mem_append_right far (List.mem_cons_self ..)

theorem exists_string_of_declared? {scopes : List Scope} {v : Visit}
    (hlines : ∀ l ∈ v.rest, '\n' ∉ l) (h : v.declared? scopes = some d) :
    ∃ between string below, v.rest = between ++ (string ++ below) ∧
      v.last = v.number + between.length + string.length ∧ IsQuoted d.comment string below := by
  obtain ⟨hclass, start, signature, found, hstart, hextent, hstring⟩ := exists_of_declared? h
  have hread : readBehind v.line v.rest = (some found.1, signature + found.2) := by
    rw [readBehind, hclass, hstart]
    dsimp only
    rw [commentAfter_of_some hextent, hstring]
  have hcomment : d.comment = found.1 := by
    obtain ⟨_, -, hmap⟩ := Option.bind_eq_some_iff.mp h
    obtain ⟨comment, hsome, rfl⟩ := Option.map_eq_some_iff.mp hmap
    rw [Visit.comment?, hread] at hsome
    exact (Option.some.inj hsome).symm
  rw [stringBehindBlanks?_eq, Option.map_eq_some_iff] at hstring
  obtain ⟨inner, hinner, rfl⟩ := hstring
  obtain ⟨string, below, hcut, hlength, hquoted⟩ :=
    exists_string_of_docstring?
      (fun l hl => hlines l (List.mem_of_mem_drop (List.mem_of_mem_drop hl))) hinner
  have hbody : v.rest.drop signature =
      (v.rest.drop signature).takeWhile Text.isBlankLine ++ (string ++ below) := by
    rw [← hcut]
    exact List.prefix_append_drop (List.takeWhile_prefix _)
  refine ⟨v.rest.take signature ++ (v.rest.drop signature).takeWhile Text.isBlankLine, string,
    below, ?_, ?_, hcomment ▸ hquoted⟩
  · rw [List.append_assoc, ← hbody, List.take_append_drop]
  · rw [Visit.last, hread, List.length_append,
      List.length_take_of_le (Signature.extent?_le_length hextent), ← hlength]
    omega

/-- A function is placed where it is reported, and what is done with its line ends with its
docstring. -/
theorem exists_placement (hd : d ∈ declarations source) :
    ∃ p : Placement (Text.lines source) d.function, ∃ v ∈ visits source,
      v.number = d.line ∧ v.last = p.last := by
  obtain ⟨before, v, after, hvisits, hdeclared⟩ := mem_declarationsFrom_iff.mp hd
  obtain ⟨above, hlines, hnumber, -⟩ := lines_of_visitsFrom_eq hvisits
  obtain ⟨hline, start, hstart, hname⟩ := declared?_cases hdeclared
  have hv : v ∈ visits source := by
    rw [visits, hvisits]
    exact List.mem_append_right before (List.mem_cons_self ..)
  have hnewline : ∀ l ∈ v.rest, '\n' ∉ l := by
    intro l hl
    refine Text.newline_not_mem_of_mem_lines (t := source) ?_
    rw [hlines]
    exact List.mem_append_right above (List.mem_cons_of_mem v.line hl)
  obtain ⟨between, string, below, hrest, hlast, hquoted⟩ :=
    exists_string_of_declared? hnewline hdeclared
  have hscope : d.name = start.name ∨ ∃ first ∈ above, ∃ scope, classLine? first = some scope ∧
      d.name = scope.name ++ '.' :: start.name := by
    rcases hname with hplain | ⟨scope, hscope, -, hdotted⟩
    · exact .inl hplain
    · obtain ⟨outside, c, inside, rfl, hclass, -⟩ := (mem_scopesAfter_iff before).mp hscope
      have hc : c.line ∈ above := line_mem_above hvisits hlines (by simp)
      exact .inr ⟨c.line, hc, scope, hclass, hdotted⟩
  refine ⟨{ above, line := v.line, between, string, below, start, comment := d.comment
            lines_eq := hrest ▸ hlines
            line_eq := by rw [Declaration.function, hline, hnumber, Nat.add_comm]
            defLine?_eq := hstart
            name_cases := hscope
            isQuoted := hquoted
            record_eq := rfl }, v, hv, hline.symm, ?_⟩
  exact hlast.trans (congrArg (· + between.length + string.length) hline.symm)

theorem pairwise_line_declarations (source : Text) :
    (declarations source).Pairwise (·.line < ·.line) := by
  have hlines : ((declarations source).map Declaration.line).Pairwise (· < ·) := by
    rw [declarations, map_line_declarationsFrom, List.pairwise_map]
    refine List.Pairwise.filter _ ((pairwise_visitsFrom 1 _).imp fun {v _} hlast => ?_)
    exact (number_le_last v).trans_lt hlast
  exact List.pairwise_map.mp hlines

/-- Reading a source by positions comes to its end without a fault. The functions that it gives are
in the order of their lines, each is placed where it is reported, and its docstring ends above the
line of the next one. -/
theorem declarations_placed (source : Text) :
    let document := Document.ofDeclarations (declarations source)
    (declarationsByPosition source).map Document.ofDeclarations = .ok document ∧
      document.functions.Pairwise (·.line < ·.line) ∧
      ∀ f ∈ document.functions, 1 ≤ f.line ∧ f.line ≤ (Text.lines source).length ∧
        ∃ p : Placement (Text.lines source) f,
          ∀ g ∈ document.functions, f.line < g.line → p.last < g.line := by
  intro document
  refine ⟨?_, ?_, ?_⟩
  · rw [declarationsByPosition_eq]
    rfl
  · exact List.pairwise_map.mpr (pairwise_line_declarations source)
  · intro f hf
    obtain ⟨d, hd, rfl⟩ := List.mem_map.mp hf
    obtain ⟨p, v, hv, hnumber, hlast⟩ := exists_placement hd
    refine ⟨p.line_bounds.1, p.line_bounds.2, p, ?_⟩
    intro g hg hlt
    obtain ⟨e, he, rfl⟩ := List.mem_map.mp hg
    obtain ⟨-, w, hw, hnext, -⟩ := exists_placement he
    have hvw : v.number < w.number := by rwa [hnumber, hnext]
    have hbefore := last_lt_of_number_lt hv hw hvw
    rwa [hlast, hnext] at hbefore

theorem declarations_placed_two :
    ∃ source : Text, source =
        "class É:\n  def f(s):\n    '''Où?\n    '''\ndef g():\n  r\"\"\"Last.".toList ∧
      ∃ f g, (Document.ofDeclarations (declarations source)).functions = [f, g] ∧
        f.name = "É.f".toList ∧ f.line = 2 ∧ g.line = 5 ∧
        ∃ p : Placement (Text.lines source) f, p.last < g.line := by
  let source : Text :=
    "class É:\n  def f(s):\n    '''Où?\n    '''\ndef g():\n  r\"\"\"Last.".toList
  let d : Declaration := ⟨"É.f".toList, 2, "Où?\n    ".toList⟩
  let e : Declaration := ⟨"g".toList, 5, "Last.".toList⟩
  have hdeclarations : declarations source = [d, e] := by decide +kernel
  have hfunctions : (Document.ofDeclarations (declarations source)).functions =
      [d.function, e.function] := by
    rw [hdeclarations]
    rfl
  obtain ⟨-, -, hplaced⟩ := declarations_placed source
  obtain ⟨-, -, p, hp⟩ := hplaced d.function (by rw [hfunctions]; exact List.mem_cons_self ..)
  refine ⟨source, rfl, d.function, e.function, hfunctions, rfl, rfl, rfl, p, ?_⟩
  exact hp e.function (by rw [hfunctions]; simp) (by decide)

end DocComment.TripleQuoted
