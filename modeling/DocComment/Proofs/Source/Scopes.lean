import DocComment.Proofs.Lists
import DocComment.Proofs.Source.Visits
import DocComment.Proofs.Text.Trim
import Mathlib.Data.List.Infix

/-!
The class that a function is named after. A class is open as long as every further `class` or
`def` line that is examined is indented deeper than it is. Other lines of code close no class, so a
function may be named after a class that it does not stand in.
-/

namespace DocComment.TripleQuoted

/-- How far the line is indented. -/
def indentation (line : Text) : Nat :=
  (line.takeWhile Text.isIndent).length

/-- Whether the line is no code, or is indented deeper. -/
def isDeeper (indent : Nat) (line : Text) : Bool :=
  isRemark line || indent < indentation line

/-- Whether a line stands in a class of this name, by the lines above it. -/
def standsIn (className : Text) (above : List Text) (line : Text) : Bool :=
  above.tails.any fun
    | [] => false
    | first :: between => (classLine? first).any fun scope =>
        scope.name = className && scope.indent < indentation line &&
          between.all (isDeeper scope.indent)

/-- The reader takes the line with this number for a `class` or a `def`. -/
def IsHeading (source : Text) (number : Nat) : Prop :=
  ∃ v ∈ visits source, v.number = number ∧ (headingIndent? v.line).isSome

variable {line name : Text} {scope : Scope} {scopes : List Scope}

theorem isWord_of_mem_classLine? (h : classLine? line = some scope) :
    scope.indent = indentation line ∧ ∀ c ∈ scope.name, Text.isWord c = true := by
  simp only [classLine?, Option.bind_eq_bind, Option.bind_eq_some_iff] at h
  obtain ⟨rest, -, h⟩ := h
  split at h
  · cases h
  · cases h
    exact ⟨rfl, fun c hc => List.mem_takeWhile_imp hc⟩

theorem isWord_of_mem_defLine? {d : DefLine} (h : defLine? line = some d) :
    d.indent = indentation line ∧ ∀ c ∈ d.name, Text.isWord c = true := by
  simp only [defLine?, Option.bind_eq_bind, Option.bind_eq_some_iff] at h
  obtain ⟨rest, -, h⟩ := h
  split at h
  · cases h
  · cases h
    exact ⟨rfl, fun c hc => List.mem_takeWhile_imp hc⟩

theorem indentation_of_headingIndent? {indent : Nat} (h : headingIndent? line = some indent) :
    indent = indentation line := by
  unfold headingIndent? at h
  cases hclass : classLine? line with
  | some scope =>
      rw [hclass] at h
      cases h
      exact (isWord_of_mem_classLine? hclass).1
  | none =>
      rw [hclass] at h
      obtain ⟨d, hd, rfl⟩ := Option.map_eq_some_iff.mp h
      exact (isWord_of_mem_defLine? hd).1

/-- A line that is examined opens the scope of its class and keeps those it stands deeper than. -/
theorem mem_scopesBehind_iff :
    scope ∈ scopesBehind scopes line ↔
      classLine? line = some scope ∨
        scope ∈ scopes ∧ ∀ indent ∈ headingIndent? line, scope.indent < indent := by
  unfold scopesBehind
  cases hheading : headingIndent? line with
  | none =>
      have hclass : classLine? line = none := by
        cases hclass : classLine? line with
        | none => rfl
        | some opened => simp [headingIndent?, hclass] at hheading
      simp [hclass]
  | some indent => simp [enclosing]

/-- A class is open behind a history if no line after it stands as far out as it does. -/
theorem mem_scopesAfter_iff (vs : List Visit) :
    scope ∈ scopesAfter [] vs ↔
      ∃ before v after, vs = before ++ v :: after ∧ classLine? v.line = some scope ∧
        ∀ w ∈ after, ∀ indent ∈ headingIndent? w.line, scope.indent < indent := by
  induction vs using List.reverseRecOn with
  | nil => simp [scopesAfter]
  | append_singleton vs u ih =>
      have hlast : scopesAfter [] (vs ++ [u]) = scopesBehind (scopesAfter [] vs) u.line :=
        scopesAfter_append [] vs [u]
      rw [hlast, mem_scopesBehind_iff, ih]
      -- the last line opens the scope itself, or it stands behind the line that does
      constructor
      · rintro (hclass | ⟨⟨before, v, after, rfl, hclass, hafter⟩, hu⟩)
        · exact ⟨vs, u, [], rfl, hclass, by simp⟩
        · refine ⟨before, v, after ++ [u], by simp, hclass, ?_⟩
          intro w hw
          rcases List.mem_append.mp hw with hw | hw
          · exact hafter w hw
          · rw [List.mem_singleton.mp hw]
            exact hu
      · rintro ⟨before, v, after, hvs, hclass, hafter⟩
        rcases List.eq_nil_or_concat' after with rfl | ⟨after, w, rfl⟩
        · obtain ⟨-, hvu⟩ := List.append_inj' hvs rfl
          rw [List.singleton_inj.mp hvu]
          exact .inl hclass
        · have hsplit : vs ++ [u] = before ++ v :: after ++ [w] := by rw [hvs]; simp
          obtain ⟨rfl, huw⟩ := List.append_inj' hsplit rfl
          cases huw
          refine .inr ⟨⟨before, v, after, rfl, hclass, ?_⟩, hafter u (by simp)⟩
          exact fun w hw => hafter w (List.mem_append_left [u] hw)

theorem dot_not_mem {t : Text} (ht : ∀ c ∈ t, Text.isWord c = true) : '.' ∉ t := by
  intro h
  have hword := ht '.' h
  revert hword
  decide +kernel

/-- A text with one dot is cut at it in one way. -/
theorem append_dot_inj {s t u w : Text} (hs : '.' ∉ s) (ht : '.' ∉ t)
    (h : u ++ '.' :: w = s ++ '.' :: t) : u = s ∧ w = t := by
  have hu : '.' ∉ u := by
    have hcount := congrArg (List.count '.') h
    simp only [List.count_append, List.count_cons_self, List.count_eq_zero_of_not_mem hs,
      List.count_eq_zero_of_not_mem ht] at hcount
    exact List.count_eq_zero.mp (by omega)
  exact append_cons_inj hu hs h

theorem declared?_cases {v : Visit} {d : Declaration} (hd : v.declared? scopes = some d) :
    d.line = v.number ∧ ∃ start, defLine? v.line = some start ∧
      (d.name = start.name ∨ ∃ scope ∈ scopes, scope.indent < start.indent ∧
        d.name = scope.name ++ '.' :: start.name) := by
  obtain ⟨start, hstart, hcomment⟩ := Option.bind_eq_some_iff.mp hd
  obtain ⟨comment, -, rfl⟩ := Option.map_eq_some_iff.mp hcomment
  refine ⟨rfl, start, hstart, ?_⟩
  change qualified start.name (enclosing start.indent scopes) = _ ∨ _
  cases hopen : enclosing start.indent scopes with
  | nil => exact .inl rfl
  | cons scope outer =>
      have hscope : scope ∈ enclosing start.indent scopes := by simp [hopen]
      obtain ⟨hmem, hindent⟩ := List.mem_filter.mp hscope
      exact .inr ⟨scope, hmem, by simpa using hindent, by simp [qualified]⟩

theorem standsIn_of_forall_isDeeper {above between : List Text} {first : Text}
    (hclass : classLine? first = some scope) (hindent : scope.indent < indentation line)
    (hbetween : ∀ l ∈ between, isDeeper scope.indent l = true) :
    standsIn scope.name (above ++ first :: between) line = true := by
  apply List.any_eq_true.mpr
  refine ⟨first :: between, (List.mem_tails ..).mpr (List.suffix_append ..), ?_⟩
  simpa [hclass, hindent] using hbetween

theorem line_eq_of_mem_visits {source : Text} {above between below : List Text}
    {first l : Text} {k : Nat} {v : Visit}
    (hlines : Text.lines source = above ++ first :: (between ++ below)) (hv : v ∈ visits source)
    (hnumber : v.number = above.length + k + 2) (hl : between[k]? = some l) : v.line = l := by
  obtain ⟨j, hj, hline⟩ := getElem?_of_mem_visitsFrom hv
  obtain ⟨hk, -⟩ := List.getElem?_eq_some_iff.mp hl
  have hjk : j = above.length + (k + 1) := by omega
  rw [hlines, hjk, List.getElem?_append_right (Nat.le_add_right ..), Nat.add_sub_cancel_left,
    List.getElem?_cons_succ, List.getElem?_append_left hk, hl] at hline
  exact (Option.some.inj hline).symm

theorem isDeeper_of_isHeading {source : Text} {above between below : List Text} {first l : Text}
    {k indent : Nat} (hlines : Text.lines source = above ++ first :: (between ++ below))
    (hheadings : ∀ v ∈ visits source, above.length + 1 < v.number →
      v.number < above.length + between.length + 2 → ∀ w ∈ headingIndent? v.line, indent < w)
    (hl : between[k]? = some l) (hread : IsHeading source (above.length + k + 2)) :
    isDeeper indent l = true := by
  obtain ⟨v, hv, hnumber, hsome⟩ := hread
  obtain ⟨w, hw⟩ := Option.isSome_iff_exists.mp hsome
  obtain ⟨hk, -⟩ := List.getElem?_eq_some_iff.mp hl
  have hindent := hheadings v hv (by omega) (by omega) w hw
  have hwidth := indentation_of_headingIndent? hw
  have hline := line_eq_of_mem_visits hlines hv hnumber hl
  simp only [isDeeper, Bool.or_eq_true, decide_eq_true_eq]
  right
  rwa [← hline, ← hwidth]

/-- A function with a class in its name stands deeper than a line of this class above it, and so
do the `class` and `def` lines that the reader came to on the way. It stands in the class if no
other line between leaves the class. -/
theorem exists_class_of_mem_declarations {source : Text} {d : Declaration}
    (hd : d ∈ declarations source) {className name : Text}
    (hname : d.name = className ++ '.' :: name) :
    ∃ above first between line below indent,
      Text.lines source = above ++ first :: (between ++ line :: below) ∧
        d.line = above.length + between.length + 2 ∧
        classLine? first = some ⟨indent, className⟩ ∧
        (defLine? line).map DefLine.name = some name ∧ indent < indentation line ∧
        (∀ v ∈ visits source, above.length + 1 < v.number → v.number < d.line →
          ∀ w ∈ headingIndent? v.line, indent < w) ∧
        ((∀ k l, between[k]? = some l → ¬ IsHeading source (above.length + k + 2) →
            isDeeper indent l = true) →
          standsIn className (above ++ first :: between) line = true) := by
  obtain ⟨before, v, after, hvisits, hdeclared⟩ := mem_declarationsFrom_iff.mp hd
  obtain ⟨hline, start, hstart, hdeclaredName⟩ := declared?_cases hdeclared
  obtain ⟨hwidth, hword⟩ := isWord_of_mem_defLine? hstart
  have hfunction := dot_not_mem hword
  rcases hdeclaredName with hplain | ⟨scope, hscope, hindent, hdotted⟩
  · rw [hplain] at hname
    exact absurd (by simp [hname]) hfunction
  · obtain ⟨outside, c, inside, rfl, hclass, hinside⟩ := (mem_scopesAfter_iff before).mp hscope
    have hclassName := dot_not_mem (isWord_of_mem_classLine? hclass).2
    obtain ⟨rfl, rfl⟩ := append_dot_inj hclassName hfunction (hname.symm.trans hdotted)
    rw [List.append_assoc, List.cons_append] at hvisits
    obtain ⟨above, between, hlines, hc, hv⟩ := exists_lines_between hvisits
    have hnumber : d.line = above.length + between.length + 2 := by omega
    have hdeeper : scope.indent < indentation v.line := by rwa [← hwidth]
    have hheadings : ∀ u ∈ visits source, above.length + 1 < u.number → u.number < d.line →
        ∀ w ∈ headingIndent? u.line, scope.indent < w := by
      intro u hu hcu huv
      exact hinside u (mem_between_of_number hvisits hu (by omega) (by omega))
    refine ⟨above, c.line, between, v.line, v.rest, scope.indent, hlines, hnumber, hclass,
      by rw [hstart]; rfl, hdeeper, hheadings, ?_⟩
    intro hothers
    apply standsIn_of_forall_isDeeper hclass hdeeper
    intro l hl
    obtain ⟨k, hk⟩ := List.getElem?_of_mem hl
    by_cases hread : IsHeading source (above.length + k + 2)
    · rw [hnumber] at hheadings
      exact isDeeper_of_isHeading hlines hheadings hk hread
    · exact hothers k l hk hread

theorem exists_class_of_mem_declarations_nested :
    ∃ source : Text,
      source = "class A:\n  x = 1\n  class B:\n    y = 2\n    def f(s):\n      '''F.'''".toList ∧
      ⟨"B.f".toList, 5, "F.".toList⟩ ∈ declarations source ∧
      ∃ above first between line below indent,
        Text.lines source = above ++ first :: (between ++ line :: below) ∧
          5 = above.length + between.length + 2 ∧
          classLine? first = some ⟨indent, "B".toList⟩ ∧ indent < indentation line := by
  let source : Text :=
    "class A:\n  x = 1\n  class B:\n    y = 2\n    def f(s):\n      '''F.'''".toList
  have hmem : ⟨"B.f".toList, 5, "F.".toList⟩ ∈ declarations source := by decide +kernel
  have hname : "B.f".toList = "B".toList ++ '.' :: "f".toList := rfl
  obtain ⟨above, first, between, line, below, indent, hlines, hnumber, hclass, -, hdeeper, -⟩ :=
    exists_class_of_mem_declarations hmem hname
  exact ⟨source, rfl, hmem, above, first, between, line, below, indent, hlines, hnumber, hclass,
    hdeeper⟩

/-- Code at the margin ends a class, but a function below it is still named after the class. -/
theorem declarations_not_standsIn :
    declarations
        "class C:\n    pass\nif True:\n    def f():\n        \"\"\"Doc.\"\"\"\n".toList =
        [⟨"C.f".toList, 4, "Doc.".toList⟩] ∧
      standsIn "C".toList ["class C:".toList, "    pass".toList, "if True:".toList]
        "    def f():".toList = false := by
  constructor
  · decide +kernel
  · decide +kernel

end DocComment.TripleQuoted
