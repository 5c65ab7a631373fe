import DocComment.Proofs.Source.Scopes

/-!
The scopes of the reader at every line that it examines. They are the classes that are open there,
the latest first, each indented deeper than the next one. A `def` is named after the latest of the
classes that enclose it, and it closes the others, whether or not it is reported.
-/

namespace DocComment.TripleQuoted

/-- Whether the line is no `class` or `def` line, or is indented deeper. -/
def Visit.staysInside (indent : Nat) (v : Visit) : Bool :=
  (headingIndent? v.line).all (indent < ·)

/-- The class that the line opens, if all lines since then stay inside. -/
def openClass? (v : Visit) (since : List Visit) : Option Scope :=
  (classLine? v.line).filter fun scope => since.all (·.staysInside scope.indent)

/-- The classes that are open behind lines that were examined, the latest first. -/
def openClasses : List Visit → List Scope
  | [] => []
  | v :: since => openClasses since ++ (openClass? v since).toList

/-- What is declared at lines that are examined one after the other. -/
def declaredAt (scopes : List Scope) : List Visit → List Declaration
  | [] => []
  | v :: vs => (v.declared? scopes).toList ++ declaredAt (scopesBehind scopes v.line) vs

/-- The scopes are the open classes, and the innermost one is indented deepest. -/
structure AreOpen (vs : List Visit) (scopes : List Scope) : Prop where
  eq_openClasses : scopes = openClasses vs
  pairwise_indent : scopes.Pairwise fun inner outer => outer.indent < inner.indent

/-- A line of this indentation, read after the lines `since`, is in the class that the line `first`
before them opens. -/
structure Encloses (indent : Nat) (scope : Scope) (first : Visit) (since : List Visit) : Prop where
  opened : classLine? first.line = some scope
  lt_indent : scope.indent < indent
  inside : ∀ v ∈ since, ∀ width ∈ headingIndent? v.line, scope.indent < width

/-- The class was opened latest of those that enclose a line of this indentation. -/
def IsNearest (before : List Visit) (indent : Nat) (scope : Scope) : Prop :=
  ∃ outside first since, before = outside ++ first :: since ∧ Encloses indent scope first since ∧
    ∀ far next near, since = far ++ next :: near → ∀ other, ¬ Encloses indent other next near

/-- The name that a function has by the lines that were examined before its own. -/
inductive IsNamed (before : List Visit) (d : DefLine) : Text → Prop
  | method {scope : Scope} (h : IsNearest before d.indent scope) :
      IsNamed before d (scope.name ++ '.' :: d.name)
  | plain (h : ∀ scope, ¬ IsNearest before d.indent scope) : IsNamed before d d.name

deriving instance DecidableEq for Visit

variable {scope : Scope} {v : Visit} {vs : List Visit} {indent : Nat}

/-! The scopes are the open classes. -/

theorem headingIndent?_of_classLine? {line : Text} (h : classLine? line = some scope) :
    headingIndent? line = some scope.indent := by
  rw [headingIndent?, h]

/-- A line closes the classes that it does not stay inside of, and may open one. -/
theorem scopesBehind_eq (scopes : List Scope) (v : Visit) :
    scopesBehind scopes v.line =
      (classLine? v.line).toList ++ scopes.filter fun scope => v.staysInside scope.indent := by
  unfold scopesBehind Visit.staysInside
  cases hheading : headingIndent? v.line with
  | some indent => rfl
  | none =>
      cases hclass : classLine? v.line with
      | none => simp
      | some scope =>
          rw [headingIndent?_of_classLine? hclass] at hheading
          cases hheading

theorem staysInside_iff :
    v.staysInside indent = true ↔ ∀ width ∈ headingIndent? v.line, indent < width := by
  unfold Visit.staysInside
  cases headingIndent? v.line <;> simp

theorem openClass?_eq_some_iff :
    openClass? v vs = some scope ↔
      classLine? v.line = some scope ∧
        ∀ u ∈ vs, ∀ width ∈ headingIndent? u.line, scope.indent < width := by
  simp only [openClass?, Option.filter_eq_some_iff, List.all_eq_true, staysInside_iff]

/-- The scopes that a run of lines leaves: those it opens and does not close, then those from
before that it stays inside of. -/
theorem scopesAfter_eq (scopes : List Scope) (vs : List Visit) :
    scopesAfter scopes vs =
      openClasses vs ++ scopes.filter fun scope => vs.all (·.staysInside scope.indent) := by
  -- the first line changes the scopes that the others start from
  induction vs generalizing scopes with
  | nil => simp [scopesAfter, openClasses]
  | cons v vs ih =>
      have hstep : scopesAfter scopes (v :: vs) = scopesAfter (scopesBehind scopes v.line) vs := rfl
      rw [hstep, ih, scopesBehind_eq, List.filter_append, ← Option.toList_filter, List.filter_filter,
        openClasses, openClass?, List.append_assoc]
      simp only [List.all_cons, Bool.and_comm]

theorem scopesAfter_eq_openClasses (vs : List Visit) : scopesAfter [] vs = openClasses vs := by
  simp [scopesAfter_eq]

theorem exists_classLine?_of_mem_openClasses (h : scope ∈ openClasses vs) :
    ∃ v ∈ vs, classLine? v.line = some scope := by
  rw [← scopesAfter_eq_openClasses, mem_scopesAfter_iff] at h
  obtain ⟨before, v, after, rfl, hclass, -⟩ := h
  exact ⟨v, by simp, hclass⟩

/-- The innermost class is indented deepest. -/
theorem pairwise_openClasses (vs : List Visit) :
    (openClasses vs).Pairwise fun inner outer => outer.indent < inner.indent := by
  induction vs with
  | nil => exact .nil
  | cons v vs ih =>
      apply List.pairwise_append.mpr
      refine ⟨ih, ?_, ?_⟩
      · cases openClass? v vs with
        | none => exact .nil
        | some scope => exact List.pairwise_singleton ..
      · intro inner hinner outer houter
        obtain ⟨u, hu, hclass⟩ := exists_classLine?_of_mem_openClasses hinner
        obtain ⟨-, hinside⟩ := openClass?_eq_some_iff.mp (Option.mem_toList.mp houter)
        exact hinside u hu inner.indent (headingIndent?_of_classLine? hclass)

theorem areOpen_scopesAfter (vs : List Visit) : AreOpen vs (scopesAfter [] vs) where
  eq_openClasses := scopesAfter_eq_openClasses vs
  pairwise_indent := scopesAfter_eq_openClasses vs ▸ pairwise_openClasses vs

/-! The nearest class. -/

theorem mem_enclosing_openClasses_iff :
    scope ∈ enclosing indent (openClasses vs) ↔
      ∃ outside first since, vs = outside ++ first :: since ∧
        Encloses indent scope first since := by
  rw [← scopesAfter_eq_openClasses, enclosing, List.mem_filter, mem_scopesAfter_iff,
    decide_eq_true_eq]
  constructor
  · rintro ⟨⟨outside, first, since, hvs, hclass, hsince⟩, hindent⟩
    exact ⟨outside, first, since, hvs, hclass, hindent, hsince⟩
  · rintro ⟨outside, first, since, hvs, hclass, hindent, hsince⟩
    exact ⟨⟨outside, first, since, hvs, hclass, hsince⟩, hindent⟩

/-- The first line has the nearest class only if no later line has one. -/
theorem isNearest_cons_iff :
    IsNearest (v :: vs) indent scope ↔
      IsNearest vs indent scope ∨
        enclosing indent (openClasses vs) = [] ∧ Encloses indent scope v vs := by
  constructor
  · rintro ⟨outside, first, since, hvs, hencloses, hlatest⟩
    -- the class is that of the first line just if nothing stands outside
    cases outside with
    | nil =>
        obtain ⟨rfl, rfl⟩ := List.cons_eq_cons.mp hvs
        refine .inr ⟨List.eq_nil_iff_forall_not_mem.mpr ?_, hencloses⟩
        intro other hother
        obtain ⟨far, next, near, hsince, hnext⟩ := mem_enclosing_openClasses_iff.mp hother
        exact hlatest far next near hsince other hnext
    | cons u outside =>
        obtain ⟨rfl, rfl⟩ := List.cons_eq_cons.mp hvs
        exact .inl ⟨outside, first, since, rfl, hencloses, hlatest⟩
  · rintro (⟨outside, first, since, rfl, hencloses, hlatest⟩ | ⟨hnone, hencloses⟩)
    · exact ⟨v :: outside, first, since, rfl, hencloses, hlatest⟩
    · refine ⟨[], v, vs, rfl, hencloses, ?_⟩
      intro far next near hvs other hother
      have hmem : other ∈ enclosing indent (openClasses vs) :=
        mem_enclosing_openClasses_iff.mpr ⟨far, next, near, hvs, hother⟩
      rw [hnone] at hmem
      cases hmem

theorem head?_enclosing_openClasses_iff :
    (enclosing indent (openClasses vs)).head? = some scope ↔ IsNearest vs indent scope := by
  induction vs with
  | nil =>
      constructor
      · intro h
        cases h
      · rintro ⟨outside, first, since, h, -⟩
        simp at h
  | cons v vs ih =>
      have hfirst : (enclosing indent (openClass? v vs).toList).head? = some scope ↔
          Encloses indent scope v vs := by
        rw [enclosing, ← Option.toList_filter, Option.head?_toList, Option.filter_eq_some_iff,
          openClass?_eq_some_iff, decide_eq_true_eq]
        constructor
        · rintro ⟨⟨hclass, hinside⟩, hindent⟩
          exact ⟨hclass, hindent, hinside⟩
        · rintro ⟨hclass, hindent, hinside⟩
          exact ⟨⟨hclass, hinside⟩, hindent⟩
      rw [isNearest_cons_iff, ← ih, openClasses, enclosing, List.filter_append, List.head?_append,
        Option.or_eq_some_iff, List.head?_eq_none_iff]
      exact or_congr_right (and_congr_right fun _ => hfirst)

theorem isNamed_qualified (before : List Visit) (d : DefLine) :
    IsNamed before d (qualified d.name (enclosing d.indent (openClasses before))) := by
  cases hopen : enclosing d.indent (openClasses before) with
  | nil =>
      refine .plain ?_
      intro scope hnearest
      rw [← head?_enclosing_openClasses_iff, hopen] at hnearest
      cases hnearest
  | cons scope outer =>
      refine .method (head?_enclosing_openClasses_iff.mp ?_)
      rw [hopen, List.head?_cons]

/-! The scopes along a run. -/

/-- A `def` line opens no class: its keyword starts with another letter. -/
theorem classLine?_of_defLine? {line : Text} {d : DefLine} (h : defLine? line = some d) :
    classLine? line = none := by
  by_cases hc : (line.dropWhile Text.isIndent).head? = some 'c'
  · have hother {c : Char} {keyword : Text} (hne : 'c' ≠ c) :
        afterKeyword? (c :: keyword) (line.dropWhile Text.isIndent) = none := by
      apply afterKeyword?_eq_none
      intro b hb
      rwa [Option.some.inj (hc.symm.trans hb)] at hne
    have hasync : afterKeyword? "async".toList (line.dropWhile Text.isIndent) = none :=
      hother (by decide : 'c' ≠ 'a')
    have hdef : afterKeyword? "def".toList (line.dropWhile Text.isIndent) = none :=
      hother (by decide : 'c' ≠ 'd')
    rw [defLine?, hasync, Option.getD_none, hdef] at h
    cases h
  · have hclass : afterKeyword? "class".toList (line.dropWhile Text.isIndent) = none := by
      apply afterKeyword?_eq_none
      rintro b hb rfl
      exact hc hb
    rw [classLine?, hclass]
    rfl

/-- When the reader comes to a line it has declared what the lines before declare, and it goes on
with their scopes. -/
theorem declarationsFrom_eq_append {number : Nat} {lines : List Text} {before after : List Visit}
    (h : visitsFrom number lines = before ++ v :: after) (scopes : List Scope) :
    declarationsFrom number scopes lines =
      declaredAt scopes before ++
        declarationsFrom v.number (scopesAfter scopes before) (v.line :: v.rest) := by
  fun_induction visitsFrom number lines generalizing scopes before with
  | case1 => simp at h
  | case2 number line rest ih =>
      cases before with
      | nil =>
          cases h
          rfl
      | cons u before =>
          obtain ⟨rfl, hafter⟩ := List.cons_eq_cons.mp h
          rw [declarationsFrom_cons, ih hafter, declaredAt, List.append_assoc]
          rfl

/-- At every line that is examined the scopes are the classes that are open there, and so they are
behind it. A `def` leaves those that enclose it, reported or not, and is named after the nearest. -/
theorem scopes_of_visits_eq {source : Text} {before after : List Visit} {v : Visit}
    (h : visits source = before ++ v :: after) :
    let scopes := scopesAfter [] before
    let behind := scopesBehind scopes v.line
    declarations source =
        declaredAt [] before ++ declarationsFrom v.number scopes (v.line :: v.rest) ∧
      declarationsFrom v.number scopes (v.line :: v.rest) =
        (v.declared? scopes).toList ++
          declarationsFrom (v.last + 1) behind (v.rest.drop (v.last - v.number)) ∧
      AreOpen before scopes ∧ AreOpen (before ++ [v]) behind ∧
      ∀ d, defLine? v.line = some d →
        behind = enclosing d.indent scopes ∧ IsNamed before d (qualified d.name behind) ∧
          v.declared? scopes = v.comment?.map (⟨qualified d.name behind, v.number, ·⟩) := by
  intro scopes behind
  have hscopes : AreOpen before scopes := areOpen_scopesAfter before
  have hbehind : AreOpen (before ++ [v]) behind := by
    have hlast : scopesAfter [] (before ++ [v]) = behind := scopesAfter_append [] before [v]
    exact hlast ▸ areOpen_scopesAfter (before ++ [v])
  refine ⟨declarationsFrom_eq_append h [], ?_, hscopes, hbehind, ?_⟩
  · rw [declarationsFrom_cons, Visit.last, Nat.add_sub_cancel_left, Nat.add_right_comm]
  · intro d hd
    have hleft : behind = enclosing d.indent scopes := by
      change scopesBehind scopes v.line = enclosing d.indent scopes
      rw [scopesBehind, headingIndent?, classLine?_of_defLine? hd, hd]
      rfl
    refine ⟨hleft, ?_, ?_⟩
    · rw [hleft, hscopes.eq_openClasses]
      exact isNamed_qualified before d
    · rw [hleft, Visit.declared?, hd, Option.bind_some]

/-- The one-line `def` closes the class `B`, although nothing is reported of it. -/
theorem scopes_of_visits_eq_behind_one_line :
    ∃ (source : Text) (before : List Visit) (v : Visit) (d : DefLine),
      source = ("class A:\n  class B:\n    x = 1\n  def g(): pass\n  if x:\n"
        ++ "    def f(s):\n      '''F.'''").toList ∧
        visits source = before ++ [v] ∧ (before.map Visit.number, v.number) = ([1, 2, 3, 4, 5], 6) ∧
        openClasses (before.take 3) = [⟨2, "B".toList⟩, ⟨0, "A".toList⟩] ∧
        AreOpen before (scopesAfter [] before) ∧ openClasses before = [⟨0, "A".toList⟩] ∧
        defLine? v.line = some d ∧ IsNamed before d "A.f".toList ∧
        v.declared? (scopesAfter [] before) = some ⟨"A.f".toList, 6, "F.".toList⟩ := by
  let source : Text := ("class A:\n  class B:\n    x = 1\n  def g(): pass\n  if x:\n"
    ++ "    def f(s):\n      '''F.'''").toList
  let before : List Visit := (visits source).dropLast
  let v : Visit := ⟨6, "    def f(s):".toList, ["      '''F.'''".toList]⟩
  let d : DefLine := ⟨4, "f".toList, "(s):".toList⟩
  have hd : defLine? v.line = some d := by decide +kernel
  have hcomment : v.comment? = some "F.".toList := by decide +kernel
  obtain ⟨hvisits, hnumbers, hbefore, hclasses, hname⟩ :
      visits source = before ++ v :: [] ∧
        (before.map Visit.number, v.number) = ([1, 2, 3, 4, 5], 6) ∧
        openClasses (before.take 3) = [⟨2, "B".toList⟩, ⟨0, "A".toList⟩] ∧
        openClasses before = [⟨0, "A".toList⟩] ∧
        qualified d.name (scopesBehind (scopesAfter [] before) v.line) = "A.f".toList := by
    decide +kernel
  obtain ⟨-, -, hopen, -, hdef⟩ := scopes_of_visits_eq hvisits
  obtain ⟨-, hnamed, hdeclared⟩ := hdef d hd
  rw [hname] at hnamed hdeclared
  rw [hcomment] at hdeclared
  exact ⟨source, before, v, d, rfl, hvisits, hnumbers, hbefore, hopen, hclasses, hd, hnamed,
    hdeclared⟩

end DocComment.TripleQuoted
