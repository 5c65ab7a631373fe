import DocComment.Proofs.Source.Locality

/-!
Lines between a signature and its docstring. Blank lines there move what comes below and change
nothing else. A comment there hides the docstring, and the function is not found.
-/

namespace DocComment.TripleQuoted

variable {line : Text} {extra above below rest front : List Text} {number : Nat}
  {scopes : List Scope}

/-- No code is left of a remark. -/
theorem isBlankLine_uncommented (h : isRemark line = true) :
    Text.isBlankLine (Signature.uncommented line) = true := by
  have hblank : Text.isBlankLine (line.takeWhile Text.isBlank) = true := List.all_takeWhile
  have hrest : Signature.uncommentedFrom none (Text.trimStart line) = [] := by
    rw [isRemark] at h
    cases hstart : Text.trimStart line with
    | nil => rfl
    | cons c rest =>
        rw [hstart] at h
        have hc : c = '#' := by simpa using h
        rw [Signature.uncommentedFrom, if_pos hc]
  have hline : line.takeWhile Text.isBlank ++ Text.trimStart line = line :=
    List.takeWhile_append_dropWhile
  rw [Signature.uncommented, ← hline, Signature.uncommentedFrom_blank_append hblank, hrest,
    List.append_nil]
  exact hblank

/-- A declaration further down. -/
def movedBy (k : Nat) (d : Declaration) : Declaration :=
  { d with line := d.line + k }

theorem declared?_movedBy (scopes : List Scope) (number k : Nat) (line : Text)
    (rest : List Text) :
    (⟨number + k, line, rest⟩ : Visit).declared? scopes =
      ((⟨number, line, rest⟩ : Visit).declared? scopes).map (movedBy k) := by
  simp only [Visit.declared?, Visit.comment?]
  cases defLine? line with
  | none => rfl
  | some start => cases (readBehind line rest).1 <;> rfl

/-- Nothing but the numbers of the lines depends on where the first line stands. -/
theorem declarationsFrom_add (number k : Nat) (scopes : List Scope) (lines : List Text) :
    declarationsFrom (number + k) scopes lines =
      (declarationsFrom number scopes lines).map (movedBy k) := by
  fun_induction visitsFrom number lines generalizing scopes with
  | case1 => simp [declarationsFrom_nil]
  | case2 number line rest ih =>
      have hnumber : number + k + 1 + (readBehind line rest).2 =
          number + 1 + (readBehind line rest).2 + k := by omega
      rw [declarationsFrom_cons, declarationsFrom_cons, List.map_append, declared?_movedBy,
        hnumber, ih]
      cases (⟨number, line, rest⟩ : Visit).declared? scopes <;> rfl

theorem number_le_of_mem_declarationsFrom {d : Declaration} {lines : List Text}
    (hd : d ∈ declarationsFrom number scopes lines) : number ≤ d.line := by
  obtain ⟨before, v, after, hvisits, hdeclared⟩ := mem_declarationsFrom_iff.mp hd
  have hv : v ∈ visitsFrom number lines := by simp [hvisits]
  rw [mem_toList_declared? (Option.mem_toList.mpr hdeclared)]
  exact number_le_of_mem_visitsFrom hv

theorem isRemark_of_isBlankLine (h : Text.isBlankLine line = true) : isRemark line = true := by
  rw [isRemark, Text.trimStart_eq_nil_iff.mpr h]
  rfl

theorem isBlankLine_of_defLine? {start : DefLine} (h : defLine? line = some start) :
    Text.isBlankLine line = false := by
  by_contra hblank
  have hheading : headingIndent? line = none :=
    headingIndent?_of_isRemark (isRemark_of_isBlankLine (eq_true_of_ne_false hblank))
  rw [headingIndent?] at hheading
  cases hclass : classLine? line <;> simp [hclass, h] at hheading

/-- Remarks behind a line do not change the way to it. -/
theorem Passes.insert (hline : Text.isBlankLine line = false)
    (hextra : ∀ l ∈ extra, isRemark l = true)
    (h : Passes (line :: (front ++ below)) above) :
    PassesAlike (line :: (front ++ below)) (line :: (front ++ (extra ++ below))) above := by
  induction h with
  | here => exact .here
  | @step l above _ stops _ ih =>
      refine .step (readBehind_append hline ?_ stops) stops ih
      intro start _ _ hopen
      have hfront (ls : List Text) : above ++ line :: (front ++ ls) =
          above ++ line :: front ++ ls := by simp
      rw [hfront] at hopen ⊢
      exact Signature.extent?_insert (fun m hm => isBlankLine_uncommented (hextra m hm)) hopen

theorem stringBehindBlanks?_blanks_append {gap : List Text}
    (hgap : ∀ l ∈ gap, Text.isBlankLine l = true) (rest : List Text) :
    stringBehindBlanks? (gap ++ rest) =
      (stringBehindBlanks? rest).map fun found => (found.1, found.2 + gap.length) := by
  induction gap with
  | nil => simp
  | cons l gap ih =>
      have hl := hgap l (List.mem_cons_self ..)
      rw [List.cons_append, stringBehindBlanks?_of_blank hl,
        ih fun m hm => hgap m (List.mem_cons_of_mem l hm), Option.map_map]
      rfl

/-- Behind a comment no string is found. -/
theorem stringBehindBlanks?_remarks_append (hextra : ∀ l ∈ extra, isRemark l = true)
    (hcomment : ∃ l ∈ extra, Text.isBlankLine l = false) (rest : List Text) :
    stringBehindBlanks? (extra ++ rest) = none := by
  induction extra with
  | nil => simp at hcomment
  | cons l extra ih =>
      cases hl : Text.isBlankLine l with
      | false =>
          have hopening := opening?_of_isRemark (hextra l (List.mem_cons_self ..))
          rw [List.cons_append, stringBehindBlanks?_of_not_blank hl, docstring?_of_none hopening]
      | true =>
          have hbelow : ∃ m ∈ extra, Text.isBlankLine m = false := by
            obtain ⟨m, hm, hcode⟩ := hcomment
            rcases List.mem_cons.mp hm with rfl | hm
            · rw [hl] at hcode
              cases hcode
            · exact ⟨m, hm, hcode⟩
          rw [List.cons_append, stringBehindBlanks?_of_blank hl,
            ih (fun m hm => hextra m (List.mem_cons_of_mem l hm)) hbelow]
          rfl

theorem exists_of_declared? {scopes : List Scope} {v : Visit} {d : Declaration}
    (h : v.declared? scopes = some d) :
    classLine? v.line = none ∧ ∃ start signature found, defLine? v.line = some start ∧
      Signature.extent? start.params v.rest = some signature ∧
      stringBehindBlanks? (v.rest.drop signature) = some found := by
  obtain ⟨start, hstart, hcomment⟩ := Option.bind_eq_some_iff.mp h
  obtain ⟨comment, hread, -⟩ := Option.map_eq_some_iff.mp hcomment
  have hclass : classLine? v.line = none := by
    by_contra hclass
    obtain ⟨scope, hscope⟩ := Option.ne_none_iff_exists'.mp hclass
    rw [Visit.comment?, readBehind, hscope] at hread
    cases hread
  rw [Visit.comment?, readBehind, hclass, hstart] at hread
  dsimp only at hread
  cases hextent : Signature.extent? start.params v.rest with
  | none =>
      rw [commentAfter_of_none hextent] at hread
      cases hread
  | some signature =>
      rw [commentAfter_of_some hextent] at hread
      cases hstring : stringBehindBlanks? (v.rest.drop signature) with
      | none =>
          rw [hstring] at hread
          cases hread
      | some found => exact ⟨hclass, start, signature, found, hstart, hextent, hstring⟩

theorem exists_opening?_of_stringBehindBlanks? {lines : List Text} {found : Text × Nat}
    (h : stringBehindBlanks? lines = some found) :
    ∃ blanks first rest opened, lines = blanks ++ first :: rest ∧
      (∀ l ∈ blanks, Text.isBlankLine l = true) ∧ opening? first = some opened := by
  induction lines generalizing found with
  | nil => cases h
  | cons l lines ih =>
      cases hl : Text.isBlankLine l with
      | true =>
          rw [stringBehindBlanks?_of_blank hl, Option.map_eq_some_iff] at h
          obtain ⟨inner, hinner, -⟩ := h
          obtain ⟨blanks, first, rest, opened, rfl, hblanks, hopened⟩ := ih hinner
          exact ⟨l :: blanks, first, rest, opened, rfl, List.forall_mem_cons.mpr ⟨hl, hblanks⟩,
            hopened⟩
      | false =>
          rw [stringBehindBlanks?_of_not_blank hl] at h
          cases hopening : opening? l with
          | none =>
              rw [docstring?_of_none hopening] at h
              cases h
          | some opened => exact ⟨[], l, lines, opened, rfl, by simp, hopening⟩

/-- A `def` line between the lines above it, the further lines of its signature with blank ones
behind them, and the lines below. -/
structure DefPlace where
  above : List Text
  line : Text
  start : DefLine
  signature : List Text
  gap : List Text
  below : List Text
  defLine?_line : defLine? line = some start
  extent?_params :
    Signature.extent? start.params (signature ++ (gap ++ below)) = some signature.length
  isBlankLine_of_mem_gap : ∀ l ∈ gap, Text.isBlankLine l = true

end DocComment.TripleQuoted

namespace DocComment.TripleQuoted.DefPlace

/-- The lines of the source, with further ones between the gap and the lines below. -/
def linesWith (p : DefPlace) (extra : List Text) : List Text :=
  p.above ++ p.line :: (p.signature ++ p.gap ++ (extra ++ p.below))

def number (p : DefPlace) : Nat :=
  p.above.length + 1

/-- The declaration after `k` lines have been inserted behind the gap. -/
def shifted (p : DefPlace) (k : Nat) (d : Declaration) : Declaration :=
  if p.number + p.signature.length + p.gap.length < d.line then movedBy k d else d

variable (p : DefPlace)

theorem extent?_params_append (rest : List Text) :
    Signature.extent? p.start.params (p.signature ++ p.gap ++ rest) = some p.signature.length := by
  rw [List.append_assoc]
  exact Signature.extent?_append p.extent?_params le_rfl (p.gap ++ rest)

theorem readBehind_gap (hclass : classLine? p.line = none) (rest : List Text) :
    readBehind p.line (p.signature ++ p.gap ++ rest) =
      match stringBehindBlanks? rest with
      | none => (none, p.signature.length)
      | some found => (some found.1, (p.signature ++ p.gap).length + found.2) := by
  simp only [readBehind, hclass, p.defLine?_line, commentAfter_of_some (p.extent?_params_append _)]
  rw [List.append_assoc, List.drop_left, stringBehindBlanks?_blanks_append p.isBlankLine_of_mem_gap]
  cases stringBehindBlanks? rest with
  | none => rfl
  | some found =>
      simp only [Option.map_some, List.length_append, Nat.add_assoc, Nat.add_comm found.2]

/-- Whether the function of the line is found, for further lines behind the gap. -/
theorem declared?_eq_none (hclass : classLine? p.line = none) {rest : List Text}
    (h : stringBehindBlanks? rest = none) (number : Nat) (scopes : List Scope) :
    (⟨number, p.line, p.signature ++ p.gap ++ rest⟩ : Visit).declared? scopes = none := by
  rw [Visit.declared?, Visit.comment?, p.readBehind_gap hclass, h, p.defLine?_line]
  rfl

/-- What the reader declares from the line on, if the function of the line is found. -/
theorem declarationsFrom_line (hclass : classLine? p.line = none) {rest : List Text}
    {found : Text × Nat} (h : stringBehindBlanks? rest = some found) (number : Nat)
    (scopes : List Scope) :
    declarationsFrom number scopes (p.line :: (p.signature ++ p.gap ++ rest)) =
      ⟨qualified p.start.name (enclosing p.start.indent scopes), number, found.1⟩ ::
        declarationsFrom (number + 1 + ((p.signature ++ p.gap).length + found.2))
          (scopesBehind scopes p.line) (rest.drop found.2) := by
  have hread : readBehind p.line (p.signature ++ p.gap ++ rest) =
      (some found.1, (p.signature ++ p.gap).length + found.2) := by
    rw [p.readBehind_gap hclass, h]
  rw [declarationsFrom_cons, hread, Visit.declared?, Visit.comment?, hread, p.defLine?_line,
    List.drop_length_add_append]
  rfl

/-- The reader comes to the line of a function that is found. -/
theorem exists_declared?_of_isFound
    (hfound : ∃ d ∈ declarationsFrom 1 [] (p.linesWith []), d.line = p.number) :
    ⟨p.number, p.line, p.signature ++ p.gap ++ p.below⟩ ∈ visitsFrom 1 (p.linesWith []) ∧
      ∃ scopes d, Visit.declared? scopes
        ⟨p.number, p.line, p.signature ++ p.gap ++ p.below⟩ = some d := by
  obtain ⟨d, hd, hline⟩ := hfound
  obtain ⟨before, v, after, hvisits, hdeclared⟩ := mem_declarationsFrom_iff.mp hd
  have hnumber : v.number = p.number := by
    rw [← mem_toList_declared? (Option.mem_toList.mpr hdeclared), hline]
  obtain ⟨above, hlines, habove, -⟩ := lines_of_visitsFrom_eq hvisits
  have hlength : p.above.length = above.length := by
    rw [number] at hnumber
    omega
  obtain ⟨-, hsplit⟩ := List.append_inj hlines hlength
  obtain ⟨hline, hrest⟩ := List.cons_eq_cons.mp hsplit
  have hv : v = ⟨p.number, p.line, p.signature ++ p.gap ++ p.below⟩ := by
    cases v
    simp_all
  rw [← hv, hvisits]
  exact ⟨List.mem_append_right before (List.mem_cons_self ..), _, d, hdeclared⟩

/-- The line of a function that is found is no `class` line, and a string stands behind the gap. -/
theorem exists_string_of_isFound
    (hfound : ∃ d ∈ declarationsFrom 1 [] (p.linesWith []), d.line = p.number) :
    classLine? p.line = none ∧ ∃ found, stringBehindBlanks? p.below = some found := by
  obtain ⟨-, scopes, d, hdeclared⟩ := p.exists_declared?_of_isFound hfound
  obtain ⟨hclass, start, signature, found, hstart, hextent, hstring⟩ :=
    exists_of_declared? hdeclared
  obtain rfl := Option.some.inj (p.defLine?_line.symm.trans hstart)
  obtain rfl := Option.some.inj ((p.extent?_params_append p.below).symm.trans hextent)
  rw [List.append_assoc, List.drop_left,
    stringBehindBlanks?_blanks_append p.isBlankLine_of_mem_gap, Option.map_eq_some_iff] at hstring
  obtain ⟨inner, hinner, -⟩ := hstring
  exact ⟨hclass, inner, hinner⟩

theorem shifted_of_le {d : Declaration} {k : Nat} (h : d.line ≤ p.number) : p.shifted k d = d := by
  rw [shifted, if_neg (by omega)]

theorem map_shifted_below {scopes : List Scope} {number k : Nat} {lines : List Text}
    (h : p.number + p.signature.length + p.gap.length < number) :
    (declarationsFrom number scopes lines).map (p.shifted k) =
      declarationsFrom (number + k) scopes lines := by
  rw [declarationsFrom_add]
  apply List.map_congr_left
  intro d hd
  rw [shifted, if_pos (lt_of_lt_of_le h (number_le_of_mem_declarationsFrom hd))]

/-- Every function that is found has its place, with the line that opens its docstring below. -/
theorem exists_defPlace {source : Text} {d : Declaration} (hd : d ∈ declarations source) :
    ∃ p : DefPlace, Text.lines source = p.linesWith [] ∧ d.line = p.number ∧
      ∃ first ∈ p.below.head?, (opening? first).isSome := by
  obtain ⟨before, v, after, hvisits, hdeclared⟩ := mem_declarationsFrom_iff.mp hd
  obtain ⟨above, hlines, hnumber, -⟩ := lines_of_visitsFrom_eq hvisits
  obtain ⟨-, start, signature, found, hstart, hextent, hstring⟩ := exists_of_declared? hdeclared
  obtain ⟨blanks, first, rest, opened, hbody, hblanks, hopened⟩ :=
    exists_opening?_of_stringBehindBlanks? hstring
  have hrest : v.rest.take signature ++ (blanks ++ first :: rest) = v.rest := by
    rw [← hbody, List.take_append_drop]
  have hsignature : (v.rest.take signature).length = signature :=
    List.length_take_of_le (Signature.extent?_le_length hextent)
  refine ⟨⟨above, v.line, start, v.rest.take signature, blanks, first :: rest, hstart,
    by rw [hrest, hextent, hsignature], hblanks⟩, ?_, ?_, first, rfl, by rw [hopened]; rfl⟩
  · calc Text.lines source = above ++ v.line :: v.rest := hlines
      _ = above ++ v.line :: (v.rest.take signature ++ blanks ++ ([] ++ first :: rest)) := by
          rw [List.nil_append, List.append_assoc, hrest]
  · rw [mem_toList_declared? (Option.mem_toList.mpr hdeclared), hnumber, number, Nat.add_comm]

/-- Up to the line of a function that is found, remarks behind the gap change nothing. -/
theorem exists_declarationsFrom_linesWith {extra : List Text}
    (hextra : ∀ l ∈ extra, isRemark l = true)
    (hfound : ∃ d ∈ declarationsFrom 1 [] (p.linesWith []), d.line = p.number) :
    ∃ ds scopes, (∀ d ∈ ds, d.line < p.number) ∧
      declarationsFrom 1 [] (p.linesWith []) =
        ds ++ declarationsFrom p.number scopes (p.line :: (p.signature ++ p.gap ++ p.below)) ∧
      declarationsFrom 1 [] (p.linesWith extra) = ds ++ declarationsFrom p.number scopes
        (p.line :: (p.signature ++ p.gap ++ (extra ++ p.below))) := by
  have hpasses : Passes (p.line :: (p.signature ++ p.gap ++ p.below)) p.above :=
    passes_of_mem_visitsFrom (p.exists_declared?_of_isFound hfound).1 (Nat.add_comm ..)
  have hinsert := hpasses.insert (isBlankLine_of_defLine? p.defLine?_line) hextra
  obtain ⟨ds, scopes, hds, hbelow, hbelow'⟩ := hinsert.exists_declarationsFrom 1 []
  have hnumber : 1 + p.above.length = p.number := Nat.add_comm ..
  rw [hnumber] at hds hbelow hbelow'
  exact ⟨ds, scopes, hds, hbelow, hbelow'⟩

theorem declarationsFrom_linesWith_of_blank {extra : List Text}
    (hblank : ∀ l ∈ extra, Text.isBlankLine l = true)
    (hfound : ∃ d ∈ declarationsFrom 1 [] (p.linesWith []), d.line = p.number) :
    declarationsFrom 1 [] (p.linesWith extra) =
      (declarationsFrom 1 [] (p.linesWith [])).map (p.shifted extra.length) := by
  obtain ⟨hclass, found, hstring⟩ := p.exists_string_of_isFound hfound
  obtain ⟨ds, scopes, hds, hsource, hsource'⟩ :=
    p.exists_declarationsFrom_linesWith (fun l hl => isRemark_of_isBlankLine (hblank l hl)) hfound
  have hstring' : stringBehindBlanks? (extra ++ p.below) =
      some (found.1, found.2 + extra.length) := by
    rw [stringBehindBlanks?_blanks_append hblank, hstring]
    rfl
  -- what is declared down to the line stays, and what is declared below the docstring moves
  have hds' : ds.map (p.shifted extra.length) = ds :=
    (List.map_congr_left fun d hd => p.shifted_of_le (hds d hd).le).trans (List.map_id' ds)
  have hfurther : p.number + p.signature.length + p.gap.length <
      p.number + 1 + ((p.signature ++ p.gap).length + found.2) := by
    rw [List.length_append]
    omega
  rw [hsource, hsource', p.declarationsFrom_line hclass hstring,
    p.declarationsFrom_line hclass hstring', List.map_append, List.map_cons, hds',
    p.shifted_of_le le_rfl, p.map_shifted_below hfurther, Nat.add_comm found.2,
    List.drop_length_add_append]
  congr 3
  omega

theorem ne_of_mem_declarationsFrom_linesWith {extra : List Text}
    (hextra : ∀ l ∈ extra, isRemark l = true) (hcomment : ∃ l ∈ extra, Text.isBlankLine l = false)
    (hfound : ∃ d ∈ declarationsFrom 1 [] (p.linesWith []), d.line = p.number) :
    ∀ d ∈ declarationsFrom 1 [] (p.linesWith extra), d.line ≠ p.number := by
  obtain ⟨hclass, -⟩ := p.exists_string_of_isFound hfound
  obtain ⟨ds, scopes, hds, -, hsource'⟩ := p.exists_declarationsFrom_linesWith hextra hfound
  have hnone := p.declared?_eq_none hclass
    (stringBehindBlanks?_remarks_append hextra hcomment p.below) p.number scopes
  intro d hd
  rw [hsource', declarationsFrom_cons, hnone] at hd
  rcases List.mem_append.mp hd with hd | hd
  · exact (hds d hd).ne
  · have hbehind := number_le_of_mem_declarationsFrom hd
    omega

/-- Blank lines between the signature of a function that is found and its docstring move what is
declared below and change nothing else. With a comment among the lines the function is not found. -/
theorem declarations_linesWith {source source' : Text} {extra : List Text}
    (hextra : ∀ l ∈ extra, isRemark l = true) (hlines : Text.lines source = p.linesWith [])
    (hlines' : Text.lines source' = p.linesWith extra)
    (hfound : ∃ d ∈ declarations source, d.line = p.number) :
    ((∀ l ∈ extra, Text.isBlankLine l = true) →
      declarations source' = (declarations source).map (p.shifted extra.length)) ∧
    ((∃ l ∈ extra, Text.isBlankLine l = false) →
      ∀ d ∈ declarations source', d.line ≠ p.number) := by
  simp only [declarations, hlines, hlines'] at hfound ⊢
  constructor
  · intro hblank
    exact p.declarationsFrom_linesWith_of_blank hblank hfound
  · intro hcomment
    exact p.ne_of_mem_declarationsFrom_linesWith hextra hcomment hfound

theorem declarations_linesWith_two :
    ∃ (p : DefPlace) (source source' : Text) (extra : List Text),
      (∀ l ∈ extra, isRemark l = true) ∧ (∀ l ∈ extra, Text.isBlankLine l = true) ∧
      Text.lines source = p.linesWith [] ∧ Text.lines source' = p.linesWith extra ∧
      declarations source = [⟨"f".toList, 1, "F.".toList⟩, ⟨"g".toList, 4, "G.".toList⟩] ∧
      declarations source' = [⟨"f".toList, 1, "F.".toList⟩, ⟨"g".toList, 6, "G.".toList⟩] := by
  let p : DefPlace :=
    { above := []
      line := "def f(x,".toList
      start := ⟨0, "f".toList, "(x,".toList⟩
      signature := ["      y):".toList]
      gap := []
      below := ["    '''F.'''".toList, "def g():".toList, "    '''G.'''".toList]
      defLine?_line := by decide +kernel
      extent?_params := by decide +kernel
      isBlankLine_of_mem_gap := by simp }
  let source : Text := "def f(x,\n      y):\n    '''F.'''\ndef g():\n    '''G.'''".toList
  let source' : Text := "def f(x,\n      y):\n\n  \n    '''F.'''\ndef g():\n    '''G.'''".toList
  let extra : List Text := [[], "  ".toList]
  have hextra : ∀ l ∈ extra, isRemark l = true := by decide +kernel
  have hblank : ∀ l ∈ extra, Text.isBlankLine l = true := by decide +kernel
  have hlines : Text.lines source = p.linesWith [] := by decide +kernel
  have hlines' : Text.lines source' = p.linesWith extra := by decide +kernel
  have hsource : declarations source =
      [⟨"f".toList, 1, "F.".toList⟩, ⟨"g".toList, 4, "G.".toList⟩] := by decide +kernel
  have hfound : ∃ d ∈ declarations source, d.line = p.number := by
    rw [hsource]
    exact ⟨_, List.mem_cons_self .., rfl⟩
  have hmoved := (declarations_linesWith p hextra hlines hlines' hfound).1 hblank
  refine ⟨p, source, source', extra, hextra, hblank, hlines, hlines', hsource, ?_⟩
  rw [hmoved, hsource]
  rfl

/-- A comment behind the signature hides the docstring. -/
theorem declarations_comment_inserted :
    ¬ ∀ (p : DefPlace) (source source' : Text) (extra : List Text),
      (∀ l ∈ extra, isRemark l = true) → Text.lines source = p.linesWith [] →
      Text.lines source' = p.linesWith extra → (∃ d ∈ declarations source, d.line = p.number) →
      declarations source' = (declarations source).map (p.shifted extra.length) := by
  let p : DefPlace :=
    { above := []
      line := "def f():".toList
      start := ⟨0, "f".toList, "():".toList⟩
      signature := []
      gap := []
      below := ["    \"\"\"Doc.\"\"\"".toList]
      defLine?_line := by decide +kernel
      extent?_params := by decide +kernel
      isBlankLine_of_mem_gap := by simp }
  intro hinserted
  have hsource : declarations "def f():\n    \"\"\"Doc.\"\"\"\n".toList =
      [⟨"f".toList, 1, "Doc.".toList⟩] := by decide +kernel
  have hsource' : declarations "def f():\n    # note\n    \"\"\"Doc.\"\"\"\n".toList = [] := by
    decide +kernel
  have hsame := hinserted p "def f():\n    \"\"\"Doc.\"\"\"\n".toList
    "def f():\n    # note\n    \"\"\"Doc.\"\"\"\n".toList ["    # note".toList]
    (by decide +kernel) (by decide +kernel) (by decide +kernel)
    (by rw [hsource]; exact ⟨_, List.mem_cons_self .., rfl⟩)
  rw [hsource, hsource'] at hsame
  cases hsame

end DocComment.TripleQuoted.DefPlace
