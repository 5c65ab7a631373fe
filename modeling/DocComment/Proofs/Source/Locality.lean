import DocComment.Proofs.Source.Signature
import DocComment.Proofs.Source.Visits

/-!
How far the reader looks ahead. The signature and the docstring behind a `def` are settled by the
lines that they take: if these stand above a place, the lines below it have no say. Only a
signature that is never closed is looked for to the end of the source.
-/

namespace DocComment.TripleQuoted

variable {delimiter line next : Text} {above below rest below' : List Text} {number : Nat}
  {d : DefLine}

theorem upTo_append_cons (hbelow : below ≠ [])
    (h : (upTo delimiter (above ++ below)).2 ≤ above.length) (below' : List Text) :
    upTo delimiter (above ++ below') = upTo delimiter (above ++ below) := by
  induction above with
  | nil =>
      obtain ⟨line, rest, rfl⟩ := List.exists_cons_of_ne_nil hbelow
      rw [List.nil_append, upTo] at h
      cases hfront : Text.before? delimiter line with
      | some front => simp [hfront] at h
      | none => simp [hfront] at h
  | cons line above ih =>
      rw [List.cons_append, upTo] at h ⊢
      cases hfront : Text.before? delimiter line with
      | some front => simp only [List.cons_append, upTo, hfront]
      | none =>
          rw [hfront] at h
          have hsame := ih (Nat.le_of_succ_le_succ h)
          simp only [List.cons_append, upTo, hfront, hsame]

/-- The docstring behind blank lines, and how many lines it takes together with them. -/
def stringBehindBlanks? : List Text → Option (Text × Nat)
  | [] => none
  | line :: rest =>
    if Text.isBlankLine line then
      (stringBehindBlanks? rest).map fun found => (found.1, found.2 + 1)
    else docstring? (line :: rest)

theorem stringBehindBlanks?_of_blank (h : Text.isBlankLine line = true) (rest : List Text) :
    stringBehindBlanks? (line :: rest) =
      (stringBehindBlanks? rest).map fun found => (found.1, found.2 + 1) := by
  rw [stringBehindBlanks?, if_pos h]

theorem stringBehindBlanks?_of_not_blank (h : Text.isBlankLine line = false)
    (rest : List Text) : stringBehindBlanks? (line :: rest) = docstring? (line :: rest) := by
  rw [stringBehindBlanks?, h]
  rfl

theorem stringBehindBlanks?_eq (body : List Text) :
    stringBehindBlanks? body =
      (docstring? (body.drop (body.takeWhile Text.isBlankLine).length)).map fun found =>
        (found.1, (body.takeWhile Text.isBlankLine).length + found.2) := by
  induction body with
  | nil => rfl
  | cons line rest ih =>
      cases hline : Text.isBlankLine line with
      | true =>
          rw [stringBehindBlanks?_of_blank hline, ih, Option.map_map,
            List.takeWhile_cons_of_pos hline, List.length_cons, List.drop_succ_cons]
          congr 1
          funext found
          simp only [Function.comp_apply, Nat.add_right_comm]
      | false =>
          rw [stringBehindBlanks?_of_not_blank hline,
            List.takeWhile_cons_of_neg (by simp [hline])]
          simp

theorem commentAfter_of_none (h : Signature.extent? d.params rest = none) :
    commentAfter d rest = (none, 0) := by
  rw [commentAfter, h]

theorem commentAfter_of_some {signature : Nat}
    (h : Signature.extent? d.params rest = some signature) :
    commentAfter d rest = match stringBehindBlanks? (rest.drop signature) with
      | none => (none, signature)
      | some found => (some found.1, signature + found.2) := by
  rw [commentAfter, h, stringBehindBlanks?_eq]
  dsimp only
  cases docstring? _ with
  | none => rfl
  | some found => simp only [Option.map_some, Nat.add_assoc]

theorem extent?_le_commentAfter {signature : Nat}
    (h : Signature.extent? d.params rest = some signature) :
    signature ≤ (commentAfter d rest).2 := by
  rw [commentAfter_of_some h]
  cases stringBehindBlanks? (rest.drop signature) with
  | none => exact le_rfl
  | some found => exact Nat.le_add_right ..

theorem docstring?_of_none (h : opening? line = none) (rest : List Text) :
    docstring? (line :: rest) = none := by
  rw [docstring?, h]
  rfl

theorem docstring?_of_some {first : Text} (h : opening? line = some (delimiter, first))
    (rest : List Text) :
    docstring? (line :: rest) =
      some (['\n'].intercalate (upTo delimiter (first :: rest)).1,
        (upTo delimiter (first :: rest)).2) := by
  rw [docstring?, h]
  rfl

theorem one_le_upTo (delimiter line : Text) (rest : List Text) :
    1 ≤ (upTo delimiter (line :: rest)).2 := by
  rw [upTo]
  cases Text.before? delimiter line <;> simp

/-- A docstring that ends above a place does not depend on the lines below. -/
theorem docstring?_append (hbelow : below ≠ [])
    (h : ∀ found ∈ docstring? (line :: (above ++ below)), found.2 ≤ above.length + 1)
    (below' : List Text) :
    docstring? (line :: (above ++ below')) = docstring? (line :: (above ++ below)) := by
  cases hopening : opening? line with
  | none => rw [docstring?_of_none hopening, docstring?_of_none hopening]
  | some opened =>
      obtain ⟨delimiter, first⟩ := opened
      rw [docstring?_of_some hopening] at h
      have hbefore : (upTo delimiter (first :: above ++ below)).2 ≤ (first :: above).length :=
        h _ rfl
      rw [docstring?_of_some hopening, docstring?_of_some hopening, ← List.cons_append,
        ← List.cons_append, upTo_append_cons hbelow hbefore below']

/-- A docstring that ends above a place, or that the first line below cannot start, does not
depend on the other lines below. -/
theorem stringBehindBlanks?_append (hnext : Text.isBlankLine next = false)
    (h : ∀ found ∈ stringBehindBlanks? (above ++ next :: below), found.2 ≤ above.length)
    (below' : List Text) :
    stringBehindBlanks? (above ++ next :: below') =
      stringBehindBlanks? (above ++ next :: below) := by
  induction above with
  | nil =>
      simp only [List.nil_append, stringBehindBlanks?_of_not_blank hnext] at h ⊢
      cases hopening : opening? next with
      | none => rw [docstring?_of_none hopening, docstring?_of_none hopening]
      | some opened =>
          -- a string that starts below the place does not end above it
          have hnone := h _ (docstring?_of_some hopening below)
          have hsome := one_le_upTo opened.1 opened.2 below
          exact absurd (hsome.trans hnone) (Nat.not_succ_le_zero 0)
  | cons line above ih =>
      simp only [List.cons_append] at h ⊢
      cases hline : Text.isBlankLine line with
      | true =>
          simp only [stringBehindBlanks?_of_blank hline] at h ⊢
          rw [ih]
          intro found hfound
          have hle := h _ (Option.mem_map_of_mem _ hfound)
          exact Nat.le_of_succ_le_succ hle
      | false =>
          simp only [stringBehindBlanks?_of_not_blank hline] at h ⊢
          exact docstring?_append (List.cons_ne_nil next below) h (next :: below')

/-- What stands behind a `def` line is the same for two ways to go on from a place, if it is done
before the place in one of them, and if a signature that is not closed in this one is not closed in
the other either. -/
theorem commentAfter_append (hnext : Text.isBlankLine next = false)
    (hopen : Signature.extent? d.params (above ++ next :: below) = none →
      Signature.extent? d.params (above ++ next :: below') = none)
    (h : (commentAfter d (above ++ next :: below)).2 ≤ above.length) :
    commentAfter d (above ++ next :: below') = commentAfter d (above ++ next :: below) := by
  cases hextent : Signature.extent? d.params (above ++ next :: below) with
  | none => rw [commentAfter_of_none hextent, commentAfter_of_none (hopen hextent)]
  | some signature =>
      have hsignature : signature ≤ above.length := (extent?_le_commentAfter hextent).trans h
      rw [commentAfter_of_some hextent] at h
      rw [commentAfter_of_some hextent,
        commentAfter_of_some (Signature.extent?_append hextent hsignature _)]
      rw [List.drop_append_of_le_length hsignature] at h
      rw [List.drop_append_of_le_length hsignature, List.drop_append_of_le_length hsignature,
        stringBehindBlanks?_append hnext]
      intro found hfound
      rw [Option.mem_def.mp hfound] at h
      have hend : signature + found.2 ≤ above.length := h
      rw [List.length_drop]
      omega

theorem readBehind_append (hnext : Text.isBlankLine next = false)
    (hopen : ∀ d ∈ defLine? line, classLine? line = none →
      Signature.extent? d.params (above ++ next :: below) = none →
        Signature.extent? d.params (above ++ next :: below') = none)
    (h : (readBehind line (above ++ next :: below)).2 ≤ above.length) :
    readBehind line (above ++ next :: below') = readBehind line (above ++ next :: below) := by
  simp only [readBehind] at h ⊢
  split
  · next start hclass hstart =>
      simp only [hclass, hstart] at h
      exact commentAfter_append hnext (hopen start hstart hclass) h
  · rfl

/-- The reader comes through the lines `above` to the ones below, on the same way for two ways to
go on. -/
inductive PassesAlike (below below' : List Text) : List Text → Prop
  | here : PassesAlike below below' []
  | step {line : Text} {above : List Text}
      (alike : readBehind line (above ++ below') = readBehind line (above ++ below))
      (stops : (readBehind line (above ++ below)).2 ≤ above.length)
      (further : PassesAlike below below' (above.drop (readBehind line (above ++ below)).2)) :
      PassesAlike below below' (line :: above)

/-- The reader comes through the lines `above` to the ones below. -/
def Passes (below above : List Text) : Prop :=
  PassesAlike below below above

theorem passes_of_mem_visitsFrom {v : Visit} (hv : v ∈ visitsFrom number (above ++ below))
    (hnumber : v.number = number + above.length) : Passes below above := by
  -- reading goes on behind what is done with the first line, so the rest is shorter by any number
  induction hlength : above.length using Nat.strong_induction_on generalizing number above with
  | _ n ih =>
    cases above with
    | nil => exact .here
    | cons line above =>
        rw [List.cons_append, visitsFrom_cons] at hv
        rcases List.mem_cons.mp hv with rfl | hv
        · simp at hnumber
        · have hstops : (readBehind line (above ++ below)).2 ≤ above.length := by
            have := number_le_of_mem_visitsFrom hv
            rw [List.length_cons] at hnumber
            omega
          rw [List.drop_append_of_le_length hstops] at hv
          refine .step rfl hstops (ih _ ?_ hv ?_ rfl)
          · rw [List.length_drop, ← hlength, List.length_cons]
            omega
          · rw [hnumber, List.length_cons, List.length_drop]
            omega

theorem mem_toList_declared? {scopes : List Scope} {v : Visit} {d : Declaration}
    (hd : d ∈ (v.declared? scopes).toList) : d.line = v.number := by
  obtain ⟨start, -, hcomment⟩ := Option.bind_eq_some_iff.mp (Option.mem_toList.mp hd)
  obtain ⟨comment, -, rfl⟩ := Option.map_eq_some_iff.mp hcomment
  rfl

theorem declared?_congr {scopes : List Scope} {rest rest' : List Text}
    (h : readBehind line rest' = readBehind line rest) :
    (⟨number, line, rest'⟩ : Visit).declared? scopes =
      (⟨number, line, rest⟩ : Visit).declared? scopes := by
  simp only [Visit.declared?, Visit.comment?, h]

/-- Above the place the same functions are declared, and the same scopes are open at it. -/
theorem PassesAlike.exists_declarationsFrom (h : PassesAlike below below' above) (number : Nat)
    (scopes : List Scope) :
    ∃ ds scopes', (∀ d ∈ ds, d.line < number + above.length) ∧
      declarationsFrom number scopes (above ++ below) =
        ds ++ declarationsFrom (number + above.length) scopes' below ∧
      declarationsFrom number scopes (above ++ below') =
        ds ++ declarationsFrom (number + above.length) scopes' below' := by
  induction h generalizing number scopes with
  | here => exact ⟨[], scopes, by simp, rfl, rfl⟩
  | @step line above alike stops further ih =>
      obtain ⟨ds, scopes', hds, hbelow, hbelow'⟩ :=
        ih (number + 1 + (readBehind line (above ++ below)).2) (scopesBehind scopes line)
      have hnumber : number + 1 + (readBehind line (above ++ below)).2 +
          (above.drop (readBehind line (above ++ below)).2).length =
          number + (line :: above).length := by
        rw [List.length_drop, List.length_cons]
        omega
      rw [hnumber] at hds hbelow hbelow'
      refine ⟨((⟨number, line, above ++ below⟩ : Visit).declared? scopes).toList ++ ds, scopes',
        ?_, ?_, ?_⟩
      · intro d hd
        rcases List.mem_append.mp hd with hd | hd
        · have hline : d.line = number := mem_toList_declared? hd
          rw [hline, List.length_cons]
          omega
        · exact hds d hd
      · rw [List.cons_append, declarationsFrom_cons, List.drop_append_of_le_length stops, hbelow,
          List.append_assoc]
      · rw [List.cons_append, declarationsFrom_cons, declared?_congr alike, alike,
          List.drop_append_of_le_length stops, hbelow', List.append_assoc]

end DocComment.TripleQuoted
