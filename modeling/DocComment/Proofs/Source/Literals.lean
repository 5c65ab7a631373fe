import DocComment.Source.TripleQuoted

/-!
String literals on the lines of a signature. Brackets are counted with a backslash that hides the
quote behind it, and a comment is looked for without. Up to the first quote that is hidden the two
readings are in step, so that a comment is cut off where it starts. From there on what one takes for
a literal is code to the other, and a `#` in the literal is cut off as well.
-/

namespace DocComment.Signature

namespace Place

/-- Where the character behind the text stands. -/
def after (place : Place) (t : Text) : Place :=
  t.foldl (fun place c => place.next c) place

/-- The quote of the literal around the place. -/
def quote? : Place → Option Char
  | .code => none
  | .literal q | .escaped q => some q

end Place

/-- Whether a backslash in a literal stands before the quote of the literal. -/
def hidesQuote (place : Place) : Text → Bool
  | [] => false
  | c :: t => place = .escaped c || hidesQuote (place.next c) t

/-- The text up to the first `#` that stands in code. -/
def codeFrom (place : Place) : Text → Text
  | [] => []
  | c :: t => if place = .code ∧ c = '#' then [] else c :: codeFrom (place.next c) t

/-- The line ends before the first `#` that stands in code, or it is whole and there is none. -/
structure IsCutAtComment (code line : Text) : Prop where
  cases_comment : line = code ∨
    ∃ comment, line = code ++ '#' :: comment ∧ Place.code.after code = .code
  not_code : ∀ t u, code = t ++ '#' :: u → Place.code.after t ≠ .code

variable {place : Place} {c q : Char} {code line t u v : Text}

namespace Place

theorem after_cons (place : Place) (c : Char) (t : Text) :
    place.after (c :: t) = (place.next c).after t := rfl

theorem after_append (place : Place) (t u : Text) :
    place.after (t ++ u) = (place.after t).after u :=
  List.foldl_append

theorem next_of_quote?_eq_none (h : place.quote? = none) (c : Char) :
    (place.next c).quote? = if isQuote c then some c else none := by
  cases place with
  | code =>
      rw [next]
      split <;> rfl
  | literal q | escaped q => cases h

/-- A literal ends with its quote, unless this is hidden. -/
theorem next_of_quote?_eq_some (h : place.quote? = some q) (hq : isQuote q = true)
    (hshown : place ≠ .escaped c) : (place.next c).quote? = if c = q then none else some q := by
  cases place with
  | code => cases h
  | literal q' =>
      cases h
      rw [next]
      by_cases hc : c = '\\'
      · have hne : c ≠ q := by
          rintro rfl
          rw [hc] at hq
          cases hq
        rw [if_pos hc, if_neg hne]
        rfl
      · rw [if_neg hc]
        split <;> rfl
  | escaped q' =>
      cases h
      have hne : c ≠ q := fun hc => hshown (hc ▸ rfl)
      rw [if_neg hne]
      rfl

theorem isQuote_of_code : ∀ q ∈ Place.code.quote?, isQuote q = true := nofun

theorem isQuote_of_next (hplace : ∀ q ∈ place.quote?, isQuote q = true) (c : Char) :
    ∀ q ∈ (place.next c).quote?, isQuote q = true := by
  cases place with
  | code =>
      rw [next_of_quote?_eq_none rfl]
      split
      · next hc =>
          rintro q ⟨rfl⟩
          exact hc
      · nofun
  | literal q' =>
      have hq' := hplace q' rfl
      rw [next]
      split
      · rintro q ⟨rfl⟩
        exact hq'
      · split
        · nofun
        · rintro q ⟨rfl⟩
          exact hq'
  | escaped q' => exact hplace

/-- A literal goes on over a text without quotes. -/
theorem quote?_after_of_not_isQuote (hplace : place.quote? = some q) (hq : isQuote q = true)
    (ht : ∀ c ∈ t, isQuote c = false) : (place.after t).quote? = some q := by
  induction t generalizing place with
  | nil => exact hplace
  | cons c t ih =>
      obtain ⟨hc, ht⟩ := List.forall_mem_cons.mp ht
      have hne : c ≠ q := by
        rintro rfl
        rw [hq] at hc
        cases hc
      have hshown : place ≠ .escaped c := by
        rintro rfl
        exact hne (Option.some.inj hplace)
      refine ih ?_ ht
      rw [next_of_quote?_eq_some hplace hq hshown, if_neg hne]

theorem isQuote_of_after (hplace : ∀ q ∈ place.quote?, isQuote q = true) (t : Text) :
    ∀ q ∈ (place.after t).quote?, isQuote q = true := by
  induction t generalizing place with
  | nil => exact hplace
  | cons c t ih => exact ih (isQuote_of_next hplace c)

/-- A hidden quote does not end its literal. -/
theorem quote?_after_of_hidden (hhidden : Place.code.after t = .escaped q)
    (hv : ∀ c ∈ v, isQuote c = false) :
    (((Place.code.after t).next q).after v).quote? = some q := by
  have hq : isQuote q = true :=
    isQuote_of_after isQuote_of_code t q (by rw [hhidden]; rfl)
  rw [hhidden]
  exact quote?_after_of_not_isQuote rfl hq hv

end Place

theorem uncommentedFrom_cons (hplace : ∀ q ∈ place.quote?, isQuote q = true)
    (hshown : place ≠ .escaped c) (hcode : place = .code → c ≠ '#') (t : Text) :
    uncommentedFrom place.quote? (c :: t) = c :: uncommentedFrom (place.next c).quote? t := by
  cases hquote : place.quote? with
  | none =>
      have hhash : c ≠ '#' := by
        cases place with
        | code => exact hcode rfl
        | literal q | escaped q => cases hquote
      rw [uncommentedFrom, if_neg hhash, Place.next_of_quote?_eq_none hquote]
  | some q =>
      rw [uncommentedFrom, Place.next_of_quote?_eq_some hquote (hplace q hquote) hshown]

/-- As long as no quote is hidden, the search for a comment is in step with the places. -/
theorem uncommentedFrom_append (hplace : ∀ q ∈ place.quote?, isQuote q = true)
    (hshown : hidesQuote place code = false)
    (hcode : ∀ t u, code = t ++ '#' :: u → place.after t ≠ .code) (rest : Text) :
    uncommentedFrom place.quote? (code ++ rest) =
      code ++ uncommentedFrom (place.after code).quote? rest := by
  induction code generalizing place with
  | nil => rfl
  | cons c code ih =>
      rw [hidesQuote, Bool.or_eq_false_iff, decide_eq_false_iff_not] at hshown
      have hhere : place = .code → c ≠ '#' := by
        rintro rfl rfl
        exact hcode [] code rfl rfl
      have hthere : ∀ t u, code = t ++ '#' :: u → (place.next c).after t ≠ .code := by
        rintro t u rfl
        exact hcode (c :: t) u rfl
      rw [List.cons_append, uncommentedFrom_cons hplace hshown.1 hhere,
        ih (Place.isQuote_of_next hplace c) hshown.2 hthere]
      rfl

theorem uncommentedFrom_none_of_hash (t : Text) : uncommentedFrom none ('#' :: t) = [] :=
  if_pos rfl

theorem codeFrom_cases (place : Place) (line : Text) :
    line = codeFrom place line ∨ ∃ comment, line = codeFrom place line ++ '#' :: comment ∧
      place.after (codeFrom place line) = .code := by
  induction line generalizing place with
  | nil => exact .inl rfl
  | cons c line ih =>
      rw [codeFrom]
      split
      · next h =>
          obtain ⟨rfl, rfl⟩ := h
          exact .inr ⟨line, rfl, rfl⟩
      · rcases ih (place.next c) with h | ⟨comment, h, hafter⟩
        · exact .inl (congrArg (c :: ·) h)
        · exact .inr ⟨comment, congrArg (c :: ·) h, hafter⟩

theorem not_code_of_codeFrom (h : codeFrom place line = t ++ '#' :: u) :
    place.after t ≠ .code := by
  induction line generalizing place t with
  | nil => simp [codeFrom] at h
  | cons c line ih =>
      rw [codeFrom] at h
      split at h
      · simp at h
      · next hhere =>
          cases t with
          | nil =>
              rintro rfl
              exact hhere ⟨rfl, (List.cons_eq_cons.mp h).1⟩
          | cons d t =>
              obtain ⟨rfl, htail⟩ := List.cons_eq_cons.mp h
              rw [Place.after_cons]
              exact ih htail

theorem isCutAtComment_codeFrom (line : Text) : IsCutAtComment (codeFrom .code line) line :=
  ⟨codeFrom_cases .code line, fun _ _ h => not_code_of_codeFrom h⟩

theorem uncommented_of_isCutAtComment (hcut : IsCutAtComment code line)
    (hshown : hidesQuote .code code = false) : uncommented line = code := by
  have hstep (rest : Text) : uncommented (code ++ rest) =
      code ++ uncommentedFrom (Place.code.after code).quote? rest :=
    uncommentedFrom_append Place.isQuote_of_code hshown hcut.not_code rest
  rcases hcut.cases_comment with rfl | ⟨comment, rfl, hafter⟩
  · have hwhole := hstep []
    rw [List.append_nil] at hwhole
    rw [hwhole]
    cases (Place.code.after line).quote? <;> exact List.append_nil _
  · rw [hstep, hafter, Place.quote?, uncommentedFrom_none_of_hash, List.append_nil]

/-- Behind the first hidden quote the search for a comment takes the literal for code. -/
theorem uncommented_behind_hidden (hshown : hidesQuote .code t = false)
    (hcode : ∀ s w, t = s ++ '#' :: w → Place.code.after s ≠ .code)
    (hhidden : Place.code.after t = .escaped q) (hv : ∀ c ∈ v, isQuote c = false ∧ c ≠ '#')
    (rest : Text) : uncommented (t ++ q :: (v ++ '#' :: rest)) = t ++ q :: v := by
  have hplain (rest : Text) : uncommentedFrom none (v ++ '#' :: rest) = v := by
    induction v with
    | nil => exact uncommentedFrom_none_of_hash rest
    | cons c v ih =>
        obtain ⟨⟨hquote, hhash⟩, hv⟩ := List.forall_mem_cons.mp hv
        rw [List.cons_append, uncommentedFrom, if_neg hhash, hquote]
        exact congrArg (c :: ·) (ih hv)
  have hstep : uncommented (t ++ q :: (v ++ '#' :: rest)) =
      t ++ uncommentedFrom (Place.code.after t).quote? (q :: (v ++ '#' :: rest)) :=
    uncommentedFrom_append Place.isQuote_of_code hshown hcode _
  rw [hstep, hhidden, Place.quote?, uncommentedFrom, if_pos rfl, hplain]

/-- A comment is cut off where it starts, on every line on which no quote is hidden before it. Where
a quote is hidden, a `#` behind it that stands in the literal is cut off with all that follows. -/
theorem isCutAtComment_uncommented (line : Text) :
    (hidesQuote .code (codeFrom .code line) = false → IsCutAtComment (uncommented line) line) ∧
    ∀ t q v u, codeFrom .code line = t ++ q :: (v ++ '#' :: u) → hidesQuote .code t = false →
      Place.code.after t = .escaped q → (∀ c ∈ v, isQuote c = false ∧ c ≠ '#') →
      uncommented line = t ++ q :: v ∧ ¬ IsCutAtComment (uncommented line) line := by
  have hcut := isCutAtComment_codeFrom line
  constructor
  · intro hshown
    rw [uncommented_of_isCutAtComment hcut hshown]
    exact hcut
  · intro t q v u hcode hshown hhidden hv
    have hbefore : ∀ s w, t = s ++ '#' :: w → Place.code.after s ≠ .code := by
      rintro s w rfl
      exact hcut.not_code s (w ++ q :: (v ++ '#' :: u)) (by rw [hcode]; simp)
    obtain ⟨rest, hline⟩ : ∃ rest, line = t ++ q :: (v ++ '#' :: rest) := by
      rcases hcut.cases_comment with h | ⟨comment, h, -⟩
      · exact ⟨u, h.trans hcode⟩
      · exact ⟨u ++ '#' :: comment, by rw [h, hcode]; simp⟩
    have huncommented : uncommented line = t ++ q :: v := by
      rw [hline]
      exact uncommented_behind_hidden hshown hbefore hhidden hv rest
    refine ⟨huncommented, ?_⟩
    rw [huncommented]
    intro hends
    rcases hends.cases_comment with hwhole | ⟨comment, -, hafter⟩
    · have hlength := congrArg List.length (hwhole.symm.trans hline)
      simp at hlength
    -- the `#` stands in the literal that the hidden quote has not ended
    · have hinside := Place.quote?_after_of_hidden hhidden fun c hc => (hv c hc).1
      rw [← Place.after_cons, ← Place.after_append, hafter] at hinside
      cases hinside

theorem isCutAtComment_uncommented_hidden :
    ∃ shown hidden : Text, shown = "(a=\"\\\\\", b='#'):  # it's".toList ∧
      hidden = "(a='it\\'s #1', b=2):".toList ∧
      IsCutAtComment (uncommented shown) shown ∧
      uncommented shown = "(a=\"\\\\\", b='#'):  ".toList ∧
      uncommented hidden = "(a='it\\'s ".toList ∧
      ¬ IsCutAtComment (uncommented hidden) hidden := by
  let shown : Text := "(a=\"\\\\\", b='#'):  # it's".toList
  let hidden : Text := "(a='it\\'s #1', b=2):".toList
  have hshown := (isCutAtComment_uncommented shown).1 (by decide +kernel)
  obtain ⟨hcut, hwrong⟩ := (isCutAtComment_uncommented hidden).2 "(a='it\\".toList '\''
    "s ".toList "1', b=2):".toList (by decide +kernel) (by decide +kernel) (by decide +kernel)
    (by simp [isQuote])
  exact ⟨shown, hidden, rfl, rfl, hshown, by decide +kernel, hcut, hwrong⟩

/-- The signature ends in the literal that holds an escaped quote and a `#`, and its function is
lost. -/
theorem not_isCutAtComment_uncommented :
    (¬ ∀ line, IsCutAtComment (uncommented line) line) ∧
      TripleQuoted.declarations
        "def f(a=\"\\\"#\"):\n    \"\"\"Doc.\"\"\"\n".toList = [] := by
  constructor
  · intro h
    let line : Text := "(a=\"\\\"#\"):".toList
    have huncommented : uncommented line = "(a=\"\\\"".toList := by decide +kernel
    have hcut := h line
    rw [huncommented] at hcut
    rcases hcut.cases_comment with hwhole | ⟨comment, -, hafter⟩
    · exact absurd hwhole (by decide +kernel)
    · exact absurd hafter (by decide +kernel)
  · decide +kernel

end DocComment.Signature
