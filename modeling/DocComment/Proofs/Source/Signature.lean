import DocComment.Proofs.Text.Trim
import DocComment.Source.Signature

/-!
The search for the end of a signature as a scan with one state. The brackets are counted first and
the colon is looked for behind them, and both go on from line to line with nothing but the code of
the next line; so the lines that a signature takes settle its end, and lines without code do not
matter to it.
-/

namespace DocComment.Signature

/-- How far a signature has been read. -/
inductive Progress where
  /-- The parameter list is open, or does not start yet. -/
  | inside (depth : Nat)
  /-- The parameter list has ended, and no colon has come. -/
  | behind
  /-- A colon ends the line. -/
  | complete
  /-- Something follows the colon on its line. -/
  | broken
deriving DecidableEq, Repr

namespace Progress

/-- What has been read with the rest of a line behind the parameter list. -/
def ofTail (tail : Text) : Progress :=
  if (Text.trim tail).getLast? = some ':' then complete
  else if ':' ∈ Text.trim tail then broken
  else behind

/-- What has been read with the code of one more line. -/
def read (code : Text) : Progress → Progress
  | inside depth =>
    match closing depth .code code with
    | .closed tail => ofTail tail
    | .unclosed depth => inside depth
  | behind => ofTail code
  | p => p

end Progress

/-- How many further lines it takes until the signature is complete. -/
def further? : Progress → List Text → Option Nat
  | .complete, _ => some 0
  | _, [] => none
  | p, line :: rest => (further? (p.read (uncommented line)) rest).map (· + 1)

variable {p : Progress} {line : Text} {rest above below : List Text} {k : Nat}

theorem further?_complete (rest : List Text) : further? .complete rest = some 0 := by
  cases rest <;> rfl

theorem further?_nil (hp : p ≠ .complete) : further? p [] = none := by
  cases p with
  | complete => exact absurd rfl hp
  | inside | behind | broken => rfl

theorem further?_cons (hp : p ≠ .complete) (line : Text) (rest : List Text) :
    further? p (line :: rest) = (further? (p.read (uncommented line)) rest).map (· + 1) := by
  cases p with
  | complete => exact absurd rfl hp
  | inside | behind | broken => rfl

theorem further?_broken (rest : List Text) : further? .broken rest = none := by
  induction rest with
  | nil => rfl
  | cons line rest ih => exact Option.map_eq_none_iff.mpr ih

theorem colonOffset?_eq_further? (tail : Text) (rest : List Text) :
    colonOffset? tail rest = further? (.ofTail tail) rest := by
  induction rest generalizing tail with
  | nil =>
      rw [colonOffset?.eq_def, Progress.ofTail]
      dsimp only
      split
      · rfl
      · split <;> rfl
  | cons line rest ih =>
      rw [colonOffset?.eq_def, Progress.ofTail]
      dsimp only
      split
      · rfl
      · split
        · exact (further?_broken _).symm
        · rw [ih]
          rfl

theorem extentFrom?_eq_further? (depth : Nat) (code : Text) (rest : List Text) :
    extentFrom? depth code rest = further? ((Progress.inside depth).read code) rest := by
  induction rest generalizing depth code with
  | nil =>
      rw [extentFrom?.eq_def, Progress.read]
      cases closing depth .code code with
      | closed tail => exact colonOffset?_eq_further? tail []
      | unclosed depth => rfl
  | cons line rest ih =>
      rw [extentFrom?.eq_def, Progress.read]
      cases closing depth .code code with
      | closed tail => exact colonOffset?_eq_further? tail (line :: rest)
      | unclosed depth => exact congrArg (Option.map (· + 1)) (ih depth (uncommented line))

theorem extent?_eq_further? (params : Text) (rest : List Text) :
    extent? params rest = further? ((Progress.inside 0).read (uncommented params)) rest :=
  extentFrom?_eq_further? 0 (uncommented params) rest

theorem further?_le_length (h : further? p rest = some k) : k ≤ rest.length := by
  induction rest generalizing p k with
  | nil =>
      by_cases hp : p = .complete
      · rw [hp, further?_complete] at h
        cases h
        exact le_rfl
      · rw [further?_nil hp] at h
        cases h
  | cons line rest ih =>
      by_cases hp : p = .complete
      · rw [hp, further?_complete] at h
        cases h
        exact Nat.zero_le _
      · rw [further?_cons hp, Option.map_eq_some_iff] at h
        obtain ⟨j, hj, rfl⟩ := h
        exact Nat.succ_le_succ (ih hj)

/-- A signature ends within the source. -/
theorem extent?_le_length {params : Text} (h : extent? params rest = some k) :
    k ≤ rest.length := by
  rw [extent?_eq_further?] at h
  exact further?_le_length h

theorem further?_append (h : further? p (above ++ below) = some k) (hk : k ≤ above.length)
    (below' : List Text) : further? p (above ++ below') = some k := by
  induction above generalizing p k with
  | nil =>
      obtain rfl := Nat.le_zero.mp hk
      by_cases hp : p = .complete
      · rw [hp, further?_complete]
      · cases below with
        | nil => simp [further?_nil hp] at h
        | cons line below => simp [further?_cons hp] at h
  | cons line above ih =>
      by_cases hp : p = .complete
      · rw [hp, further?_complete] at h ⊢
        exact h
      · rw [List.cons_append, further?_cons hp, Option.map_eq_some_iff] at h ⊢
        obtain ⟨j, hj, rfl⟩ := h
        exact ⟨j, ih hj (Nat.le_of_succ_le_succ hk), rfl⟩

/-- A signature that ends above a place does not depend on the lines below. -/
theorem extent?_append {params : Text} (h : extent? params (above ++ below) = some k)
    (hk : k ≤ above.length) (below' : List Text) : extent? params (above ++ below') = some k := by
  rw [extent?_eq_further?] at h ⊢
  exact further?_append h hk below'

theorem isQuote_of_isBlank {c : Char} (h : Text.isBlank c = true) :
    isQuote c = false ∧ isOpener c = false ∧ isCloser c = false ∧ c ≠ '#' := by
  have hne (b : Char) (hb : Text.isBlank b = false) : c ≠ b := by
    rintro rfl
    rw [h] at hb
    cases hb
  simp [isQuote, isOpener, isCloser, hne '"' (by decide), hne '\'' (by decide),
    hne '(' (by decide), hne '[' (by decide), hne '\x7b' (by decide), hne ')' (by decide),
    hne ']' (by decide), hne '\x7d' (by decide), hne '#' (by decide)]

theorem uncommentedFrom_blank_append {w : Text} (hw : Text.isBlankLine w = true) (t : Text) :
    uncommentedFrom none (w ++ t) = w ++ uncommentedFrom none t := by
  induction w with
  | nil => rfl
  | cons c w ih =>
      obtain ⟨hc, hw⟩ := Text.isBlankLine_cons_iff.mp hw
      obtain ⟨hquote, -, -, hhash⟩ := isQuote_of_isBlank hc
      rw [List.cons_append, uncommentedFrom, if_neg hhash, hquote]
      exact congrArg (c :: ·) (ih hw)

theorem closing_of_isBlankLine {code : Text} (h : Text.isBlankLine code = true) (depth : Nat) :
    closing depth .code code = .unclosed depth := by
  induction code with
  | nil => rfl
  | cons c code ih =>
      obtain ⟨hc, hcode⟩ := Text.isBlankLine_cons_iff.mp h
      obtain ⟨hquote, hopener, hcloser, -⟩ := isQuote_of_isBlank hc
      simp only [closing, hopener, hcloser, Place.next, hquote]
      simpa using ih hcode

theorem Progress.read_of_isBlankLine {code : Text} (h : Text.isBlankLine code = true)
    (p : Progress) : p.read code = p := by
  cases p with
  | inside depth => rw [read, closing_of_isBlankLine h]
  | behind => simp [read, ofTail, Text.trim_eq_nil_iff.mpr h]
  | complete | broken => rfl

/-- A line without code between the others does not complete a signature. -/
theorem further?_insert (hline : Text.isBlankLine (uncommented line) = true)
    (h : further? p (above ++ below) = none) : further? p (above ++ line :: below) = none := by
  induction above generalizing p with
  | nil =>
      have hp : p ≠ .complete := by
        rintro rfl
        simp [further?_complete] at h
      rw [List.nil_append, further?_cons hp, p.read_of_isBlankLine hline]
      exact Option.map_eq_none_iff.mpr h
  | cons l above ih =>
      have hp : p ≠ .complete := by
        rintro rfl
        simp [further?_complete] at h
      rw [List.cons_append, further?_cons hp, Option.map_eq_none_iff] at h ⊢
      exact ih h

/-- Lines without code do not complete a signature. -/
theorem extent?_insert {params : Text} {extra : List Text}
    (hextra : ∀ l ∈ extra, Text.isBlankLine (uncommented l) = true)
    (h : extent? params (above ++ below) = none) :
    extent? params (above ++ (extra ++ below)) = none := by
  rw [extent?_eq_further?] at h ⊢
  induction extra with
  | nil => exact h
  | cons l extra ih =>
      obtain ⟨hl, hextra⟩ := List.forall_mem_cons.mp hextra
      exact further?_insert hl (ih hextra)

end DocComment.Signature
