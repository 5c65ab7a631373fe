import DocComment.Text.Blank
import DocComment.Text.Word
import Mathlib.Data.List.DropRight
import Mathlib.Data.List.TakeWhile

/-!
White space around a text: trimming removes it and nothing else, and what is trimmed does not
depend on how much there was. White space and word characters are disjoint.
-/

namespace DocComment.Text

variable {t u w : Text}

theorem mem_of_isBlankLine (hw : isBlankLine w = true) : ∀ c ∈ w, isBlank c = true :=
  List.all_eq_true.mp hw

theorem isBlankLine_append (u w : Text) :
    isBlankLine (u ++ w) = (isBlankLine u && isBlankLine w) := List.all_append

theorem isBlankLine_cons_iff {c : Char} :
    isBlankLine (c :: w) = true ↔ isBlank c = true ∧ isBlankLine w = true := by
  rw [isBlankLine, List.all_cons, Bool.and_eq_true, isBlankLine]

theorem isBlankLine_of_mem_filter (ls : List Text) :
    ∀ l ∈ ls.filter (!isBlankLine ·), isBlankLine l = false := by
  intro l hl
  simpa using (List.mem_filter.mp hl).2

theorem trimStart_eq_nil_iff : trimStart t = [] ↔ isBlankLine t = true := by
  rw [trimStart, List.dropWhile_eq_nil_iff, isBlankLine, List.all_eq_true]

theorem trimStart_blank_append (hw : isBlankLine w = true) (t : Text) :
    trimStart (w ++ t) = trimStart t :=
  List.dropWhile_append_of_pos (mem_of_isBlankLine hw)

theorem trimStart_append (ht : isBlankLine t = false) (u : Text) :
    trimStart (t ++ u) = trimStart t ++ u := by
  have hne : trimStart t ≠ [] := by
    intro h
    rw [trimStart_eq_nil_iff.mp h] at ht
    cases ht
  have hempty : (trimStart t).isEmpty = false := List.isEmpty_eq_false_iff.mpr hne
  simp only [trimStart] at hempty ⊢
  rw [List.dropWhile_append, hempty]
  rfl

theorem trimEnd_append_blank (t : Text) (hw : isBlankLine w = true) :
    trimEnd (t ++ w) = trimEnd t := by
  unfold trimEnd
  rw [List.reverse_append, List.dropWhile_append_of_pos]
  intro c hc
  exact mem_of_isBlankLine hw c (List.mem_reverse.mp hc)

theorem trimEnd_append (t : Text) (hu : isBlankLine u = false) :
    trimEnd (t ++ u) = t ++ trimEnd u := by
  have hrev : isBlankLine u.reverse = false := by rw [isBlankLine, List.all_reverse]; exact hu
  have h : trimStart (u.reverse ++ t.reverse) = trimStart u.reverse ++ t.reverse :=
    trimStart_append hrev t.reverse
  simp only [trimStart] at h
  rw [trimEnd, List.reverse_append, h, List.reverse_append, List.reverse_reverse, trimEnd]

theorem trimEnd_eq_nil_iff : trimEnd t = [] ↔ isBlankLine t = true := by
  rw [isBlankLine, List.all_eq_true]
  exact List.rdropWhile_eq_nil_iff

theorem isBlankLine_trimStart (t : Text) : isBlankLine (trimStart t) = isBlankLine t := by
  cases ht : isBlankLine t with
  | true => rw [trimStart_eq_nil_iff.mpr ht]; rfl
  | false =>
      cases hs : isBlankLine (trimStart t) with
      | false => rfl
      | true =>
          have hnil : trimStart (trimStart t) = [] := trimStart_eq_nil_iff.mpr hs
          have hsame : trimStart (trimStart t) = trimStart t := List.dropWhile_idempotent _ _
          rw [hsame, trimStart_eq_nil_iff, ht] at hnil
          cases hnil

theorem trim_eq_nil_iff : trim t = [] ↔ isBlankLine t = true := by
  rw [trim, trimEnd_eq_nil_iff, isBlankLine_trimStart]

theorem isEmpty_trim (t : Text) : (trim t).isEmpty = isBlankLine t := by
  rw [Bool.eq_iff_iff, List.isEmpty_iff, trim_eq_nil_iff]

theorem trim_blank_append (hw : isBlankLine w = true) (t : Text) : trim (w ++ t) = trim t :=
  congrArg trimEnd (trimStart_blank_append hw t)

theorem trim_append_blank (t : Text) (hw : isBlankLine w = true) : trim (t ++ w) = trim t := by
  cases ht : isBlankLine t with
  | true =>
      have hboth : isBlankLine (t ++ w) = true := by rw [isBlankLine_append, ht, hw]; rfl
      rw [trim_eq_nil_iff.mpr hboth, trim_eq_nil_iff.mpr ht]
  | false => rw [trim, trimStart_append ht, trimEnd_append_blank _ hw, trim]

theorem trim_prefix_trim_append (t u : Text) : trim t <+: trim (t ++ u) := by
  cases ht : isBlankLine t with
  | true =>
      rw [trim_eq_nil_iff.mpr ht]
      exact List.nil_prefix
  | false =>
      cases hu : isBlankLine u with
      | true => exact ⟨[], by rw [List.append_nil, trim_append_blank t hu]⟩
      | false =>
          have hkept : trim (t ++ u) = trimStart t ++ trimEnd u := by
            rw [trim, trimStart_append ht, trimEnd_append _ hu]
          have hstart : trim t <+: trimStart t := List.rdropWhile_prefix isBlank (trimStart t)
          rw [hkept]
          exact hstart.trans (List.prefix_append ..)

/-- A text is its trimmed form between two pieces of white space. -/
theorem exists_eq_append_trim (t : Text) :
    ∃ v w, isBlankLine v = true ∧ isBlankLine w = true ∧ t = v ++ trim t ++ w := by
  refine ⟨t.takeWhile isBlank, (trimStart t).rtakeWhile isBlank, List.all_takeWhile, ?_, ?_⟩
  · exact List.all_eq_true.mpr fun c hc => List.mem_rtakeWhile_imp hc
  · have hend : trim t ++ (trimStart t).rtakeWhile isBlank = trimStart t :=
      List.rdropWhile_append_rtakeWhile
    rw [List.append_assoc, hend]
    exact List.takeWhile_append_dropWhile.symm

theorem exists_eq_trimEnd_append (t : Text) : ∃ w, isBlankLine w = true ∧ t = trimEnd t ++ w := by
  refine ⟨t.rtakeWhile isBlank, List.all_eq_true.mpr fun c hc => List.mem_rtakeWhile_imp hc, ?_⟩
  exact List.rdropWhile_append_rtakeWhile.symm

theorem not_mem_trimEnd {c : Char} (h : c ∉ t) : c ∉ trimEnd t := by
  intro hc
  obtain ⟨w, -, ht⟩ := exists_eq_trimEnd_append t
  rw [ht] at h
  exact h (List.mem_append_left w hc)

theorem not_mem_trim {c : Char} (h : c ∉ t) : c ∉ trim t := by
  intro hc
  obtain ⟨v, w, -, -, ht⟩ := exists_eq_append_trim t
  rw [ht] at h
  exact h (List.mem_append_left w (List.mem_append_right v hc))

/-- Trimming takes none of the other characters. -/
theorem count_trim {c : Char} (hc : isBlank c = false) (t : Text) :
    (trim t).count c = t.count c := by
  obtain ⟨v, w, hv, hw, ht⟩ := exists_eq_append_trim t
  have hnone {b : Text} (hb : isBlankLine b = true) : b.count c = 0 := by
    apply List.count_eq_zero_of_not_mem
    intro hmem
    simp [mem_of_isBlankLine hb c hmem] at hc
  have hcount := congrArg (List.count c) ht
  simp only [List.count_append, hnone hv, hnone hw] at hcount
  omega

@[simp] theorem trim_trim (t : Text) : trim (trim t) = trim t := by
  obtain ⟨v, w, hv, hw, ht⟩ := exists_eq_append_trim t
  have h : trim (v ++ trim t ++ w) = trim (trim t) := by
    rw [trim_append_blank _ hw, trim_blank_append hv]
  rw [← h, ← ht]

theorem isBlankLine_trim (t : Text) : isBlankLine (trim t) = isBlankLine t := by
  rw [← isEmpty_trim, trim_trim, isEmpty_trim]

theorem isIndented_append (ht : t ≠ []) (u : Text) : isIndented (t ++ u) = isIndented t := by
  cases t with
  | nil => exact absurd rfl ht
  | cons c t => rfl

theorem isIndented_of_isBlankLine (hw : isBlankLine w = true) (hne : w ≠ []) :
    isIndented w = true := by
  cases w with
  | nil => exact absurd rfl hne
  | cons c w => exact mem_of_isBlankLine hw c (List.mem_cons_self ..)

theorem isIndented_trimStart (t : Text) : isIndented (trimStart t) = false := by
  have h := List.head?_dropWhile_not isBlank t
  cases hs : trimStart t with
  | nil => rfl
  | cons c s =>
      rw [trimStart] at hs
      rw [hs] at h
      simpa [isIndented] using h

theorem isIndented_trim (t : Text) : isIndented (trim t) = false := by
  have hpre : trim t <+: trimStart t := List.rdropWhile_prefix isBlank (trimStart t)
  obtain ⟨s, hs⟩ := hpre
  cases ht : trim t with
  | nil => rfl
  | cons c r =>
      have h := isIndented_trimStart t
      rw [← hs, ht] at h
      exact h

theorem isBlank_of_mem_getLast?_trim {c : Char} (hc : c ∈ (trim t).getLast?) :
    isBlank c = false := by
  have h := List.head?_dropWhile_not isBlank (trimStart t).reverse
  rw [trim, trimEnd, List.getLast?_reverse] at hc
  rw [Option.mem_def.mp hc] at h
  exact h

/-- Tables without a common code point decide disjoint classes. -/
theorem inRanges_eq_false {s r : List (Nat × Nat)} {c : Char}
    (hsr : s.all (fun p => r.all fun q => p.2 < q.1 || q.2 < p.1) = true)
    (hs : inRanges s c = true) : inRanges r c = false := by
  obtain ⟨p, hp, hpc⟩ := List.any_eq_true.mp hs
  rw [inRanges, List.any_eq_false]
  intro q hq
  have hpq := List.all_eq_true.mp (List.all_eq_true.mp hsr p hp) q hq
  simp only [Bool.or_eq_true, Bool.and_eq_true, decide_eq_true_eq] at hpc hpq ⊢
  omega

/-- The code points of ASCII word characters. -/
def asciiWordRanges : List (Nat × Nat) :=
  [(0x30, 0x39), (0x41, 0x5A), (0x5F, 0x5F), (0x61, 0x7A)]

theorem inRanges_asciiWordRanges {c : Char} (h : (c.isAlphanum || c = '_') = true) :
    inRanges asciiWordRanges c = true := by
  delta Char.isAlphanum Char.isAlpha Char.isUpper Char.isLower Char.isDigit at h
  simp only [Bool.or_eq_true, Bool.and_eq_true, decide_eq_true_eq, ge_iff_le,
    UInt32.le_iff_toNat_le] at h
  change (((65 ≤ c.toNat ∧ c.toNat ≤ 90) ∨ (97 ≤ c.toNat ∧ c.toNat ≤ 122)) ∨
    (48 ≤ c.toNat ∧ c.toNat ≤ 57)) ∨ c = '_' at h
  simp only [inRanges, asciiWordRanges, List.any_cons, List.any_nil, Bool.or_eq_true,
    Bool.and_eq_true, decide_eq_true_eq, Bool.false_eq_true, or_false]
  rcases h with h | rfl
  · omega
  · decide

theorem isWord_of_isBlank {c : Char} (h : isBlank c = true) : isWord c = false := by
  have hword : inRanges wordRanges c = false := inRanges_eq_false (by decide +kernel) h
  have hascii : inRanges asciiWordRanges c = false := inRanges_eq_false (by decide) h
  rw [isWord, hword, Bool.and_false, Bool.or_false]
  cases ha : (c.isAlphanum || c = '_') with
  | false => rfl
  | true =>
      rw [inRanges_asciiWordRanges ha] at hascii
      cases hascii

theorem isBlank_of_isWord {c : Char} (h : isWord c = true) : isBlank c = false := by
  cases hb : isBlank c with
  | false => rfl
  | true =>
      rw [isWord_of_isBlank hb] at h
      cases h

theorem isBlank_of_isIndent {c : Char} (h : isIndent c = true) : isBlank c = true := by
  rw [isIndent, Bool.or_eq_true, decide_eq_true_eq, decide_eq_true_eq] at h
  rcases h with rfl | rfl <;> decide

theorem isIndent_of_isWord {c : Char} (h : isWord c = true) : isIndent c = false := by
  cases hi : isIndent c with
  | false => rfl
  | true =>
      have hb := isBlank_of_isWord h
      rw [isBlank_of_isIndent hi] at hb
      cases hb

end DocComment.Text
