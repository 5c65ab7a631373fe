import DocComment.Comment.KeyLine
import DocComment.Proofs.Text.Search
import DocComment.Proofs.Text.Trim

/-!
What a key line is read as. White space around the line does not count, and a line written as a
name, perhaps an annotation, and a colon is read back as that name and the text after the colon.
-/

namespace DocComment.KeyLine

variable {line key rest w : Text}

theorem isKeyChar_of_isBlank {c : Char} (h : Text.isBlank c = true) : isKeyChar c = false := by
  have hdot : c ≠ '.' := by
    rintro rfl
    cases h
  rw [isKeyChar, Text.isWord_of_isBlank h, decide_eq_false hdot]
  rfl

theorem isBlank_of_isKeyChar {c : Char} (h : isKeyChar c = true) : Text.isBlank c = false := by
  cases hb : Text.isBlank c with
  | false => rfl
  | true =>
      rw [isKeyChar_of_isBlank hb] at h
      cases h

theorem not_mem_of_isBlankLine (hw : Text.isBlankLine w = true) {c : Char}
    (hc : Text.isBlank c = false) : c ∉ w := by
  intro h
  rw [Text.mem_of_isBlankLine hw c h] at hc
  cases hc

/-- White space after the line changes the description by white space only. -/
theorem description?_append_blank (hw : Text.isBlankLine w = true) (t : Text) :
    (description? (Text.trimStart (t ++ w))).map Text.trim =
      (description? (Text.trimStart t)).map Text.trim := by
  cases ht : Text.isBlankLine t with
  | true =>
      have htw : Text.isBlankLine (t ++ w) = true := by rw [Text.isBlankLine_append, ht, hw]; rfl
      rw [Text.trimStart_eq_nil_iff.mpr htw, Text.trimStart_eq_nil_iff.mpr ht]
  | false =>
      rw [Text.trimStart_append ht]
      cases hs : Text.trimStart t with
      | nil =>
          rw [Text.trimStart_eq_nil_iff, ht] at hs
          cases hs
      | cons c s =>
          by_cases hcolon : c = ':'
          · subst hcolon
            exact congrArg some (Text.trim_append_blank s hw)
          · by_cases hopen : c = '('
            · subst hopen
              have hnone : ':' ∉ w := not_mem_of_isBlankLine hw (by decide)
              change (Text.afterLast? [')', ':'] (s ++ w)).map Text.trim =
                (Text.afterLast? [')', ':'] s).map Text.trim
              rw [Text.afterLast?_pair_append hnone, Option.map_map]
              congr 1
              funext d
              exact Text.trim_append_blank d hw
            · simp [description?, hcolon, hopen]

theorem takeWhile_isKeyChar_append (hw : Text.isBlankLine w = true) (t : Text) :
    (t ++ w).takeWhile isKeyChar = t.takeWhile isKeyChar ∧
      (t ++ w).dropWhile isKeyChar = t.dropWhile isKeyChar ++ w := by
  induction t with
  | nil =>
      cases w with
      | nil => exact ⟨rfl, rfl⟩
      | cons c w =>
          have hc := isKeyChar_of_isBlank (Text.mem_of_isBlankLine hw c (List.mem_cons_self ..))
          simp [hc]
  | cons c t ih => cases hc : isKeyChar c <;> simp [hc, ih]

theorem ofLine?_blank_append (hw : Text.isBlankLine w = true) (line : Text) :
    ofLine? (w ++ line) = ofLine? line := by
  rw [ofLine?, Text.trimStart_blank_append hw, ofLine?]

theorem ofLine?_append_blank (hw : Text.isBlankLine w = true) (line : Text) :
    ofLine? (line ++ w) = ofLine? line := by
  cases hl : Text.isBlankLine line with
  | true =>
      have hlw : Text.isBlankLine (line ++ w) = true := by
        rw [Text.isBlankLine_append, hl, hw]; rfl
      rw [ofLine?, ofLine?, Text.trimStart_eq_nil_iff.mpr hlw, Text.trimStart_eq_nil_iff.mpr hl]
  | false =>
      obtain ⟨htake, hdrop⟩ := takeWhile_isKeyChar_append hw (Text.trimStart line)
      have hdesc := description?_append_blank hw ((Text.trimStart line).dropWhile isKeyChar)
      simp only [ofLine?, Text.trimStart_append hl, htake, hdrop]
      split
      · rfl
      · have hmap := congrArg (Option.map (KeyLine.mk ((Text.trimStart line).takeWhile isKeyChar)))
          hdesc
        rw [Option.map_map, Option.map_map] at hmap
        exact hmap

theorem ofLine?_trim (line : Text) : ofLine? (Text.trim line) = ofLine? line := by
  obtain ⟨v, w, hv, hw, hline⟩ := Text.exists_eq_append_trim line
  have h : ofLine? (v ++ Text.trim line ++ w) = ofLine? (Text.trim line) := by
    rw [ofLine?_append_blank hw, ofLine?_blank_append hv]
  rw [← h, ← hline]

theorem trim_description {k : KeyLine} (h : ofLine? line = some k) :
    Text.trim k.description = k.description := by
  rw [ofLine?] at h
  split at h
  · cases h
  · obtain ⟨d, -, rfl⟩ := Option.map_eq_some_iff.mp h
    exact Text.trim_trim d

theorem ofLine?_key_append (hne : key ≠ []) (hkey : ∀ c ∈ key, isKeyChar c = true)
    (hrest : ∀ c ∈ rest.head?, isKeyChar c = false) :
    ofLine? (key ++ rest) =
      (description? (Text.trimStart rest)).map fun d => ⟨key, Text.trim d⟩ := by
  have hstart : Text.trimStart (key ++ rest) = key ++ rest := by
    obtain ⟨c, cs, rfl⟩ := List.exists_cons_of_ne_nil hne
    have hc := isBlank_of_isKeyChar (hkey c (List.mem_cons_self ..))
    exact List.dropWhile_cons_of_neg (by simp [hc])
  have hparts : rest.takeWhile isKeyChar = [] ∧ rest.dropWhile isKeyChar = rest := by
    cases rest with
    | nil => exact ⟨rfl, rfl⟩
    | cons c rest =>
        have hc := hrest c rfl
        simp [hc]
  rw [ofLine?, hstart]
  simp only [List.takeWhile_append_of_pos hkey, List.dropWhile_append_of_pos hkey, hparts,
    List.append_nil]
  rw [if_neg (by simpa using hne)]

theorem ofLine?_colon (hne : key ≠ []) (hkey : ∀ c ∈ key, isKeyChar c = true) (d : Text) :
    ofLine? (key ++ ':' :: d) = some ⟨key, Text.trim d⟩ := by
  rw [ofLine?_key_append hne hkey (by rintro c ⟨rfl⟩; decide)]
  rfl

/-- What a line keeps of the text behind its annotation, which may hold any brackets and colons but
ends only at the last bracket that closes right before a colon, even in the text behind it. -/
def keptText (d : Text) : Text :=
  (Text.afterLast? [')', ':'] d).getD d

theorem keptText_eq_self {d : Text} (hd : ¬ [')', ':'] <:+: d) : keptText d = d := by
  rw [keptText, Text.afterLast?_eq_none_iff.mpr hd]
  rfl

theorem ofLine?_annotated (hne : key ≠ []) (hkey : ∀ c ∈ key, isKeyChar c = true)
    (hw : Text.isBlankLine w = true) (inner d : Text) :
    ofLine? (key ++ (w ++ '(' :: (inner ++ ')' :: ':' :: d))) =
      some ⟨key, Text.trim (keptText d)⟩ := by
  have hhead : ∀ c ∈ (w ++ '(' :: (inner ++ ')' :: ':' :: d)).head?, isKeyChar c = false := by
    intro c hc
    cases w with
    | nil => cases hc; decide
    | cons b w =>
        cases hc
        exact isKeyChar_of_isBlank (Text.mem_of_isBlankLine hw c (List.mem_cons_self ..))
  have hopen : Text.trimStart (w ++ '(' :: (inner ++ ')' :: ':' :: d)) =
      '(' :: (inner ++ ')' :: ':' :: d) := by
    rw [Text.trimStart_blank_append hw]
    rfl
  have hdesc : description? ('(' :: (inner ++ ')' :: ':' :: d)) = some (keptText d) :=
    Text.afterLast?_append_pair (by decide) inner d
  rw [ofLine?_key_append hne hkey hhead, hopen, hdesc]
  rfl

end DocComment.KeyLine
