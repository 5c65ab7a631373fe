import DocComment.Proofs.Lists
import DocComment.Proofs.Text.Trim

/-!
Cutting a text at line feeds. Text without a line feed goes to the piece it is written next to,
and the lines of a text are its pieces without the carriage returns of the line ends.
-/

namespace DocComment.Text

variable {t u w : Text}

theorem splitOn_append_left {x : Char} (hw : x ∉ w) (t : Text) :
    (w ++ t).splitOn x = (t.splitOn x).modifyHead (w ++ ·) := by
  induction w with
  | nil =>
      cases h : t.splitOn x with
      | nil => exact absurd h (List.splitOn_ne_nil x t)
      | cons p ps => simp only [List.nil_append, h, List.modifyHead_cons]
  | cons c w ih =>
      have hc : (c == x) = false := beq_false_of_ne fun h => hw (h ▸ List.mem_cons_self ..)
      have hrest := ih fun h => hw (List.mem_cons_of_mem c h)
      rw [List.cons_append, List.splitOn_cons_eq_if_modifyHead, hc, hrest,
        List.modifyHead_modifyHead]
      rfl

/-- Text without the separator lengthens the last piece. -/
theorem exists_splitOn_append {x : Char} (hw : x ∉ w) (t : Text) :
    ∃ front last, t.splitOn x = front ++ [last] ∧ (t ++ w).splitOn x = front ++ [last ++ w] := by
  induction t with
  | nil => exact ⟨[], [], rfl, List.splitOn_eq_singleton hw⟩
  | cons c t ih =>
      obtain ⟨front, last, ht, htw⟩ := ih
      rw [List.cons_append, List.splitOn_cons_eq_if_modifyHead, List.splitOn_cons_eq_if_modifyHead,
        ht, htw]
      by_cases hc : c = x
      · exact ⟨[] :: front, last, by simp [hc], by simp [hc]⟩
      · cases front with
        | nil => exact ⟨[], c :: last, by simp [hc], by simp [hc]⟩
        | cons p ps => exact ⟨(c :: p) :: ps, last, by simp [hc], by simp [hc]⟩

theorem length_splitOn (x : Char) (t : Text) : (t.splitOn x).length = t.count x + 1 := by
  induction t with
  | nil => rfl
  | cons c t ih =>
      rw [List.splitOn_cons_eq_if_modifyHead, List.count_cons]
      split
      · rw [List.length_cons, ih]
      · rw [List.length_modifyHead, ih]

theorem eq_false_of_mem_splitOnP {q : Char → Bool} {p : Text} (hp : p ∈ t.splitOnP q) :
    ∀ c ∈ p, q c = false := by
  induction t generalizing p with
  | nil =>
      rw [List.splitOnP_nil, List.mem_singleton] at hp
      subst hp
      exact nofun
  | cons c t ih =>
      obtain ⟨r, rs, ht⟩ := List.exists_cons_of_ne_nil (List.splitOnP_ne_nil q t)
      rw [ht] at ih
      rw [List.splitOnP_cons_eq_if_modifyHead, ht] at hp
      split at hp
      · rcases List.mem_cons.mp hp with rfl | hp
        · exact nofun
        · exact ih hp
      · next hc =>
          rw [List.modifyHead_cons] at hp
          rcases List.mem_cons.mp hp with rfl | hp
          · intro d hd
            rcases List.mem_cons.mp hd with rfl | hd
            · exact eq_false_of_ne_true hc
            · exact ih (List.mem_cons_self ..) d hd
          · exact ih (List.mem_cons_of_mem r hp)

theorem splitOnP_congr {q r : Char → Bool} (h : ∀ c ∈ t, q c = r c) :
    t.splitOnP q = t.splitOnP r := by
  induction t with
  | nil => rfl
  | cons c t ih =>
      rw [List.splitOnP_cons_eq_if_modifyHead, List.splitOnP_cons_eq_if_modifyHead,
        h c (List.mem_cons_self ..), ih fun d hd => h d (List.mem_cons_of_mem c hd)]

theorem not_mem_of_mem_splitOn {x : Char} {p : Text} (hp : p ∈ t.splitOn x) : x ∉ p := by
  intro hx
  rw [List.splitOn_eq_splitOnP] at hp
  have hfalse := eq_false_of_mem_splitOnP hp x hx
  rw [BEq.rfl] at hfalse
  cases hfalse

theorem isInfix_intercalate_of_mem {sep : Text} {ls : List Text} (ht : t ∈ ls) :
    t <:+: sep.intercalate ls := by
  induction ls with
  | nil => cases ht
  | cons l ls ih =>
      cases ls with
      | nil =>
          have hone : sep.intercalate [l] = t :=
            List.intercalate_singleton.trans (List.mem_singleton.mp ht).symm
          exact hone ▸ List.infix_rfl
      | cons m ms =>
          rw [List.intercalate_cons_cons]
          rcases List.mem_cons.mp ht with rfl | ht
          · rw [List.append_assoc]
            exact (List.prefix_append ..).isInfix
          · exact (ih ht).trans (List.suffix_append ..).isInfix

theorem intercalate_prefix_append (sep : Text) (ls ms : List Text) :
    sep.intercalate ls <+: sep.intercalate (ls ++ ms) := by
  induction ls with
  | nil => exact List.nil_prefix
  | cons l ls ih =>
      cases ls with
      | nil =>
          cases ms with
          | nil => exact List.prefix_rfl
          | cons m ms =>
              simp only [List.singleton_append, List.intercalate_cons_cons, List.append_assoc,
                List.intercalate_singleton]
              exact List.prefix_append ..
      | cons k ls =>
          simp only [List.cons_append, List.intercalate_cons_cons] at ih ⊢
          exact (List.prefix_append_right_inj _).mpr ih

theorem intercalate_append_cons (sep t u : Text) (ls : List Text) :
    sep.intercalate ((t ++ u) :: ls) = t ++ sep.intercalate (u :: ls) := by
  cases ls with
  | nil => simp only [List.intercalate_singleton]
  | cons l ls => simp only [List.intercalate_cons_cons, List.append_assoc]

theorem intercalate_cons_append {sep back : Text} {ls ms : List Text}
    (hlength : ls.length = ms.length) (h : sep.intercalate ls = sep.intercalate ms ++ back)
    (t : Text) : sep.intercalate (t :: ls) = sep.intercalate (t :: ms) ++ back := by
  cases ls with
  | nil =>
      obtain rfl := List.length_eq_zero_iff.mp hlength.symm
      have hback : back = [] := h.symm
      rw [hback, List.append_nil]
  | cons l ls =>
      obtain ⟨m, ms, rfl⟩ := List.exists_cons_of_length_eq_add_one hlength.symm
      rw [List.intercalate_cons_cons, List.intercalate_cons_cons, h]
      simp only [List.append_assoc]

/-- What a piece of a text holds, the text holds. -/
theorem isInfix_of_mem_splitOn {x : Char} {p : Text} (hp : p ∈ t.splitOn x) : p <:+: t := by
  have h : p <:+: [x].intercalate (t.splitOn x) := isInfix_intercalate_of_mem hp
  rwa [List.intercalate_splitOn] at h

theorem chomp_append (hu : u.getLast? ≠ some '\r') (w : Text) : chomp (u ++ w) = u ++ chomp w := by
  cases w with
  | nil => simp only [List.append_nil, chomp, if_neg hu, List.getLast?_nil, reduceCtorEq, if_false]
  | cons c w =>
      have hlast : (u ++ c :: w).getLast? = (c :: w).getLast? := by
        rw [List.getLast?_append_of_ne_nil _ (List.cons_ne_nil c w)]
      simp only [chomp, hlast]
      split
      · exact List.dropLast_append_of_ne_nil (List.cons_ne_nil c w)
      · rfl

theorem chomp_concat {c : Char} (hc : c ≠ '\r') (t : Text) : chomp (t ++ [c]) = t ++ [c] := by
  rw [chomp, List.getLast?_concat]
  exact if_neg fun h => hc (Option.some.inj h)

/-- What a line loses with its end is white space. -/
theorem exists_eq_chomp_append (t : Text) : ∃ w, isBlankLine w = true ∧ t = chomp t ++ w := by
  unfold chomp
  split
  · next h =>
      refine ⟨['\r'], by decide, ?_⟩
      exact (List.dropLast_append_getLast? '\r' (by simpa using h)).symm
  · exact ⟨[], rfl, (List.append_nil t).symm⟩

theorem chomp_prefix (t : Text) : chomp t <+: t := by
  obtain ⟨w, -, ht⟩ := exists_eq_chomp_append t
  exact ⟨w, ht.symm⟩

@[simp] theorem trim_chomp (t : Text) : trim (chomp t) = trim t := by
  obtain ⟨w, hw, ht⟩ := exists_eq_chomp_append t
  have h : trim (chomp t ++ w) = trim (chomp t) := trim_append_blank _ hw
  rw [← h, ← ht]

@[simp] theorem isBlankLine_chomp (t : Text) : isBlankLine (chomp t) = isBlankLine t := by
  rw [← isEmpty_trim, trim_chomp, isEmpty_trim]

theorem not_mem_chomp {x : Char} (h : x ∉ t) : x ∉ chomp t := by
  obtain ⟨w, -, ht⟩ := exists_eq_chomp_append t
  intro hx
  rw [ht] at h
  exact h (List.mem_append_left w hx)

theorem linesOfPieces_append {qs : List Text} (hq : qs ≠ []) (ps : List Text) :
    linesOfPieces (ps ++ qs) = ps.map chomp ++ linesOfPieces qs := by
  induction ps with
  | nil => rfl
  | cons p ps ih =>
      have hne : ps ++ qs ≠ [] := List.append_ne_nil_of_right_ne_nil ps hq
      obtain ⟨r, rs, hr⟩ := List.exists_cons_of_ne_nil hne
      rw [List.cons_append, List.map_cons, List.cons_append, ← ih, hr]
      rfl

theorem lines_append_newline (t u : Text) :
    lines (t ++ '\n' :: u) = (t.splitOn '\n').map chomp ++ lines u := by
  rw [lines, List.splitOn_append_cons_self, linesOfPieces_append (List.splitOn_ne_nil _ _), lines]

theorem lines_line (ht : '\n' ∉ t) (u : Text) : lines (t ++ '\n' :: u) = chomp t :: lines u := by
  rw [lines_append_newline, List.splitOn_eq_singleton ht]
  rfl

theorem lines_eq_singleton (ht : '\n' ∉ t) (hne : t ≠ []) : lines t = [t] := by
  have hempty : t.isEmpty = false := List.isEmpty_eq_false_iff.mpr hne
  rw [lines, List.splitOn_eq_singleton ht, linesOfPieces, hempty]
  rfl

theorem not_mem_of_mem_linesOfPieces {x : Char} {ps : List Text} (hps : ∀ p ∈ ps, x ∉ p) {l : Text}
    (hl : l ∈ linesOfPieces ps) : x ∉ l := by
  induction ps with
  | nil => cases hl
  | cons p ps ih =>
      have hp := hps p (List.mem_cons_self ..)
      cases ps with
      | nil =>
          rw [linesOfPieces] at hl
          split at hl
          · cases hl
          · rwa [List.mem_singleton.mp hl]
      | cons q qs =>
          rcases List.mem_cons.mp hl with rfl | hl
          · exact not_mem_chomp hp
          · exact ih (fun r hr => hps r (List.mem_cons_of_mem p hr)) hl

theorem newline_not_mem_of_mem_lines {l : Text} (hl : l ∈ lines t) : '\n' ∉ l :=
  not_mem_of_mem_linesOfPieces (fun _ hp => not_mem_of_mem_splitOn hp) hl

theorem not_mem_intercalate {x : Char} {sep : Text} {ls : List Text} (hsep : x ∉ sep)
    (hls : ∀ l ∈ ls, x ∉ l) : x ∉ sep.intercalate ls := by
  induction ls with
  | nil => exact List.not_mem_nil
  | cons l ls ih =>
      have hl := hls l (List.mem_cons_self ..)
      cases ls with
      | nil => rwa [List.intercalate_singleton]
      | cons m ms =>
          have hrest := ih fun r hr => hls r (List.mem_cons_of_mem l hr)
          rw [List.intercalate_cons_cons, List.mem_append, List.mem_append]
          rintro ((h | h) | h)
          · exact hl h
          · exact hsep h
          · exact hrest h

/-- A text whose lines all end with a line feed has these lines alone. -/
theorem flatMap_newline_inj {ls ms : List Text} (hls : ∀ l ∈ ls, '\n' ∉ l)
    (hms : ∀ m ∈ ms, '\n' ∉ m) (h : ls.flatMap (· ++ ['\n']) = ms.flatMap (· ++ ['\n'])) :
    ls = ms := by
  induction ls generalizing ms with
  | nil =>
      cases ms with
      | nil => rfl
      | cons m ms => simp at h
  | cons l ls ih =>
      cases ms with
      | nil => simp at h
      | cons m ms =>
          simp only [List.flatMap_cons, List.append_assoc, List.singleton_append] at h
          obtain ⟨hlm, hrest⟩ :=
            append_cons_inj (hls l (List.mem_cons_self ..)) (hms m (List.mem_cons_self ..)) h
          have htail := ih (fun k hk => hls k (List.mem_cons_of_mem l hk))
            (fun k hk => hms k (List.mem_cons_of_mem m hk)) hrest
          rw [hlm, htail]

/-- The first line of a text that starts with no white space is not blank. -/
theorem lines_of_not_isIndented (ht : isIndented t = false) (hne : t ≠ []) :
    ∃ first rest, lines t = first :: rest ∧ isBlankLine first = false := by
  obtain ⟨c, t, rfl⟩ := List.exists_cons_of_ne_nil hne
  have hc : isBlank c = false := ht
  have hnl : (c == '\n') = false := by
    apply beq_false_of_ne
    rintro rfl
    cases hc
  obtain ⟨p, ps, hp⟩ := List.exists_cons_of_ne_nil (List.splitOn_ne_nil '\n' t)
  have hfirst : isBlankLine (c :: p) = false := by rw [isBlankLine, List.all_cons, hc]; rfl
  have hpieces : (c :: t).splitOn '\n' = (c :: p) :: ps := by
    rw [List.splitOn_cons_eq_if_modifyHead, hnl, hp]
    rfl
  rw [lines, hpieces]
  cases ps with
  | nil => exact ⟨c :: p, [], rfl, hfirst⟩
  | cons q qs =>
      have hchomp : isBlankLine (chomp (c :: p)) = false := by rw [isBlankLine_chomp, hfirst]
      exact ⟨chomp (c :: p), linesOfPieces (q :: qs), rfl, hchomp⟩

end DocComment.Text
