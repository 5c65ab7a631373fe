import DocComment.Proofs.Text.Lines
import DocComment.Source.SlashComment

/-!
Comments written with slashes: each line of a comment is read back without the white space at its
end, and the lines above a declaration come together as its comment.
-/

namespace DocComment.SlashComment

variable {name : Text}

/-- A line of a comment, with the slashes in front. -/
def commentLine (l : Text) : Text :=
  "/// ".toList ++ l

def functionLine (name : Text) : Text :=
  "fn ".toList ++ (name ++ "() \x7b\x7d".toList)

theorem chomp_functionLine (name : Text) : Text.chomp (functionLine name) = functionLine name := by
  have h : functionLine name = "fn ".toList ++ (name ++ "() \x7b".toList) ++ ['\x7d'] := by
    simp [functionLine]
  rw [h, Text.chomp_concat (by decide)]

theorem afterGap?_blank_append {w t : Text} (hw : Text.isBlankLine w = true) (hne : w ≠ [])
    (ht : Text.isIndented t = false) : afterGap? (w ++ t) = some t := by
  obtain ⟨c, cs, rfl⟩ := List.exists_cons_of_ne_nil hne
  have hc : Text.isBlank c = true := Text.mem_of_isBlankLine hw c (List.mem_cons_self ..)
  have hstart : Text.trimStart t = t := by
    cases t with
    | nil => rfl
    | cons d t => exact List.dropWhile_cons_of_neg (by simpa [Text.isIndented] using ht)
  rw [afterGap?, Text.trimStart_blank_append hw, hstart]
  exact if_pos hc

theorem role_commentLine (l : Text) :
    role (Text.trim (commentLine l)) = .comment (Text.trimEnd l) := by
  have htext : commentText? (Text.trim (commentLine l)) = some (Text.trimEnd l) := by
    cases hl : Text.isBlankLine l with
    | true =>
        have hgap : Text.isBlankLine (' ' :: l) = true :=
          Text.isBlankLine_cons_iff.mpr ⟨rfl, hl⟩
        have htrim : Text.trim (commentLine l) = "///".toList :=
          Text.trim_append_blank "///".toList hgap
        rw [htrim, Text.trimEnd_eq_nil_iff.mpr hl]
        rfl
    | false =>
        have htrim : Text.trim (commentLine l) = "/// ".toList ++ Text.trimEnd l :=
          Text.trimEnd_append "/// ".toList hl
        have hafter : Text.after? "///".toList ("/// ".toList ++ Text.trimEnd l) =
            some (' ' :: Text.trimEnd l) := Text.after?_eq_some_iff.mpr rfl
        rw [htrim, commentText?, hafter]
        rfl
  rw [role, htext]

theorem skipQualifiers_eq_self {t : Text} (h : qualifiers.findSome? (afterWord? · t) = none) :
    skipQualifiers t = t := by
  rw [skipQualifiers]
  split
  · rfl
  · next rest hsome =>
      rw [h] at hsome
      cases hsome

theorem functionName?_functionLine (hne : name ≠ []) (hname : ∀ c ∈ name, Text.isWord c = true) :
    functionName? (functionLine name) = some name := by
  obtain ⟨c, cs, rfl⟩ := List.exists_cons_of_ne_nil hne
  have hc : Text.isBlank c = false := Text.isBlank_of_isWord (hname c (List.mem_cons_self ..))
  have hskip : skipExtern (skipQualifiers (skipVisibility (functionLine (c :: cs)))) =
      functionLine (c :: cs) := by
    have hvisible : skipVisibility (functionLine (c :: cs)) = functionLine (c :: cs) := rfl
    have hqualified : skipQualifiers (functionLine (c :: cs)) = functionLine (c :: cs) :=
      skipQualifiers_eq_self rfl
    rw [hvisible, hqualified]
    rfl
  have hafter : afterWord? "fn".toList (functionLine (c :: cs)) =
      some ((c :: cs) ++ "() \x7b\x7d".toList) := by
    have hfn : Text.after? "fn".toList (functionLine (c :: cs)) =
        some (" ".toList ++ ((c :: cs) ++ "() \x7b\x7d".toList)) := Text.after?_eq_some_iff.mpr rfl
    rw [afterWord?, hfn]
    exact afterGap?_blank_append (by decide) (by decide) hc
  have hword : ((c :: cs) ++ "() \x7b\x7d".toList).takeWhile Text.isWord = c :: cs := by
    rw [List.takeWhile_append_of_pos hname]
    exact List.append_nil _
  rw [functionName?, hskip, hafter]
  simp only [Option.bind_eq_bind, Option.bind_some, hword]
  rfl

theorem role_functionLine (hne : name ≠ []) (hname : ∀ c ∈ name, Text.isWord c = true) :
    role (Text.trim (functionLine name)) = .function name := by
  have htrim : Text.trim (functionLine name) = functionLine name := by
    have hend : Text.trimEnd (functionLine name) =
        "fn ".toList ++ (name ++ Text.trimEnd "() \x7b\x7d".toList) := by
      rw [functionLine, ← List.append_assoc, Text.trimEnd_append _ (by decide), List.append_assoc]
    exact hend
  have hcode : commentText? (functionLine name) = none := rfl
  rw [htrim, role, hcode]
  dsimp only
  rw [if_neg (by simp [functionLine])]
  rw [functionName?_functionLine hne hname]

/-- The lines of a comment, one under the other. -/
def commentBlock (ls : List Text) : Text :=
  ls.flatMap fun l => commentLine l ++ ['\n']

theorem newline_not_mem_commentLine {l : Text} (hl : '\n' ∉ l) : '\n' ∉ commentLine l := by
  simp [commentLine, hl]

theorem lines_commentBlock {ls : List Text} (hls : ∀ l ∈ ls, '\n' ∉ l) (u : Text) :
    Text.lines (commentBlock ls ++ u) = (ls.map Text.chomp).map commentLine ++ Text.lines u := by
  induction ls with
  | nil => rfl
  | cons l ls ih =>
      have hl := newline_not_mem_commentLine (hls l (List.mem_cons_self ..))
      have hchomp : Text.chomp (commentLine l) = commentLine (Text.chomp l) :=
        Text.chomp_append (by decide) l
      have hblock : commentBlock (l :: ls) ++ u =
          commentLine l ++ '\n' :: (commentBlock ls ++ u) := by
        simp [commentBlock]
      rw [hblock, Text.lines_line hl, hchomp, ih fun m hm => hls m (List.mem_cons_of_mem l hm)]
      rfl

theorem count_commentBlock {ls : List Text} (hls : ∀ l ∈ ls, '\n' ∉ l) :
    (commentBlock ls).count '\n' = ls.length := by
  induction ls with
  | nil => rfl
  | cons l ls ih =>
      have hl := newline_not_mem_commentLine (hls l (List.mem_cons_self ..))
      have hblock : commentBlock (l :: ls) = commentLine l ++ '\n' :: commentBlock ls := by
        simp [commentBlock]
      rw [hblock, List.count_append, List.count_eq_zero_of_not_mem hl, List.count_cons_self,
        ih fun m hm => hls m (List.mem_cons_of_mem l hm), Nat.zero_add, List.length_cons]

/-- The lines of a comment are collected until the declaration under them. -/
theorem declarationsFrom_comment (hne : name ≠ []) (hname : ∀ c ∈ name, Text.isWord c = true)
    (ls rest : List Text) {pending : List Text} (hsome : pending ++ ls ≠ []) (number : Nat) :
    declarationsFrom number pending (ls.map commentLine ++ functionLine name :: rest) =
      ⟨name, number + ls.length, ['\n'].intercalate (pending ++ ls.map Text.trimEnd)⟩ ::
        declarationsFrom (number + ls.length + 1) [] rest := by
  induction ls generalizing number pending with
  | nil =>
      have hpending : pending.isEmpty = false := by simpa using hsome
      rw [List.map_nil, List.nil_append, declarationsFrom, role_functionLine hne hname]
      dsimp only
      rw [hpending, List.map_nil, List.append_nil, List.length_nil]
      rfl
  | cons l ls ih =>
      rw [List.map_cons, List.cons_append, declarationsFrom, role_commentLine]
      dsimp only
      have hnumber : number + (l :: ls).length = number + 1 + ls.length := by
        rw [List.length_cons]
        omega
      rw [ih (by simp), List.append_assoc, hnumber]
      rfl

end DocComment.SlashComment
