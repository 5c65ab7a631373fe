import DocComment.Proofs.Text.Lines
import DocComment.Proofs.Text.Search
import DocComment.Source.TripleQuoted

/-!
Comments written in triple quotes: the string under a declaration is taken up to the line that
closes it, whatever its lines look like, and reading goes on behind that line.
-/

namespace DocComment.TripleQuoted

variable {name delimiter : Text}

def functionLine (name : Text) : Text :=
  "def ".toList ++ (name ++ "():".toList)

/-- The line that opens or, without text, closes a string. -/
def quoteLine (delimiter text : Text) : Text :=
  "    ".toList ++ (delimiter ++ text)

/-- A string in quotes, of which the first line stands behind the delimiter. -/
def quotedLines (delimiter first : Text) (more : List Text) : List Text :=
  quoteLine delimiter first :: (more ++ [quoteLine delimiter []])

theorem chomp_functionLine (name : Text) : Text.chomp (functionLine name) = functionLine name := by
  have h : functionLine name = "def ".toList ++ (name ++ "()".toList) ++ [':'] := by
    simp [functionLine]
  rw [h, Text.chomp_concat (by decide)]

theorem eq_or_eq_of_mem_delimiters (hd : delimiter ∈ delimiters) :
    delimiter = "\"\"\"".toList ∨ delimiter = "'''".toList := by
  simpa [delimiters] using hd

theorem lines_quoteLine (hd : delimiter ∈ delimiters) {t first : Text} {more : List Text}
    (ht : t.splitOn '\n' = first :: more) (u : Text) :
    Text.lines (quoteLine delimiter t ++ '\n' :: u) =
      quoteLine delimiter (Text.chomp first) :: (more.map Text.chomp ++ Text.lines u) := by
  have hopen : '\n' ∉ "    ".toList ++ delimiter ∧
      ("    ".toList ++ delimiter).getLast? ≠ some '\r' := by
    rcases eq_or_eq_of_mem_delimiters hd with rfl | rfl <;> decide
  have hsplit : (quoteLine delimiter t).splitOn '\n' = quoteLine delimiter first :: more := by
    rw [quoteLine, ← List.append_assoc, Text.splitOn_append_left hopen.1, ht,
      List.modifyHead_cons, List.append_assoc, quoteLine]
  have hchomp : Text.chomp (quoteLine delimiter first) =
      quoteLine delimiter (Text.chomp first) := by
    rw [quoteLine, ← List.append_assoc, Text.chomp_append hopen.2, List.append_assoc, quoteLine]
  rw [Text.lines_append_newline, hsplit, List.map_cons, hchomp]
  rfl

theorem count_quoteLine (hd : delimiter ∈ delimiters) (t : Text) :
    (quoteLine delimiter t).count '\n' = t.count '\n' := by
  have hopen : ("    ".toList ++ delimiter).count '\n' = 0 := by
    rcases eq_or_eq_of_mem_delimiters hd with rfl | rfl <;> decide
  rw [quoteLine, ← List.append_assoc, List.count_append, hopen, Nat.zero_add]

theorem dropWhile_isIndent_append {w t : Text} (hw : ∀ c ∈ w, Text.isIndent c = true)
    (ht : ∀ c ∈ t.head?, Text.isIndent c = false) : (w ++ t).dropWhile Text.isIndent = t := by
  rw [List.dropWhile_append_of_pos hw]
  cases t with
  | nil => rfl
  | cons c t =>
      have hc := ht c rfl
      exact List.dropWhile_cons_of_neg (by simp [hc])

theorem afterKeyword?_append (keyword : Text) {w t : Text} (hw : ∀ c ∈ w, Text.isIndent c = true)
    (hne : w ≠ []) (ht : ∀ c ∈ t.head?, Text.isIndent c = false) :
    afterKeyword? keyword (keyword ++ (w ++ t)) = some t := by
  have hafter : Text.after? keyword (keyword ++ (w ++ t)) = some (w ++ t) :=
    Text.after?_eq_some_iff.mpr rfl
  have hgap : (w ++ t).head?.any Text.isIndent = true := by
    obtain ⟨c, w, rfl⟩ := List.exists_cons_of_ne_nil hne
    exact hw c (List.mem_cons_self ..)
  rw [afterKeyword?, hafter]
  simp only [Option.bind_eq_bind, Option.bind_some, hgap, if_true,
    dropWhile_isIndent_append hw ht]

theorem classLine?_functionLine (name : Text) : classLine? (functionLine name) = none := rfl

theorem defLine?_functionLine (hne : name ≠ []) (hname : ∀ c ∈ name, Text.isWord c = true) :
    defLine? (functionLine name) = some ⟨0, name, "():".toList⟩ := by
  have hhead : ∀ c ∈ (name ++ "():".toList).head?, Text.isIndent c = false := by
    obtain ⟨c, cs, rfl⟩ := List.exists_cons_of_ne_nil hne
    rintro d ⟨rfl⟩
    exact Text.isIndent_of_isWord (hname c (List.mem_cons_self ..))
  have hkeyword : afterKeyword? "def".toList (functionLine name) = some (name ++ "():".toList) :=
    afterKeyword?_append "def".toList (List.forall_mem_singleton.mpr (rfl : Text.isIndent ' ' = _))
      (List.cons_ne_nil _ _) hhead
  have hword : (name ++ "():".toList).takeWhile Text.isWord = name := by
    rw [List.takeWhile_append_of_pos hname]
    exact List.append_nil _
  have hparams : (name ++ "():".toList).dropWhile Text.isWord = "():".toList := by
    rw [List.dropWhile_append_of_pos hname]
    rfl
  have hstart : (functionLine name).dropWhile Text.isIndent = functionLine name := rfl
  have hindent : ((functionLine name).takeWhile Text.isIndent).length = 0 := rfl
  have hasync : (afterKeyword? "async".toList (functionLine name)).getD (functionLine name) =
      functionLine name := rfl
  rw [defLine?, hstart, hasync, hkeyword]
  simp only [Option.bind_eq_bind, Option.bind_some, hword, hparams, hindent]
  rw [if_neg]
  · rfl
  · intro h
    rcases h with h | h
    · exact hne (List.isEmpty_iff.mp h)
    · exact h rfl

theorem extent?_functionLine (rest : List Text) : Signature.extent? "():".toList rest = some 0 := by
  have hclosing : Signature.closing 0 .code (Signature.uncommented "():".toList) =
      .closed ":".toList := by decide
  have hcolon : (Text.trim ":".toList).getLast? = some ':' := by decide
  rw [Signature.extent?, Signature.extentFrom?.eq_def, hclosing]
  dsimp only
  rw [Signature.colonOffset?.eq_def]
  exact if_pos hcolon

theorem opening?_quoteLine (hd : delimiter ∈ delimiters) (text : Text) :
    opening? (quoteLine delimiter text) = some (delimiter, text) := by
  rcases eq_or_eq_of_mem_delimiters hd with rfl | rfl <;> rfl

theorem isBlankLine_quoteLine (hd : delimiter ∈ delimiters) (text : Text) :
    Text.isBlankLine (quoteLine delimiter text) = false := by
  rcases eq_or_eq_of_mem_delimiters hd with rfl | rfl <;> rfl

theorem before?_quoteLine (hd : delimiter ∈ delimiters) :
    Text.before? delimiter (quoteLine delimiter []) = some "    ".toList := by
  rcases eq_or_eq_of_mem_delimiters hd with rfl | rfl <;> rfl

theorem upTo_append {body : List Text} (hbody : ∀ l ∈ body, ¬ delimiter <:+: l)
    {last front : Text} (hlast : Text.before? delimiter last = some front) (rest : List Text) :
    upTo delimiter (body ++ last :: rest) = (body ++ [front], body.length + 1) := by
  induction body with
  | nil => rw [List.nil_append, upTo, hlast]; rfl
  | cons l body ih =>
      have hl : Text.before? delimiter l = none :=
        Text.before?_eq_none_iff.mpr (hbody l (List.mem_cons_self ..))
      rw [List.cons_append, upTo, hl, ih fun m hm => hbody m (List.mem_cons_of_mem l hm)]
      rfl

/-- The comment under a declaration, which ends with the indentation of the closing line. -/
theorem commentAfter_quotedLines (hd : delimiter ∈ delimiters) {first : Text} {more : List Text}
    (hbody : ∀ l ∈ first :: more, ¬ delimiter <:+: l) (rest : List Text) :
    commentAfter ⟨0, name, "():".toList⟩ (quotedLines delimiter first more ++ rest) =
      (some (['\n'].intercalate (first :: more ++ ["    ".toList])),
        (quotedLines delimiter first more).length) := by
  have hlines : quotedLines delimiter first more ++ rest =
      quoteLine delimiter first :: (more ++ quoteLine delimiter [] :: rest) := by
    rw [quotedLines, List.cons_append, List.append_assoc]
    rfl
  have hblanks : ((quoteLine delimiter first ::
      (more ++ quoteLine delimiter [] :: rest)).takeWhile Text.isBlankLine).length = 0 := by
    rw [List.takeWhile_cons_of_neg (by simp [isBlankLine_quoteLine hd])]
    rfl
  have hup := upTo_append hbody (before?_quoteLine hd) rest
  rw [List.cons_append] at hup
  have hlength : (quotedLines delimiter first more).length = (first :: more).length + 1 := by
    simp [quotedLines]
  rw [hlines, hlength, commentAfter, extent?_functionLine]
  dsimp only
  rw [List.drop_zero, hblanks, List.drop_zero, docstring?, opening?_quoteLine hd]
  simp only [Option.bind_eq_bind, Option.bind_some, hup, Nat.zero_add]

theorem declarationsFrom_quotedLines (hne : name ≠ [])
    (hname : ∀ c ∈ name, Text.isWord c = true) (hd : delimiter ∈ delimiters) {first : Text}
    {more : List Text} (hbody : ∀ l ∈ first :: more, ¬ delimiter <:+: l) (rest : List Text)
    (number : Nat) :
    declarationsFrom number []
        (functionLine name :: (quotedLines delimiter first more ++ rest)) =
      ⟨name, number, ['\n'].intercalate (first :: more ++ ["    ".toList])⟩ ::
        declarationsFrom (number + 1 + (quotedLines delimiter first more).length) [] rest := by
  rw [declarationsFrom, classLine?_functionLine, defLine?_functionLine hne hname]
  dsimp only
  rw [commentAfter_quotedLines hd hbody, List.drop_left]
  rfl

end DocComment.TripleQuoted
