import DocComment.Proofs.Comment.Rows
import DocComment.Proofs.Source.SlashComment
import DocComment.Proofs.Source.TripleQuoted
import DocComment.Source.Kind

/-!
Comments are found alike in sources of every kind. Functions written one after the other with
their comments are read back in order, each with its name, its line and the record of its comment,
from triple-quoted strings and from slashes, as if the comment stood alone.
-/

namespace DocComment

/-- The comment of a function with this name. -/
structure NamedComment where
  name : Text
  comment : Text
  name_ne_nil : name ≠ []
  isWord_of_mem_name : ∀ c ∈ name, Text.isWord c = true

namespace NamedComment

/-- A function whose body is its comment. -/
def quoted (delimiter : Text) (p : NamedComment) : Text :=
  TripleQuoted.functionLine p.name ++ '\n' :: (TripleQuoted.quoteLine delimiter p.comment ++
    '\n' :: (TripleQuoted.quoteLine delimiter [] ++ ['\n']))

def slashes (p : NamedComment) : Text :=
  SlashComment.commentBlock (p.comment.splitOn '\n')

/-- A function under its comment. -/
def slashed (p : NamedComment) : Text :=
  p.slashes ++ (SlashComment.functionLine p.name ++ ['\n'])

/-- What is read of the function when this part of the source stands before its line. -/
def functionAfter (front : Text) (p : NamedComment) : DocumentedFunction where
  name := p.name
  line := front.count '\n' + 1
  record := Record.ofText p.comment

variable {delimiter : Text}

theorem newline_not_mem_name (p : NamedComment) : '\n' ∉ p.name := by
  intro h
  have hblank : Text.isBlank '\n' = false := Text.isBlank_of_isWord (p.isWord_of_mem_name '\n' h)
  cases hblank

theorem newline_not_mem_functionLine (p : NamedComment) :
    '\n' ∉ TripleQuoted.functionLine p.name ∧ '\n' ∉ SlashComment.functionLine p.name := by
  simp [TripleQuoted.functionLine, SlashComment.functionLine, p.newline_not_mem_name]

theorem newline_not_mem_piece (p : NamedComment) : ∀ l ∈ p.comment.splitOn '\n', '\n' ∉ l :=
  fun _ hl => Text.not_mem_of_mem_splitOn hl

theorem lines_quoted (hd : delimiter ∈ TripleQuoted.delimiters) (p : NamedComment)
    {first : Text} {more : List Text} (hp : p.comment.splitOn '\n' = first :: more) (u : Text) :
    Text.lines (p.quoted delimiter ++ u) =
      TripleQuoted.functionLine p.name ::
        (TripleQuoted.quotedLines delimiter (Text.chomp first) (more.map Text.chomp) ++
          Text.lines u) := by
  have hclose := TripleQuoted.lines_quoteLine hd (List.splitOn_nil '\n') u
  have hsource : p.quoted delimiter ++ u =
      TripleQuoted.functionLine p.name ++ '\n' :: (TripleQuoted.quoteLine delimiter p.comment ++
        '\n' :: (TripleQuoted.quoteLine delimiter [] ++ '\n' :: u)) := by
    simp [quoted]
  rw [hsource, Text.lines_line p.newline_not_mem_functionLine.1,
    TripleQuoted.chomp_functionLine, TripleQuoted.lines_quoteLine hd hp, hclose,
    TripleQuoted.quotedLines, List.cons_append, List.append_assoc]
  rfl

theorem lines_slashed (p : NamedComment) (u : Text) :
    Text.lines (p.slashed ++ u) =
      ((p.comment.splitOn '\n').map Text.chomp).map SlashComment.commentLine ++
        SlashComment.functionLine p.name :: Text.lines u := by
  have hsource : p.slashed ++ u =
      p.slashes ++ (SlashComment.functionLine p.name ++ '\n' :: u) := by
    simp [slashed]
  rw [hsource, slashes, SlashComment.lines_commentBlock p.newline_not_mem_piece,
    Text.lines_line p.newline_not_mem_functionLine.2, SlashComment.chomp_functionLine]

theorem count_quoted (hd : delimiter ∈ TripleQuoted.delimiters) (p : NamedComment) :
    (p.quoted delimiter).count '\n' = (p.comment.splitOn '\n').length + 2 := by
  have hline := List.count_eq_zero_of_not_mem p.newline_not_mem_functionLine.1
  simp [quoted, hline, TripleQuoted.count_quoteLine hd, Text.length_splitOn]

theorem count_slashes (p : NamedComment) :
    p.slashes.count '\n' = (p.comment.splitOn '\n').length :=
  SlashComment.count_commentBlock p.newline_not_mem_piece

theorem count_slashed (p : NamedComment) :
    p.slashed.count '\n' = (p.comment.splitOn '\n').length + 1 := by
  have hline := List.count_eq_zero_of_not_mem p.newline_not_mem_functionLine.2
  rw [slashed, List.count_append, p.count_slashes, List.count_append, hline]
  rfl

/-- The closing line adds white space to the comment, and line ends lose their returns. -/
theorem function_quoted (p : NamedComment) {front : Text} {number : Nat}
    (hnumber : number = front.count '\n' + 1) :
    Declaration.function ⟨p.name, number,
        ['\n'].intercalate ((p.comment.splitOn '\n').map Text.chomp ++ ["    ".toList])⟩ =
      p.functionAfter front := by
  have hlines : ∀ l ∈ (p.comment.splitOn '\n').map Text.chomp ++ ["    ".toList], '\n' ∉ l := by
    intro l hl
    rcases List.mem_append.mp hl with hl | hl
    · obtain ⟨m, hm, rfl⟩ := List.mem_map.mp hl
      exact Text.not_mem_chomp (p.newline_not_mem_piece m hm)
    · rw [List.mem_singleton.mp hl]
      decide
  have hrows : ((p.comment.splitOn '\n').map Text.chomp ++ ["    ".toList]).filterMap
      Row.ofLine? = rows p.comment := by
    have hclose : Row.ofLine? "    ".toList = none := Row.ofLine?_of_isBlankLine (by decide)
    rw [List.filterMap_append, List.filterMap_cons_none hclose, List.filterMap_nil,
      List.append_nil, List.filterMap_map]
    exact congrArg (List.filterMap · _) (funext Row.ofLine?_chomp)
  rw [Declaration.function, functionAfter, Record.ofText_intercalate hlines hrows, hnumber]

/-- The lines lose the white space at their ends. -/
theorem function_slashed (p : NamedComment) {front : Text} {number : Nat}
    (hnumber : number = front.count '\n' + 1) :
    Declaration.function ⟨p.name, number,
        ['\n'].intercalate (((p.comment.splitOn '\n').map Text.chomp).map Text.trimEnd)⟩ =
      p.functionAfter front := by
  have hlines : ∀ l ∈ ((p.comment.splitOn '\n').map Text.chomp).map Text.trimEnd, '\n' ∉ l := by
    intro l hl
    rw [List.map_map] at hl
    obtain ⟨m, hm, rfl⟩ := List.mem_map.mp hl
    exact Text.not_mem_trimEnd (Text.not_mem_chomp (p.newline_not_mem_piece m hm))
  have hrows : (((p.comment.splitOn '\n').map Text.chomp).map Text.trimEnd).filterMap
      Row.ofLine? = rows p.comment := by
    rw [List.filterMap_map, List.filterMap_map]
    refine congrArg (List.filterMap · _) ?_
    funext l
    simp only [Function.comp_apply, Row.ofLine?_trimEnd, Row.ofLine?_chomp]
  rw [Declaration.function, functionAfter, Record.ofText_intercalate hlines hrows, hnumber]

theorem declarationsFrom_quoted (hd : delimiter ∈ TripleQuoted.delimiters) (p : NamedComment)
    (hp : ¬ delimiter <:+: p.comment) (front u : Text) :
    (TripleQuoted.declarationsFrom (front.count '\n' + 1) []
        (Text.lines (p.quoted delimiter ++ u))).map Declaration.function =
      p.functionAfter front ::
        (TripleQuoted.declarationsFrom ((front ++ p.quoted delimiter).count '\n' + 1) []
          (Text.lines u)).map Declaration.function := by
  obtain ⟨first, more, hpieces⟩ := List.exists_cons_of_ne_nil (List.splitOn_ne_nil '\n' p.comment)
  have hbody : ∀ l ∈ Text.chomp first :: more.map Text.chomp, ¬ delimiter <:+: l := by
    rw [← List.map_cons, ← hpieces]
    intro l hl hin
    obtain ⟨m, hm, rfl⟩ := List.mem_map.mp hl
    exact hp ((hin.trans (Text.chomp_prefix m).isInfix).trans (Text.isInfix_of_mem_splitOn hm))
  have hfunction := p.function_quoted (rfl : front.count '\n' + 1 = _)
  have hnumber : (front ++ p.quoted delimiter).count '\n' + 1 = front.count '\n' + 1 + 1 +
      (TripleQuoted.quotedLines delimiter (Text.chomp first) (more.map Text.chomp)).length := by
    rw [List.count_append, count_quoted hd, hpieces, TripleQuoted.quotedLines]
    simp only [List.length_cons, List.length_append, List.length_map, List.length_nil]
    omega
  rw [hpieces, List.map_cons] at hfunction
  rw [lines_quoted hd p hpieces, TripleQuoted.declarationsFrom_quotedLines p.name_ne_nil
    p.isWord_of_mem_name hd hbody, List.map_cons, hfunction, hnumber]

theorem declarationsFrom_slashed (p : NamedComment) (front u : Text) :
    (SlashComment.declarationsFrom (front.count '\n' + 1) []
        (Text.lines (p.slashed ++ u))).map Declaration.function =
      p.functionAfter (front ++ p.slashes) ::
        (SlashComment.declarationsFrom ((front ++ p.slashed).count '\n' + 1) []
          (Text.lines u)).map Declaration.function := by
  have hne : [] ++ (p.comment.splitOn '\n').map Text.chomp ≠ [] := by simp
  have hline : front.count '\n' + 1 + ((p.comment.splitOn '\n').map Text.chomp).length =
      (front ++ p.slashes).count '\n' + 1 := by
    rw [List.count_append, count_slashes, List.length_map]
    omega
  have hnumber : (front ++ p.slashed).count '\n' + 1 = (front ++ p.slashes).count '\n' + 1 + 1 := by
    rw [List.count_append, List.count_append, count_slashed, count_slashes]
    omega
  rw [lines_slashed, SlashComment.declarationsFrom_comment p.name_ne_nil p.isWord_of_mem_name _ _
    hne, List.nil_append, hline, List.map_cons, p.function_slashed rfl, hnumber]

end NamedComment

/-- Reading block by block, where each block gives one function, at the line behind its head. -/
theorem map_function_flatMap (read : Nat → List Text → List Declaration)
    (block head : NamedComment → Text) (hnil : ∀ number, read number [] = [])
    (ps : List NamedComment)
    (hblock : ∀ p ∈ ps, ∀ front u, (read (front.count '\n' + 1)
        (Text.lines (block p ++ u))).map Declaration.function =
      p.functionAfter (front ++ head p) ::
        (read ((front ++ block p).count '\n' + 1) (Text.lines u)).map Declaration.function)
    (front : Text) :
    (read (front.count '\n' + 1) (Text.lines (ps.flatMap block))).map Declaration.function =
      ps.mapIdx fun i p => p.functionAfter (front ++ ((ps.take i).flatMap block ++ head p)) := by
  induction ps generalizing front with
  | nil => exact congrArg _ (hnil _)
  | cons p ps ih =>
      have hrest := ih (fun q hq => hblock q (List.mem_cons_of_mem p hq)) (front ++ block p)
      rw [List.flatMap_cons, hblock p (List.mem_cons_self ..), hrest, List.mapIdx_cons]
      simp only [List.take_zero, List.flatMap_nil, List.nil_append, List.take_succ_cons,
        List.flatMap_cons, List.append_assoc]

/-- Comments in triple quotes, after slashes and alone give the same records, in order and at the
lines of their functions. -/
theorem functions_ofDeclarations_written (ps : List NamedComment) {delimiter : Text}
    (hd : delimiter ∈ TripleQuoted.delimiters) (hps : ∀ p ∈ ps, ¬ delimiter <:+: p.comment)
    (stem : Text) :
    (Document.ofDeclarations (Kind.tripleQuoted.declarations stem
        (ps.flatMap (NamedComment.quoted delimiter)))).functions =
      ps.mapIdx (fun i p =>
        p.functionAfter ((ps.take i).flatMap (NamedComment.quoted delimiter))) ∧
    (Document.ofDeclarations (Kind.slashes.declarations stem
        (ps.flatMap NamedComment.slashed))).functions =
      ps.mapIdx (fun i p =>
        p.functionAfter ((ps.take i).flatMap NamedComment.slashed ++ p.slashes)) ∧
    ∀ p ∈ ps, (Document.ofDeclarations (Kind.bare.declarations p.name p.comment)).functions =
      [{ p.functionAfter [] with line := 0 }] := by
  refine ⟨?_, ?_, fun p _ => rfl⟩
  · have hnil (number : Nat) : TripleQuoted.declarationsFrom number [] [] = [] := by
      rw [TripleQuoted.declarationsFrom]
    have hrun := map_function_flatMap (fun number => TripleQuoted.declarationsFrom number [])
      (NamedComment.quoted delimiter) (fun _ => []) hnil ps
    simp only [List.append_nil] at hrun
    exact hrun (fun p hp front u => p.declarationsFrom_quoted hd (hps p hp) front u) []
  · exact map_function_flatMap (fun number => SlashComment.declarationsFrom number [])
      NamedComment.slashed NamedComment.slashes (fun _ => rfl) ps
      (fun p _ front u => p.declarationsFrom_slashed front u) []

theorem functions_ofDeclarations_written_pair :
    ∃ p q : NamedComment, p.comment = "S.\n'''\ndef g():\r".toList ∧ q.comment = [] ∧
      (∀ r ∈ [p, q], ¬ "\"\"\"".toList <:+: r.comment) ∧
      (Document.ofDeclarations (Kind.tripleQuoted.declarations [] (
        "def f():\n    \"\"\"S.\n'''\ndef g():\r\n    \"\"\"\n".toList ++
        "def h():\n    \"\"\"\n    \"\"\"\n".toList))).functions =
        [⟨"f".toList, 1, none, Record.ofText p.comment⟩, ⟨"h".toList, 6, none, {}⟩] ∧
      (Document.ofDeclarations (Kind.slashes.declarations [] (
        "/// S.\n/// '''\n/// def g():\r\nfn f() \x7b\x7d\n".toList ++
        "/// \nfn h() \x7b\x7d\n".toList))).functions =
        [⟨"f".toList, 4, none, Record.ofText p.comment⟩, ⟨"h".toList, 6, none, {}⟩] := by
  let p : NamedComment := ⟨"f".toList, "S.\n'''\ndef g():\r".toList, by decide,
    List.all_eq_true.mp (by decide)⟩
  let q : NamedComment := ⟨"h".toList, [], by decide, List.all_eq_true.mp (by decide)⟩
  have hd : "\"\"\"".toList ∈ TripleQuoted.delimiters := by decide +kernel
  have hps : ∀ r ∈ [p, q], ¬ "\"\"\"".toList <:+: r.comment := by decide +kernel
  obtain ⟨hquoted, hslashed, -⟩ := functions_ofDeclarations_written [p, q] hd hps []
  have hquotes : [p, q].flatMap (NamedComment.quoted "\"\"\"".toList) =
      "def f():\n    \"\"\"S.\n'''\ndef g():\r\n    \"\"\"\n".toList ++
        "def h():\n    \"\"\"\n    \"\"\"\n".toList := by decide +kernel
  have hslashes : [p, q].flatMap NamedComment.slashed =
      "/// S.\n/// '''\n/// def g():\r\nfn f() \x7b\x7d\n".toList ++
        "/// \nfn h() \x7b\x7d\n".toList := by decide +kernel
  rw [hquotes] at hquoted
  rw [hslashes] at hslashed
  refine ⟨p, q, rfl, rfl, hps, ?_, ?_⟩
  · rw [hquoted]
    decide +kernel
  · rw [hslashed]
    decide +kernel

end DocComment
