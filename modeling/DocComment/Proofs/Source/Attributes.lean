import DocComment.Proofs.Source.Upward

/-!
Attributes between a comment and its item. The comment goes to the first line below it that cannot
stand between a comment and its function, whatever this line is. Attributes on lines of their own
lead to the item. But an item behind an attribute on one line hides from its comment, which is then
left to what comes below; and an attribute that goes on over a further line hands the comment to
that line.
-/

namespace DocComment.SlashComment

/-- The texts of the comment lines among the lines. -/
def commentTexts (ls : List Text) : List Text :=
  ((ls.map Text.trim).filter isCommentLine).map uncommented

/-- What the first line of code under a comment declares. -/
def ownDeclaration (number : Nat) (texts : List Text) (line : Text) : List Declaration :=
  ((functionName? (Text.trim line)).map (⟨·, number, ['\n'].intercalate texts⟩)).toList

theorem commentTexts_append (ls ms : List Text) :
    commentTexts (ls ++ ms) = commentTexts ls ++ commentTexts ms := by
  simp only [commentTexts, List.map_append, List.filter_append]

theorem commentTexts_eq_nil {ls : List Text}
    (h : ∀ l ∈ ls, isCommentLine (Text.trim l) = false) : commentTexts ls = [] := by
  rw [commentTexts, List.map_eq_nil_iff, List.filter_eq_nil_iff]
  intro t ht
  obtain ⟨l, hl, rfl⟩ := List.mem_map.mp ht
  simp [h l hl]

theorem commentTexts_ne_nil {ls : List Text} (hne : ls ≠ [])
    (h : ∀ l ∈ ls, isCommentLine (Text.trim l) = true) : commentTexts ls ≠ [] := by
  obtain ⟨l, ls, rfl⟩ := List.exists_cons_of_ne_nil hne
  simp [commentTexts, h l (List.mem_cons_self ..)]

theorem left_of_keepsComment {line : Text} (h : keepsComment (Text.trim line) = true)
    (pending : List Text) :
    (role (Text.trim line)).left pending = pending ++ commentTexts [line] := by
  cases hc : isCommentLine (Text.trim line) with
  | true =>
      rw [role_of_isCommentLine hc]
      simp [commentTexts, hc, Role.left]
  | false =>
      rw [role_of_keepsComment hc h]
      simp [commentTexts, hc, Role.left]

theorem declared_of_keepsComment {line : Text} (h : keepsComment (Text.trim line) = true)
    (number : Nat) (pending : List Text) :
    (role (Text.trim line)).declared number pending = [] := by
  cases hrole : role (Text.trim line) with
  | function name =>
      rw [role_eq_function_iff, functionName?_eq_none h] at hrole
      cases hrole
  | comment text | between | code => rfl

/-- Lines that may stand between only add their comment lines to what is above them. -/
theorem declarationsFrom_kept {ls : List Text}
    (hls : ∀ l ∈ ls, keepsComment (Text.trim l) = true) (number : Nat)
    (pending rest : List Text) :
    declarationsFrom number pending (ls ++ rest) =
      declarationsFrom (number + ls.length) (pending ++ commentTexts ls) rest := by
  induction ls generalizing number pending with
  | nil => simp [commentTexts]
  | cons l ls ih =>
      have hl := hls l (List.mem_cons_self ..)
      have hrest := ih (fun m hm => hls m (List.mem_cons_of_mem l hm)) (number + 1)
        (pending ++ commentTexts [l])
      have htexts : commentTexts (l :: ls) = commentTexts [l] ++ commentTexts ls :=
        commentTexts_append [l] ls
      have hnumber : number + (l :: ls).length = number + 1 + ls.length := by
        rw [List.length_cons]
        omega
      rw [List.cons_append, declarationsFrom_cons, declared_of_keepsComment hl,
        left_of_keepsComment hl, List.nil_append, hrest, htexts, hnumber, List.append_assoc]

/-- Any other line takes the comment, and nothing of it is left below. -/
theorem declarationsFrom_code {line : Text} (h : keepsComment (Text.trim line) = false)
    (number : Nat) {pending : List Text} (hne : pending ≠ []) (rest : List Text) :
    declarationsFrom number pending (line :: rest) =
      ownDeclaration number pending line ++ declarationsFrom (number + 1) [] rest := by
  have hpending : pending.isEmpty = false := List.isEmpty_eq_false_iff.mpr hne
  rw [declarationsFrom_cons, role_of_code h, ownDeclaration]
  cases functionName? (Text.trim line) with
  | none => rfl
  | some name => simp [Role.declared, Role.left, hpending]

/-- An attribute with the white space behind it, line ends included. The brackets inside need not
match. -/
structure Attribute where
  body : Text
  gap : Text
  isBlankLine_gap : Text.isBlankLine gap = true

def Attribute.text (a : Attribute) : Text :=
  "#[".toList ++ a.body ++ [']'] ++ a.gap

/-- A source with a comment, attributes under it, an item and what comes below the first line of
the item. -/
structure AttributedItem where
  comment : List Text
  attributes : List Attribute
  /-- The first line of the item. -/
  item : Text
  below : List Text
  source : Text
  comment_ne_nil : comment ≠ []
  isCommentLine_of_mem_comment : ∀ l ∈ comment, isCommentLine (Text.trim l) = true
  newline_not_mem_item : '\n' ∉ item
  keepsComment_item : keepsComment (Text.trim item) = false
  lines_source : Text.lines source =
    comment ++ (Text.lines (attributes.flatMap Attribute.text ++ item) ++ below)

namespace AttributedItem

/-- The lines from the first attribute through the line on which the item starts. -/
def head (p : AttributedItem) : List Text :=
  Text.lines (p.attributes.flatMap Attribute.text ++ p.item)

/-- The number of the line on which the item starts. -/
def number (p : AttributedItem) : Nat :=
  p.comment.length + p.head.length

/-- No attribute goes on over a further line. -/
def HasShortAttributes (p : AttributedItem) : Prop :=
  ∀ a ∈ p.attributes, '\n' ∉ a.body

/-- The item starts on a line of its own. -/
def StartsLine (p : AttributedItem) : Prop :=
  ∀ a ∈ p.attributes.getLast?, '\n' ∈ a.gap

end AttributedItem

/-- Whether the line starts with an attribute. -/
def IsMarked (line : Text) : Prop :=
  "#[".toList <+: Text.trim line

theorem isMarked_append {t : Text} (ht : Text.isBlankLine t = true ∨ IsMarked t) (u : Text) :
    IsMarked (t ++ ("#[".toList ++ u)) := by
  rcases ht with ht | ht
  · have hmark : "#[".toList <+: Text.trim ("#[".toList ++ u) :=
      Text.trim_prefix_trim_append "#[".toList u
    rwa [IsMarked, Text.trim_blank_append ht]
  · exact ht.trans (Text.trim_prefix_trim_append t _)

theorem between_of_blank_or_marked {line : Text}
    (h : Text.isBlankLine line = true ∨ IsMarked line) :
    keepsComment (Text.trim line) = true ∧ isCommentLine (Text.trim line) = false := by
  rcases h with h | ⟨rest, hrest⟩
  · rw [Text.trim_eq_nil_iff.mpr h]
    decide
  · rw [← hrest]
    exact ⟨rfl, rfl⟩

/-- The last piece of a text grows by what is appended without a line feed. -/
theorem splitOn_append_of_eq {t u last : Text} {front : List Text}
    (ht : t.splitOn '\n' = front ++ [last]) (hu : '\n' ∉ u) :
    (t ++ u).splitOn '\n' = front ++ [last ++ u] := by
  obtain ⟨front', last', ht', htu⟩ := Text.exists_splitOn_append hu t
  obtain ⟨rfl, hlast⟩ := List.append_inj' (ht.symm.trans ht') rfl
  rw [htu, List.singleton_inj.mp hlast]

theorem isBlankLine_of_mem_splitOn {t l : Text} (ht : Text.isBlankLine t = true)
    (hl : l ∈ t.splitOn '\n') : Text.isBlankLine l = true := by
  apply List.all_eq_true.mpr
  intro c hc
  exact Text.mem_of_isBlankLine ht c ((Text.isInfix_of_mem_splitOn hl).subset hc)

theorem splitOn_attribute {a : Attribute} (ha : '\n' ∉ a.body) (hgap : '\n' ∉ a.gap)
    {t start : Text} {full : List Text} (ht : t.splitOn '\n' = full ++ [start]) :
    (t ++ a.text).splitOn '\n' = full ++ [start ++ a.text] := by
  apply splitOn_append_of_eq ht
  simp [Attribute.text, ha, hgap]

/-- A gap with a line feed ends the line of its attribute, and all it leaves is blank. -/
theorem exists_splitOn_attribute {a : Attribute} (ha : '\n' ∉ a.body) (hgap : '\n' ∈ a.gap)
    {t start : Text} {full : List Text} (ht : t.splitOn '\n' = full ++ [start]) :
    ∃ near lines last, (t ++ a.text).splitOn '\n' =
        full ++ (start ++ ("#[".toList ++ a.body ++ [']'] ++ near)) :: lines ++ [last] ∧
      ∀ l ∈ lines ++ [last], Text.isBlankLine l = true := by
  obtain ⟨near, far, hsplit, hnear⟩ := List.eq_append_cons_of_mem hgap
  obtain ⟨lines, last, hfar⟩ :=
    (List.eq_nil_or_concat' (far.splitOn '\n')).resolve_left (List.splitOn_ne_nil '\n' far)
  refine ⟨near, lines, last, ?_, ?_⟩
  · have htext : t ++ a.text = t ++ ("#[".toList ++ a.body ++ [']'] ++ near) ++ '\n' :: far := by
      simp [Attribute.text, hsplit]
    have hline : '\n' ∉ "#[".toList ++ a.body ++ [']'] ++ near := by simp [ha, hnear]
    rw [htext, List.splitOn_append_cons_self, splitOn_append_of_eq ht hline, hfar]
    simp
  · have hblank : Text.isBlankLine far = true := by
      have h := a.isBlankLine_gap
      rw [hsplit, Text.isBlankLine_append, Bool.and_eq_true, Text.isBlankLine_cons_iff] at h
      exact h.2.2
    intro l hl
    rw [← hfar] at hl
    exact isBlankLine_of_mem_splitOn hblank hl

/-- The lines that short attributes fill are marked or blank. What is left of them on the last
line is blank if the last attribute ends its line, and marked otherwise. -/
theorem exists_splitOn_attributes (as : List Attribute) (has : ∀ a ∈ as, '\n' ∉ a.body) :
    ∃ full start, (as.flatMap Attribute.text).splitOn '\n' = full ++ [start] ∧
      (∀ l ∈ full, Text.isBlankLine l = true ∨ IsMarked l) ∧
      ((∀ a ∈ as.getLast?, '\n' ∈ a.gap) → Text.isBlankLine start = true) ∧
      ((∃ a ∈ as.getLast?, '\n' ∉ a.gap) → IsMarked start) := by
  -- from the back, since an attribute goes on where the one before it left its last line
  induction as using List.reverseRecOn with
  | nil => exact ⟨[], [], rfl, by simp, fun _ => rfl, by simp⟩
  | append_singleton as a ih =>
      obtain ⟨full, start, hpieces, hfull, hblank, hmarked⟩ :=
        ih fun b hb => has b (List.mem_append_left [a] hb)
      have ha := has a (List.mem_append_right as (List.mem_singleton_self a))
      have hstart : Text.isBlankLine start = true ∨ IsMarked start := by
        by_cases hends : ∀ b ∈ as.getLast?, '\n' ∈ b.gap
        · exact .inl (hblank hends)
        · push Not at hends
          exact .inr (hmarked hends)
      have hline (g : Text) : IsMarked (start ++ ("#[".toList ++ a.body ++ [']'] ++ g)) := by
        have h := isMarked_append hstart (a.body ++ [']'] ++ g)
        simpa only [List.append_assoc] using h
      have hlast : (as ++ [a]).getLast? = some a := List.getLast?_concat
      have htext : (as ++ [a]).flatMap Attribute.text =
          as.flatMap Attribute.text ++ a.text := by simp
      rw [htext, hlast]
      by_cases hgap : '\n' ∈ a.gap
      · obtain ⟨near, lines, last, hsplit, hlines⟩ := exists_splitOn_attribute ha hgap hpieces
        refine ⟨_, last, hsplit, ?_, fun _ => hlines last (by simp), ?_⟩
        · intro l hl
          rcases List.mem_append.mp hl with hl | hl
          · exact hfull l hl
          · rcases List.mem_cons.mp hl with rfl | hl
            · exact .inr (hline near)
            · exact .inl (hlines l (List.mem_append_left [last] hl))
        · rintro ⟨b, ⟨rfl⟩, hb⟩
          exact absurd hgap hb
      · refine ⟨full, _, splitOn_attribute ha hgap hpieces, hfull, ?_, fun _ => hline a.gap⟩
        intro h
        exact absurd (h a rfl) hgap

namespace AttributedItem

variable (p : AttributedItem)

theorem item_ne_nil : p.item ≠ [] := by
  intro h
  have hcode := p.keepsComment_item
  rw [h] at hcode
  cases hcode

theorem exists_head_eq (hshort : p.HasShortAttributes) :
    ∃ full start, p.head = full ++ [start ++ p.item] ∧
      (∀ l ∈ full, Text.isBlankLine l = true ∨ IsMarked l) ∧
      (p.StartsLine → Text.isBlankLine start = true) ∧ (¬ p.StartsLine → IsMarked start) := by
  obtain ⟨full, start, hsplit, hfull, hblank, hmarked⟩ :=
    exists_splitOn_attributes p.attributes hshort
  refine ⟨full.map Text.chomp, start, ?_, ?_, hblank, ?_⟩
  · have hpieces := splitOn_append_of_eq hsplit p.newline_not_mem_item
    have hempty : (start ++ p.item).isEmpty = false := by simp [p.item_ne_nil]
    rw [head, Text.lines, hpieces, Text.linesOfPieces_append (List.cons_ne_nil _ _),
      Text.linesOfPieces, hempty]
    rfl
  · intro l hl
    obtain ⟨m, hm, rfl⟩ := List.mem_map.mp hl
    rw [IsMarked, Text.trim_chomp, Text.isBlankLine_chomp]
    exact hfull m hm
  · intro hshared
    rw [StartsLine] at hshared
    push Not at hshared
    exact hmarked hshared

theorem declarations_source : declarations p.source =
    declarationsFrom (p.comment.length + 1) (commentTexts p.comment) (p.head ++ p.below) := by
  have hcomment : ∀ l ∈ p.comment, keepsComment (Text.trim l) = true := by
    intro l hl
    rw [keepsComment, p.isCommentLine_of_mem_comment l hl]
    rfl
  rw [declarations, p.lines_source, declarationsFrom_kept hcomment, Nat.add_comm 1]
  rfl

/-- The first line that keeps no comment takes the one above, whichever line it is. -/
theorem declarations_of_split {kept rest : List Text} {line : Text}
    (hlines : p.head ++ p.below = kept ++ line :: rest)
    (hkept : ∀ l ∈ kept, keepsComment (Text.trim l) = true)
    (hline : keepsComment (Text.trim line) = false) :
    declarations p.source =
      ownDeclaration (p.comment.length + kept.length + 1) (commentTexts (p.comment ++ kept)) line ++
        declarationsFrom (p.comment.length + kept.length + 2) [] rest := by
  have hne : commentTexts (p.comment ++ kept) ≠ [] := by
    rw [commentTexts_append]
    apply List.append_ne_nil_of_left_ne_nil
    exact commentTexts_ne_nil p.comment_ne_nil p.isCommentLine_of_mem_comment
  have hnumber : p.comment.length + 1 + kept.length = p.comment.length + kept.length + 1 := by
    omega
  rw [declarations_source, hlines, declarationsFrom_kept hkept, ← commentTexts_append, hnumber,
    declarationsFrom_code hline _ hne]

theorem declarations_of_startsLine (hshort : p.HasShortAttributes) (hstarts : p.StartsLine) :
    declarations p.source = ownDeclaration p.number (commentTexts p.comment) p.item ++
      declarationsFrom (p.number + 1) [] p.below := by
  obtain ⟨full, start, hhead, hfull, hblank, -⟩ := p.exists_head_eq hshort
  have hitem : Text.trim (start ++ p.item) = Text.trim p.item :=
    Text.trim_blank_append (hblank hstarts) p.item
  have hlines : p.head ++ p.below = full ++ (start ++ p.item) :: p.below := by
    rw [hhead, List.append_assoc, List.singleton_append]
  have hsplit := p.declarations_of_split hlines
    (fun l hl => (between_of_blank_or_marked (hfull l hl)).1) (by rw [hitem, p.keepsComment_item])
  have htexts : commentTexts (p.comment ++ full) = commentTexts p.comment := by
    rw [commentTexts_append, commentTexts_eq_nil fun l hl =>
      (between_of_blank_or_marked (hfull l hl)).2, List.append_nil]
  have hnumber : p.number = p.comment.length + full.length + 1 := by
    rw [number, hhead, List.length_append, List.length_singleton, Nat.add_assoc]
  rw [hsplit, htexts, hnumber, ownDeclaration, hitem, ownDeclaration]

theorem declarations_of_not_startsLine (hshort : p.HasShortAttributes)
    (hshared : ¬ p.StartsLine) :
    declarations p.source =
      declarationsFrom (p.number + 1) (commentTexts p.comment) p.below := by
  obtain ⟨full, start, hhead, hfull, -, hmarked⟩ := p.exists_head_eq hshort
  have hbetween : ∀ l ∈ p.head, Text.isBlankLine l = true ∨ IsMarked l := by
    intro l hl
    rw [hhead] at hl
    rcases List.mem_append.mp hl with hl | hl
    · exact hfull l hl
    · rw [List.mem_singleton.mp hl]
      exact .inr ((hmarked hshared).trans (Text.trim_prefix_trim_append start p.item))
  have hkept : ∀ l ∈ p.head, keepsComment (Text.trim l) = true :=
    fun l hl => (between_of_blank_or_marked (hbetween l hl)).1
  have htexts : commentTexts p.head = [] :=
    commentTexts_eq_nil fun l hl => (between_of_blank_or_marked (hbetween l hl)).2
  have hnumber : p.number + 1 = p.comment.length + 1 + p.head.length := by
    rw [number]
    omega
  rw [declarations_source, declarationsFrom_kept hkept, htexts, List.append_nil, hnumber]

end AttributedItem

/-- Under short attributes the comment is that of the item, or of nothing, if the item starts a
line; but it is left to what comes below if an attribute stands before the item on its line. Under
any attributes the first line that keeps no comment takes it. -/
theorem declarations_attributed (p : AttributedItem) :
    (p.HasShortAttributes → p.StartsLine →
      declarations p.source = ownDeclaration p.number (commentTexts p.comment) p.item ++
        declarationsFrom (p.number + 1) [] p.below) ∧
    (p.HasShortAttributes → ¬ p.StartsLine →
      declarations p.source =
        declarationsFrom (p.number + 1) (commentTexts p.comment) p.below) ∧
    ∀ kept line rest, p.head ++ p.below = kept ++ line :: rest →
      (∀ l ∈ kept, keepsComment (Text.trim l) = true) → keepsComment (Text.trim line) = false →
      declarations p.source =
        ownDeclaration (p.comment.length + kept.length + 1) (commentTexts (p.comment ++ kept))
            line ++
          declarationsFrom (p.comment.length + kept.length + 2) [] rest :=
  ⟨p.declarations_of_startsLine, p.declarations_of_not_startsLine,
    fun _ _ _ => p.declarations_of_split⟩

theorem declarations_attributed_two :
    ∃ p : AttributedItem,
      p.source = "/// F.\n#[a] #[b[0]]\n\n  fn f() \x7b\x7d\nfn g() \x7b\x7d\n".toList ∧
      p.HasShortAttributes ∧ p.StartsLine ∧
      declarations p.source = [⟨"f".toList, 4, "F.".toList⟩] := by
  let p : AttributedItem :=
    { comment := ["/// F.".toList]
      attributes :=
        [⟨"a".toList, " ".toList, by decide⟩, ⟨"b[0]".toList, "\n\n  ".toList, by decide⟩]
      item := "fn f() \x7b\x7d".toList
      below := ["fn g() \x7b\x7d".toList]
      source := "/// F.\n#[a] #[b[0]]\n\n  fn f() \x7b\x7d\nfn g() \x7b\x7d\n".toList
      comment_ne_nil := List.cons_ne_nil _ _
      isCommentLine_of_mem_comment := by decide +kernel
      newline_not_mem_item := by decide
      keepsComment_item := by decide +kernel
      lines_source := by decide +kernel }
  have hshort : p.HasShortAttributes := by
    intro a ha
    rcases List.mem_pair.mp ha with rfl | rfl <;> decide
  have hstarts : p.StartsLine := by
    rintro a ⟨rfl⟩
    decide
  have hbelow : ownDeclaration p.number (commentTexts p.comment) p.item ++
      declarationsFrom (p.number + 1) [] p.below = [⟨"f".toList, 4, "F.".toList⟩] := by
    decide +kernel
  exact ⟨p, rfl, hshort, hstarts, ((declarations_attributed p).1 hshort hstarts).trans hbelow⟩

/-- A comment for a structure goes to the function below it, and one above an attribute of two
lines to nothing, though the item is a function. -/
theorem comment_not_of_own_item :
    (∃ p : AttributedItem,
      p.source = "/// Doc of S.\n#[derive(Debug)] struct S;\nfn f() \x7b\x7d\n".toList ∧
        p.number = 2 ∧ functionName? p.item = none ∧
        declarations p.source = [⟨"f".toList, 3, "Doc of S.".toList⟩]) ∧
      ∃ p : AttributedItem,
        p.source = "/// Doc of f.\n#[cfg(\n  test)]\nfn f() \x7b\x7d\n".toList ∧
          functionName? p.item = some "f".toList ∧ declarations p.source = [] := by
  constructor
  · let p : AttributedItem :=
      { comment := ["/// Doc of S.".toList]
        attributes := [⟨"derive(Debug)".toList, " ".toList, by decide⟩]
        item := "struct S;".toList
        below := ["fn f() \x7b\x7d".toList]
        source := "/// Doc of S.\n#[derive(Debug)] struct S;\nfn f() \x7b\x7d\n".toList
        comment_ne_nil := List.cons_ne_nil _ _
        isCommentLine_of_mem_comment := by decide +kernel
        newline_not_mem_item := by decide
        keepsComment_item := by decide +kernel
        lines_source := by decide +kernel }
    exact ⟨p, rfl, by decide +kernel, by decide +kernel, by decide +kernel⟩
  · let p : AttributedItem :=
      { comment := ["/// Doc of f.".toList]
        attributes := [⟨"cfg(\n  test)".toList, "\n".toList, by decide⟩]
        item := "fn f() \x7b\x7d".toList
        below := []
        source := "/// Doc of f.\n#[cfg(\n  test)]\nfn f() \x7b\x7d\n".toList
        comment_ne_nil := List.cons_ne_nil _ _
        isCommentLine_of_mem_comment := by decide +kernel
        newline_not_mem_item := by decide
        keepsComment_item := by decide +kernel
        lines_source := by decide +kernel }
    exact ⟨p, rfl, by decide +kernel, by decide +kernel⟩

end DocComment.SlashComment
