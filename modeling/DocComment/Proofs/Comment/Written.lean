import DocComment.Proofs.Comment.Returns

/-!
Writing comments and reading them back. A written comment is a summary and a sequence of sections,
whose entries and returned values stand on indented lines under any spelling of their headers. Its
record is read back from every text with these lines, whatever blank lines stand between them.
-/

namespace DocComment

attribute [ext] Record

/-- A line of an item: indented text that heads no section. -/
structure IsItemLine (l : Text) : Prop where
  text : Text.isBlankLine l = false
  indented : Text.isIndented l = true
  content : Section.ofHeader? (Text.trim l) = none

/-- The line `name: first`, or `name (type): first`, under an indentation. -/
def entryLine (indent name : Text) (type : Option Text) (first : Text) : Text :=
  indent ++ (name ++ (type.elim [] (fun t => ' ' :: '(' :: (t ++ [')'])) ++ ':' :: first))

section EntryLine

variable {indent name : Text}

theorem isBlankLine_entryLine (hne : name ≠ []) (hname : ∀ c ∈ name, KeyLine.isKeyChar c = true)
    (type : Option Text) (first : Text) :
    Text.isBlankLine (entryLine indent name type first) = false := by
  obtain ⟨c, cs, rfl⟩ := List.exists_cons_of_ne_nil hne
  have hc : Text.isBlank c = false := KeyLine.isBlank_of_isKeyChar (hname c (List.mem_cons_self ..))
  simp [entryLine, Text.isBlankLine, hc]

theorem isIndented_entryLine (hindent : Text.isBlankLine indent = true) (hne : indent ≠ [])
    (name : Text) (type : Option Text) (first : Text) :
    Text.isIndented (entryLine indent name type first) = true := by
  rw [entryLine, Text.isIndented_append hne]
  exact Text.isIndented_of_isBlankLine hindent hne

/-- The line is read back, but for what an annotation takes of the text behind it. -/
theorem ofLine?_entryLine (hindent : Text.isBlankLine indent = true) (hne : name ≠ [])
    (hname : ∀ c ∈ name, KeyLine.isKeyChar c = true) (type : Option Text) (first : Text) :
    KeyLine.ofLine? (entryLine indent name type first) =
      some ⟨name, Text.trim (type.elim first fun _ => KeyLine.keptText first)⟩ := by
  rw [entryLine, KeyLine.ofLine?_blank_append hindent]
  cases type with
  | none => exact KeyLine.ofLine?_colon hne hname first
  | some t =>
      have hline := KeyLine.ofLine?_annotated (w := [' ']) hne hname (by decide) t first
      simpa using hline

end EntryLine

/-- An entry, which starts on a line of its own and goes on with more lines. -/
structure WrittenEntry where
  indent : Text
  name : Text
  type : Option Text
  first : Text
  more : List Text
  indent_blank : Text.isBlankLine indent = true
  indent_ne_nil : indent ≠ []
  name_ne_nil : name ≠ []
  isKeyChar_of_mem_name : ∀ c ∈ name, KeyLine.isKeyChar c = true
  /-- A bracket that closes right before a colon would end the type later. -/
  first_of_type : type ≠ none → ¬ [')', ':'] <:+: first
  head_content : Section.ofHeader? (Text.trim (entryLine indent name type first)) = none
  isItemLine_of_mem_more : ∀ l ∈ more, IsItemLine l ∧ KeyLine.ofLine? l = none

namespace WrittenEntry

def head (e : WrittenEntry) : Text :=
  entryLine e.indent e.name e.type e.first

def lines (e : WrittenEntry) : List Text :=
  e.head :: e.more

def pair (e : WrittenEntry) : Text × Text :=
  (e.name, joined (e.first :: e.more))

theorem ofLine?_head (e : WrittenEntry) :
    KeyLine.ofLine? e.head = some ⟨e.name, Text.trim e.first⟩ := by
  have hkept : e.type.elim e.first (fun _ => KeyLine.keptText e.first) = e.first := by
    cases ha : e.type with
    | none => rfl
    | some t => exact KeyLine.keptText_eq_self (e.first_of_type (by rw [ha]; nofun))
  rw [head, ofLine?_entryLine e.indent_blank e.name_ne_nil e.isKeyChar_of_mem_name, hkept]

theorem isItemLine_head (e : WrittenEntry) : IsItemLine e.head where
  text := isBlankLine_entryLine e.name_ne_nil e.isKeyChar_of_mem_name e.type e.first
  indented := isIndented_entryLine e.indent_blank e.indent_ne_nil e.name e.type e.first
  content := e.head_content

theorem isItemLine_of_mem_lines {e : WrittenEntry} {l : Text} (h : l ∈ e.lines) :
    IsItemLine l := by
  rcases List.mem_cons.mp h with rfl | h
  · exact e.isItemLine_head
  · exact (e.isItemLine_of_mem_more l h).1

end WrittenEntry

inductive WrittenSection where
  | entries (kind : Section) (header : Text) (items : List WrittenEntry) :
      kind.HasEntries → Section.ofHeader? (Text.trim header) = some kind → WrittenSection
  | returns (header : Text) (lines : List Text) : lines ≠ [] → (∀ l ∈ lines, IsItemLine l) →
      Section.ofHeader? (Text.trim header) = some .returns → WrittenSection

namespace WrittenSection

def header : WrittenSection → Text
  | entries _ header _ _ _ => header
  | returns header _ _ _ _ => header

def body : WrittenSection → Body
  | entries kind _ items _ _ => ⟨kind, items.flatMap WrittenEntry.lines⟩
  | returns _ lines _ _ _ => ⟨.returns, lines⟩

def lines (s : WrittenSection) : List Text :=
  s.header :: s.body.lines

/-- The entries of the section, if it is of this kind. -/
def pairs (kind : Section) : WrittenSection → List (Text × Text)
  | entries k _ items _ _ => if k = kind then items.map WrittenEntry.pair else []
  | returns .. => []

def returnsLines? : WrittenSection → Option (List Text)
  | entries .. => none
  | returns _ lines _ _ _ => some lines

theorem ofHeader?_header (s : WrittenSection) :
    Section.ofHeader? (Text.trim s.header) = some s.body.kind := by
  cases s with
  | entries _ _ _ _ h => exact h
  | returns _ _ _ _ h => exact h

theorem isItemLine_of_mem_body {s : WrittenSection} {l : Text} (h : l ∈ s.body.lines) :
    IsItemLine l := by
  cases s with
  | entries kind header items hk hh =>
      obtain ⟨e, -, hl⟩ := List.mem_flatMap.mp h
      exact WrittenEntry.isItemLine_of_mem_lines hl
  | returns header lines hne hlines hh => exact hlines l h

theorem isBlankLine_of_mem_lines {s : WrittenSection} {l : Text} (h : l ∈ s.lines) :
    Text.isBlankLine l = false := by
  rcases List.mem_cons.mp h with rfl | h
  · exact Section.isBlankLine_of_header s.ofHeader?_header
  · exact (isItemLine_of_mem_body h).text

end WrittenSection

structure WrittenComment where
  summary : Text
  sections : List WrittenSection
  summary_text : Text.isBlankLine summary = false

namespace WrittenComment

def lines (c : WrittenComment) : List Text :=
  c.summary :: c.sections.flatMap WrittenSection.lines

/-- What the comment says. Of several returned values the last one counts. -/
def record (c : WrittenComment) : Record where
  summary := Text.trim c.summary
  args := Entries.ofList (c.sections.flatMap (WrittenSection.pairs .args))
  returns := ((c.sections.filterMap WrittenSection.returnsLines?).getLast?.map joined).getD []
  raises := Entries.ofList (c.sections.flatMap (WrittenSection.pairs .raises))

end WrittenComment

theorem cutAtHeaders_sections (secs : List WrittenSection) :
    cutAtHeaders (secs.flatMap WrittenSection.lines) = ([], secs.map WrittenSection.body) := by
  induction secs with
  | nil => rfl
  | cons s secs ih =>
      have hbody : ∀ l ∈ s.body.lines, Section.ofHeader? (Text.trim l) = none :=
        fun l hl => (WrittenSection.isItemLine_of_mem_body hl).content
      rw [List.flatMap_cons, WrittenSection.lines, List.cons_append,
        cutAtHeaders_header s.ofHeader?_header, cutAtHeaders_append hbody, ih, List.append_nil]
      rfl

/-- An entry ends where the next one starts. -/
theorem takeWhile_not_isKeyLine (items : List WrittenEntry) :
    (items.flatMap WrittenEntry.lines).takeWhile (!isKeyLine ·) = [] := by
  cases items with
  | nil => rfl
  | cons e items =>
      have hhead := isKeyLine_of_some e.ofLine?_head
      rw [List.flatMap_cons, WrittenEntry.lines, List.cons_append]
      exact List.takeWhile_cons_of_neg (by rw [hhead]; nofun)

theorem entriesIn_items (items : List WrittenEntry) :
    entriesIn (items.flatMap WrittenEntry.lines) = items.map WrittenEntry.pair := by
  induction items with
  | nil => rfl
  | cons e items ih =>
      have hmore : ∀ l ∈ e.more, KeyLine.ofLine? l = none :=
        fun l hl => (e.isItemLine_of_mem_more l hl).2
      have htake : (e.more ++ items.flatMap WrittenEntry.lines).takeWhile (!isKeyLine ·) =
          e.more := by
        rw [List.takeWhile_append_of_pos, takeWhile_not_isKeyLine, List.append_nil]
        intro l hl
        rw [isKeyLine_of_none (hmore l hl)]
        rfl
      rw [List.flatMap_cons, WrittenEntry.lines, List.cons_append, entriesIn_key e.ofLine?_head,
        htake, entriesIn_append hmore, ih, List.map_cons, WrittenEntry.pair]
      simp only [joined, List.map_cons, Text.trim_trim]

theorem entriesIn_body {kind : Section} (hk : kind.HasEntries) (s : WrittenSection) :
    (if s.body.kind = kind then entriesIn (capturedPart s.body.lines) else []) =
      s.pairs kind := by
  have hindented : ∀ l ∈ s.body.lines, Text.isIndented l = true :=
    fun l hl => (WrittenSection.isItemLine_of_mem_body hl).indented
  rw [capturedPart_of_isIndented hindented]
  cases s with
  | entries k header items hkind hh =>
      simp only [WrittenSection.body, WrittenSection.pairs, entriesIn_items]
  | returns header lines hne hlines hh =>
      exact if_neg hk.ne_returns.symm

theorem entriesOf_sections {kind : Section} (hk : kind.HasEntries) (secs : List WrittenSection) :
    entriesOf kind (secs.map WrittenSection.body) = secs.flatMap (WrittenSection.pairs kind) := by
  induction secs with
  | nil => rfl
  | cons s secs ih => rw [List.map_cons, entriesOf_cons, entriesIn_body hk, ih, List.flatMap_cons]

theorem lastReturns_sections (secs : List WrittenSection) (r : Text) :
    lastReturns r ((secs.map WrittenSection.body).map Body.captured) =
      ((secs.filterMap WrittenSection.returnsLines?).getLast?.map joined).getD r := by
  induction secs generalizing r with
  | nil => rfl
  | cons s secs ih =>
      rw [List.map_cons, List.map_cons]
      cases s with
      | entries kind header items hkind hh =>
          rw [Body.captured, WrittenSection.body, lastReturns_elsewhere hkind.ne_returns, ih]
          rfl
      | returns header lines hne hlines hh =>
          have hpart : returnsPart lines = lines :=
            returnsPart_of_isIndented fun l hl => (hlines l hl).indented
          have hgot : lines.map Text.trim ≠ [] := by simpa using hne
          rw [Body.captured, WrittenSection.body, hpart, lastReturns_returns (.inl hgot), ih,
            List.filterMap_cons_some (rfl : WrittenSection.returnsLines? _ = some lines),
            List.getLast?_cons]
          cases (secs.filterMap WrittenSection.returnsLines?).getLast? <;> rfl

/-- A written comment is read back, with blank lines anywhere between its lines. -/
theorem ofText_eq_record_of_written (c : WrittenComment) {t : Text}
    (ht : (t.splitOn '\n').filter (!Text.isBlankLine ·) = c.lines) :
    Record.ofText t = c.record := by
  have hread : Record.ofText t = Record.ofLines c.lines := by
    rw [Record.ofText_eq_ofLines_filter, ht]
  have hrest : (c.sections.flatMap WrittenSection.lines).filter (!Text.isBlankLine ·) =
      c.sections.flatMap WrittenSection.lines := by
    rw [List.filter_eq_self]
    intro l hl
    obtain ⟨s, -, hs⟩ := List.mem_flatMap.mp hl
    rw [WrittenSection.isBlankLine_of_mem_lines hs]
    rfl
  have hentries {kind : Section} (hk : kind.HasEntries) :
      (Record.ofLines c.lines).entries kind =
        Entries.ofList (c.sections.flatMap (WrittenSection.pairs kind)) := by
    rw [WrittenComment.lines, Record.entries_ofLines hk, hrest, cutAtHeaders_sections,
      entriesOf_sections hk]
  rw [hread]
  apply Record.ext
  · exact State.foldl_step_summary _ _
  · exact hentries (.inl rfl)
  · rw [WrittenComment.lines, Record.returns_ofLines, hrest, cutAtHeaders_sections,
      lastReturns_sections]
    rfl
  · exact hentries (.inr rfl)

theorem ofText_eq_record_of_written_sample :
    ∃ c : WrittenComment,
      ("S.\n\n ARGS:\n  x (a:b):\n\n   c\nYields:\n n\nraises if:\n E.e: f".toList.splitOn
        '\n').filter (!Text.isBlankLine ·) = c.lines ∧
      Record.ofText
        "S.\n\n ARGS:\n  x (a:b):\n\n   c\nYields:\n n\nraises if:\n E.e: f".toList = c.record ∧
      c.record = ⟨"S.".toList, Entries.ofList [("x".toList, "c".toList)], "n".toList,
        Entries.ofList [("E.e".toList, "f".toList)]⟩ := by
  have hmore : IsItemLine "   c".toList := ⟨by decide, by decide, by decide +kernel⟩
  have hreturns : IsItemLine " n".toList := ⟨by decide, by decide, by decide +kernel⟩
  let x : WrittenEntry := ⟨"  ".toList, "x".toList, some "a:b".toList, [], ["   c".toList],
    by decide, by decide, by decide, List.all_eq_true.mp (by decide), by decide, by decide +kernel,
    List.forall_mem_singleton.mpr ⟨hmore, by decide +kernel⟩⟩
  let e : WrittenEntry := ⟨" ".toList, "E.e".toList, none, " f".toList, [],
    by decide, by decide, by decide, List.all_eq_true.mp (by decide), by decide, by decide +kernel,
    nofun⟩
  let c : WrittenComment := ⟨"S.".toList, [
    .entries .args " ARGS:".toList [x] (.inl rfl) (by decide +kernel),
    .returns "Yields:".toList [" n".toList] (by decide) (List.forall_mem_singleton.mpr hreturns)
      (by decide +kernel),
    .entries .raises "raises if:".toList [e] (.inr rfl) (by decide +kernel)], by decide⟩
  have hc : ("S.\n\n ARGS:\n  x (a:b):\n\n   c\nYields:\n n\nraises if:\n E.e: f".toList.splitOn
      '\n').filter (!Text.isBlankLine ·) = ["S.".toList, " ARGS:".toList, "  x (a:b):".toList,
        "   c".toList, "Yields:".toList, " n".toList, "raises if:".toList,
        " E.e: f".toList] := by decide +kernel
  exact ⟨c, hc, ofText_eq_record_of_written c hc, rfl⟩

end DocComment
