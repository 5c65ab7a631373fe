import DocComment.Proofs.Comment.Rows
import DocComment.Proofs.Comment.Step

/-!
Reading the entries of a comment section by section, without a state. The lines behind the summary
are cut at the headers, and each body is read on its own: its entries start at the key lines and
end at the first unindented line behind one. This gives the entries that the state collects.
-/

namespace DocComment

/-- The section of a header, and the lines from there to the next header. -/
structure Body where
  kind : Section
  lines : List Text

/-- The lines before the first header, and the bodies behind it. -/
def cutAtHeaders : List Text → List Text × List Body
  | [] => ([], [])
  | l :: rest =>
      match Section.ofHeader? (Text.trim l) with
      | some kind => ([], ⟨kind, (cutAtHeaders rest).1⟩ :: (cutAtHeaders rest).2)
      | none => (l :: (cutAtHeaders rest).1, (cutAtHeaders rest).2)

/-- The bodies of a comment. Blank lines belong to none. -/
def bodies (text : Text) : List Body :=
  (cutAtHeaders ((commentLines text).tail.filter (!Text.isBlankLine ·))).2

def isKeyLine (l : Text) : Bool :=
  (KeyLine.ofLine? l).isSome

/-- The lines of a body of entries up to the first unindented one behind a key line. -/
def capturedPart : List Text → List Text
  | [] => []
  | l :: rest => l :: if isKeyLine l then rest.takeWhile Text.isIndented else capturedPart rest

def joined (lines : List Text) : Text :=
  Text.trim ([' '].intercalate (lines.map Text.trim))

/-- Each key line opens an entry, which takes the lines up to the next key line. -/
def entriesIn : List Text → List (Text × Text)
  | [] => []
  | l :: rest =>
      match KeyLine.ofLine? l with
      | some k => (k.key, joined (k.description :: rest.takeWhile (!isKeyLine ·))) :: entriesIn rest
      | none => entriesIn rest

/-- The entries of all bodies of one kind, in order. -/
def entriesOf (kind : Section) (bs : List Body) : List (Text × Text) :=
  (bs.filter (·.kind = kind)).flatMap fun b => entriesIn (capturedPart b.lines)

theorem cutAtHeaders_header {l : Text} {next : Section}
    (h : Section.ofHeader? (Text.trim l) = some next) (rest : List Text) :
    cutAtHeaders (l :: rest) = ([], ⟨next, (cutAtHeaders rest).1⟩ :: (cutAtHeaders rest).2) := by
  rw [cutAtHeaders, h]

theorem cutAtHeaders_content {l : Text} (h : Section.ofHeader? (Text.trim l) = none)
    (rest : List Text) :
    cutAtHeaders (l :: rest) = (l :: (cutAtHeaders rest).1, (cutAtHeaders rest).2) := by
  rw [cutAtHeaders, h]

theorem cutAtHeaders_append {front : List Text}
    (hfront : ∀ l ∈ front, Section.ofHeader? (Text.trim l) = none) (rest : List Text) :
    cutAtHeaders (front ++ rest) = (front ++ (cutAtHeaders rest).1, (cutAtHeaders rest).2) := by
  induction front with
  | nil => rfl
  | cons l front ih =>
      have hrest := ih fun m hm => hfront m (List.mem_cons_of_mem l hm)
      rw [List.cons_append, cutAtHeaders_content (hfront l (List.mem_cons_self ..)), hrest]
      rfl

theorem isKeyLine_of_some {l : Text} {k : KeyLine} (h : KeyLine.ofLine? l = some k) :
    isKeyLine l = true := by
  rw [isKeyLine, h]
  rfl

theorem isKeyLine_of_none {l : Text} (h : KeyLine.ofLine? l = none) : isKeyLine l = false := by
  rw [isKeyLine, h]
  rfl

theorem entriesIn_key {l : Text} {k : KeyLine} (h : KeyLine.ofLine? l = some k)
    (rest : List Text) :
    entriesIn (l :: rest) =
      (k.key, joined (k.description :: rest.takeWhile (!isKeyLine ·))) :: entriesIn rest := by
  rw [entriesIn, h]

theorem entriesIn_other {l : Text} (h : KeyLine.ofLine? l = none) (rest : List Text) :
    entriesIn (l :: rest) = entriesIn rest := by
  rw [entriesIn, h]

theorem capturedPart_of_isIndented {lines : List Text}
    (hlines : ∀ l ∈ lines, Text.isIndented l = true) : capturedPart lines = lines := by
  induction lines with
  | nil => rfl
  | cons l lines ih =>
      have hrest : ∀ m ∈ lines, Text.isIndented m = true :=
        fun m hm => hlines m (List.mem_cons_of_mem l hm)
      rw [capturedPart, ih hrest, List.takeWhile_eq_self_iff.mpr hrest, ite_self]

theorem entriesIn_append {front : List Text}
    (hfront : ∀ l ∈ front, KeyLine.ofLine? l = none) (rest : List Text) :
    entriesIn (front ++ rest) = entriesIn rest := by
  induction front with
  | nil => rfl
  | cons l front ih =>
      rw [List.cons_append, entriesIn_other (hfront l (List.mem_cons_self ..)),
        ih fun m hm => hfront m (List.mem_cons_of_mem l hm)]

theorem entriesOf_cons (kind : Section) (b : Body) (bs : List Body) :
    entriesOf kind (b :: bs) =
      (if b.kind = kind then entriesIn (capturedPart b.lines) else []) ++ entriesOf kind bs := by
  by_cases h : b.kind = kind <;> simp [entriesOf, h]

def Entries.insertAll (e : Entries) (pairs : List (Text × Text)) : Entries :=
  pairs.foldl (fun e p => e.insert p.1 p.2) e

@[simp] theorem Entries.insertAll_nil (e : Entries) : e.insertAll [] = e := rfl

@[simp] theorem Entries.insertAll_cons (e : Entries) (p : Text × Text) (ps : List (Text × Text)) :
    e.insertAll (p :: ps) = (e.insert p.1 p.2).insertAll ps := rfl

theorem Entries.insertAll_append (e : Entries) (ps qs : List (Text × Text)) :
    e.insertAll (ps ++ qs) = (e.insertAll ps).insertAll qs := List.foldl_append

namespace State

variable {s : State} {kind : Section} {l : Text}

/-- The entries that the rest of the body adds in a section of entries, the open one first. -/
def openEntries (s : State) (front : List Text) : List (Text × Text) :=
  match s.key with
  | none => entriesIn (capturedPart front)
  | some key =>
      let part := front.takeWhile Text.isIndented
      let more := part.takeWhile (!isKeyLine ·)
      (key, Text.trim ([' '].intercalate (s.pending ++ more.map Text.trim))) :: entriesIn part

/-- The entries of one kind at the end of the body that goes on with these lines. -/
def bodyEntries (s : State) (kind : Section) (front : List Text) : Entries :=
  (s.record.entries kind).insertAll (if s.current = kind then s.openEntries front else [])

/-- The entries of one kind at the end of the comment. -/
def finalEntries (s : State) (kind : Section) (lines : List Text) : Entries :=
  (s.bodyEntries kind (cutAtHeaders lines).1).insertAll (entriesOf kind (cutAtHeaders lines).2)

theorem openEntries_of_no_key (hkey : s.key = none) (front : List Text) :
    s.openEntries front = entriesIn (capturedPart front) := by
  rw [openEntries, hkey]

theorem openEntries_of_key {key : Text} (hkey : s.key = some key) (front : List Text) :
    s.openEntries front =
      (key, Text.trim ([' '].intercalate (s.pending ++
        ((front.takeWhile Text.isIndented).takeWhile (!isKeyLine ·)).map Text.trim))) ::
        entriesIn (front.takeWhile Text.isIndented) := by
  rw [openEntries, hkey]

theorem bodyEntries_of_eq (hs : s.current = kind) (front : List Text) :
    s.bodyEntries kind front = (s.record.entries kind).insertAll (s.openEntries front) := by
  rw [bodyEntries, if_pos hs]

theorem bodyEntries_of_ne (hs : s.current ≠ kind) (front : List Text) :
    s.bodyEntries kind front = s.record.entries kind := by
  rw [bodyEntries, if_neg hs]
  rfl

/-- A key line opens the entry that is read off it and the lines behind. -/
theorem bodyEntries_entry (hs : s.current = kind) {k : KeyLine} (h : KeyLine.ofLine? l = some k)
    (front : List Text) :
    bodyEntries { s.flush with key := some k.key, pending := [k.description] } kind front =
      (s.committed.entries kind).insertAll (entriesIn (l :: front.takeWhile Text.isIndented)) := by
  have hcurrent : State.current
      { s.flush with key := some k.key, pending := [k.description] } = kind := hs
  rw [bodyEntries_of_eq hcurrent, openEntries_of_key rfl, entriesIn_key h, joined, List.map_cons,
    KeyLine.trim_description h]
  rfl

theorem bodyEntries_nil (hk : kind.HasEntries) (s : State) :
    s.bodyEntries kind [] = s.committed.entries kind := by
  by_cases hs : s.current = kind
  · rw [bodyEntries_of_eq hs, openEntries]
    cases hkey : s.key with
    | none => exact (committed_entries_of_no_key hkey).symm
    | some key =>
        rw [committed_entries_of_key hk hs hkey]
        simp [entriesIn, text]
  · rw [bodyEntries_of_ne hs, committed_entries_of_ne hs]

/-- A section of another kind does not add to these entries. -/
theorem bodyEntries_step_elsewhere (hk : kind.HasEntries) (hs : s.current ≠ kind)
    (hl : Text.isBlankLine l = false) (hh : Section.ofHeader? (Text.trim l) = none)
    (front : List Text) : s.bodyEntries kind (l :: front) = (s.step l).bodyEntries kind front := by
  obtain ⟨hcurrent, hrecord⟩ := step_of_content hl hh (s := s)
  have hs' : (s.step l).current ≠ kind := by
    rcases hcurrent with h | h <;> rw [h]
    · exact hs
    · exact hk.ne_outside.symm
  have hentries : (s.step l).record.entries kind = s.record.entries kind := by
    rcases hrecord with h | h <;> rw [h]
    exact committed_entries_of_ne hs
  rw [bodyEntries_of_ne hs, bodyEntries_of_ne hs', hentries]

theorem bodyEntries_step_of_no_key (hk : kind.HasEntries) (hs : s.current = kind)
    (hkey : s.key = none) (hl : Text.isBlankLine l = false)
    (hh : Section.ofHeader? (Text.trim l) = none) (front : List Text) :
    s.bodyEntries kind (l :: front) = (s.step l).bodyEntries kind front := by
  have hcur : s.current.HasEntries := hs ▸ hk
  rw [bodyEntries_of_eq hs, openEntries_of_no_key hkey, capturedPart]
  cases hline : KeyLine.ofLine? l with
  | none =>
      rw [step_of_no_entry hl hh hcur hkey hline, bodyEntries_of_eq hs,
        openEntries_of_no_key hkey, isKeyLine_of_none hline, entriesIn_other hline]
      rfl
  | some k =>
      have hrecord : s.committed.entries kind = s.record.entries kind :=
        committed_entries_of_no_key hkey
      rw [step_of_entry hl hh hcur (.inr hkey) hline, bodyEntries_entry hs hline, hrecord,
        isKeyLine_of_some hline, if_pos rfl]

/-- An unindented line behind an open entry ends what is captured. -/
theorem bodyEntries_step_of_dedent (hk : kind.HasEntries) (hs : s.current = kind) {key : Text}
    (hkey : s.key = some key) (hi : Text.isIndented l = false)
    (hl : Text.isBlankLine l = false) (hh : Section.ofHeader? (Text.trim l) = none)
    (front : List Text) : s.bodyEntries kind (l :: front) = (s.step l).bodyEntries kind front := by
  have hopen : s.hasOpenItem = true := by
    rw [hasOpenItem_of_hasEntries (hs ▸ hk), hkey]
    rfl
  have hpart : (l :: front).takeWhile Text.isIndented = [] :=
    List.takeWhile_cons_of_neg (by simp [hi])
  have hrecord := committed_entries_of_key hk hs hkey
  have hclosed : State.current { s.flush with current := .outside } ≠ kind := hk.ne_outside.symm
  rw [step_of_dedent hl hh hi hopen, bodyEntries_of_ne hclosed, bodyEntries_of_eq hs,
    openEntries_of_key hkey, hpart, List.takeWhile_nil, List.map_nil, List.append_nil]
  exact hrecord.symm

theorem bodyEntries_step_of_key (hk : kind.HasEntries) (hs : s.current = kind) {key : Text}
    (hkey : s.key = some key) (hi : Text.isIndented l = true)
    (hl : Text.isBlankLine l = false) (hh : Section.ofHeader? (Text.trim l) = none)
    (front : List Text) : s.bodyEntries kind (l :: front) = (s.step l).bodyEntries kind front := by
  have hcur : s.current.HasEntries := hs ▸ hk
  have hpart : (l :: front).takeWhile Text.isIndented = l :: front.takeWhile Text.isIndented :=
    List.takeWhile_cons_of_pos hi
  rw [bodyEntries_of_eq hs, openEntries_of_key hkey, hpart]
  cases hline : KeyLine.ofLine? l with
  | none =>
      have hmore := isKeyLine_of_none hline
      have hs' : State.current { s with pending := s.pending ++ [Text.trim l] } = kind := hs
      have hkey' : State.key { s with pending := s.pending ++ [Text.trim l] } = some key := hkey
      rw [step_of_continued hl hh hcur hi (by rw [hkey]; rfl) hline, bodyEntries_of_eq hs',
        openEntries_of_key hkey', entriesIn_other hline,
        List.takeWhile_cons_of_pos (by rw [hmore]; rfl), List.map_cons, List.append_assoc]
      rfl
  | some k =>
      have hnext := isKeyLine_of_some hline
      have hrecord := committed_entries_of_key hk hs hkey
      rw [step_of_entry hl hh hcur (.inl hi) hline, bodyEntries_entry hs hline, hrecord,
        List.takeWhile_cons_of_neg (by simp [hnext]), List.map_nil, List.append_nil]
      rfl

theorem bodyEntries_step (hk : kind.HasEntries) (hl : Text.isBlankLine l = false)
    (hh : Section.ofHeader? (Text.trim l) = none) (front : List Text) :
    s.bodyEntries kind (l :: front) = (s.step l).bodyEntries kind front := by
  by_cases hs : s.current = kind
  · cases hkey : s.key with
    | none => exact bodyEntries_step_of_no_key hk hs hkey hl hh front
    | some key =>
        cases hi : Text.isIndented l with
        | false => exact bodyEntries_step_of_dedent hk hs hkey hi hl hh front
        | true => exact bodyEntries_step_of_key hk hs hkey hi hl hh front
  · exact bodyEntries_step_elsewhere hk hs hl hh front

theorem finalEntries_step (hk : kind.HasEntries) (hl : Text.isBlankLine l = false)
    (rest : List Text) : s.finalEntries kind (l :: rest) = (s.step l).finalEntries kind rest := by
  cases hh : Section.ofHeader? (Text.trim l) with
  | some next =>
      rw [step_of_header hh, finalEntries, cutAtHeaders_header hh, bodyEntries_nil hk,
        entriesOf_cons, Entries.insertAll_append]
      rfl
  | none =>
      rw [finalEntries, cutAtHeaders_content hh, bodyEntries_step hk hl hh]
      rfl

/-- The invariant of a run: the entries at its end are those foretold before it. -/
theorem foldl_step_entries (hk : kind.HasEntries) {lines : List Text}
    (hlines : ∀ l ∈ lines, Text.isBlankLine l = false) (s : State) :
    (lines.foldl step s).finish.entries kind = s.finalEntries kind lines := by
  induction lines generalizing s with
  | nil =>
      rw [List.foldl_nil, finish_entries, ← bodyEntries_nil hk]
      rfl
  | cons l lines ih =>
      rw [List.foldl_cons, ih fun m hm => hlines m (List.mem_cons_of_mem l hm)]
      exact (finalEntries_step hk (hlines l (List.mem_cons_self ..)) lines).symm

end State

theorem Record.entries_ofLines {kind : Section} (hk : kind.HasEntries) (first : Text)
    (rest : List Text) :
    (Record.ofLines (first :: rest)).entries kind =
      Entries.ofList (entriesOf kind (cutAtHeaders (rest.filter (!Text.isBlankLine ·))).2) := by
  have hrun := State.foldl_step_entries hk (Text.isBlankLine_of_mem_filter rest)
    (State.ofSummary (Text.trim first))
  have hstart : (State.ofSummary (Text.trim first)).current ≠ kind := hk.ne_outside.symm
  rw [State.foldl_step_filter, State.finalEntries, State.bodyEntries_of_ne hstart] at hrun
  rw [ofLines, hrun]
  rcases hk with rfl | rfl <;> rfl

/-- The parameters and the errors of a record are the entries of the bodies of their kind. -/
theorem ofText_entries_eq_entriesOf_bodies (text : Text) :
    (Record.ofText text).args = Entries.ofList (entriesOf .args (bodies text)) ∧
      (Record.ofText text).raises = Entries.ofList (entriesOf .raises (bodies text)) := by
  rw [Record.ofText_eq_ofLines, bodies]
  cases commentLines text with
  | nil => exact ⟨rfl, rfl⟩
  | cons first rest =>
      exact ⟨Record.entries_ofLines (.inl rfl) first rest,
        Record.entries_ofLines (.inr rfl) first rest⟩

end DocComment
