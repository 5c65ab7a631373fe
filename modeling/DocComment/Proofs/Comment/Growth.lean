import DocComment.Proofs.Comment.Rows
import DocComment.Proofs.Comment.Step

/-!
Reading on never loses an entry. Wherever a comment is cut, the names read so far come first among
the names of the whole comment, in the same order, and the text of each is the start of its text in
the whole comment, unless a later line opens an entry of this name again.
-/

namespace DocComment

/-- What reading on can do to entries: names are added behind, and a text gets longer at its end.
Only the given names may have lost their text to a later entry. -/
structure Entries.Grows (names : List Text) (before after : Entries) : Prop where
  keys : before.keys <+: after.keys
  text : ∀ name ∉ names, ∀ d, before.get? name = some d → ∃ d', after.get? name = some d' ∧ d <+: d'

namespace Entries

variable {names more : List Text} {e f g : Entries}

theorem Grows.refl (names : List Text) (e : Entries) : Grows names e e where
  keys := List.prefix_rfl
  text _ _ d hd := ⟨d, hd, List.prefix_rfl⟩

theorem Grows.trans (h : Grows names e f) (h' : Grows more f g) : Grows (names ++ more) e g where
  keys := h.keys.trans h'.keys
  text := by
    intro name hname d hd
    simp only [List.mem_append, not_or] at hname
    obtain ⟨d', hd', hpre⟩ := h.text name hname.1 d hd
    obtain ⟨d'', hd'', hpre'⟩ := h'.text name hname.2 d' hd'
    exact ⟨d'', hd'', hpre.trans hpre'⟩

/-- A new entry puts no other name out. -/
theorem grows_insert (e : Entries) (name d : Text) : Grows [name] e (e.insert name d) where
  keys := by
    rw [keys_insert]
    split
    · exact List.prefix_rfl
    · exact List.prefix_append ..
  text := by
    intro n hn d' hd'
    have hne : n ≠ name := by simpa using hn
    exact ⟨d', by rw [get?_insert, if_neg hne, hd'], List.prefix_rfl⟩

theorem insert_grows_insert (e : Entries) (name : Text) {d d' : Text} (h : d <+: d') :
    Grows [] (e.insert name d) (e.insert name d') where
  keys := ⟨[], by rw [List.append_nil, keys_insert, keys_insert]⟩
  text := by
    intro n _ t ht
    rw [get?_insert] at ht
    by_cases hn : n = name
    · rw [if_pos hn] at ht
      cases ht
      exact ⟨d', by rw [get?_insert, if_pos hn], h⟩
    · rw [if_neg hn] at ht
      exact ⟨t, by rw [get?_insert, if_neg hn, ht], List.prefix_rfl⟩

end Entries

namespace State

variable {kind : Section}

/-- The name of the entry that a line in this role opens, if it stands in a section of this
kind. -/
def opened (s : State) (kind : Section) : Role → List Text
  | .entry line => if s.current = kind then [line.key] else []
  | _ => []

/-- The names of the entries that the lines open in sections of this kind. -/
def openings (kind : Section) (s : State) : List Text → List Text
  | [] => []
  | line :: rest => s.opened kind (s.role line) ++ openings kind (s.step line) rest

/-- Going on with the open item only adds to its text. -/
theorem text_prefix_continued (s : State) (t : Text) :
    s.text <+: State.text { s with pending := s.pending ++ [t] } := by
  obtain ⟨w, hw⟩ := Text.intercalate_prefix_append [' '] s.pending [t]
  simp only [text, ← hw]
  exact Text.trim_prefix_trim_append _ w

theorem grows_closed (s : State) (next : Section) :
    (s.committed.entries kind).Grows []
      (Record.entries (State.committed { s.flush with current := next }) kind) := by
  have hentries : Record.entries (State.committed { s.flush with current := next }) kind =
      s.committed.entries kind := committed_entries_of_no_key rfl
  rw [hentries]
  exact .refl ..

theorem grows_opened (hk : kind.HasEntries) (s : State) (k : KeyLine) :
    (s.committed.entries kind).Grows (s.opened kind (.entry k))
      ((s.apply (.entry k)).committed.entries kind) := by
  by_cases hs : s.current = kind
  · have hopened : s.opened kind (.entry k) = [k.key] := if_pos hs
    have hentries : (s.apply (.entry k)).committed.entries kind =
        (s.committed.entries kind).insert k.key (s.apply (.entry k)).text :=
      committed_entries_of_key (s := s.apply (.entry k)) hk hs rfl
    rw [hopened, hentries]
    exact Entries.grows_insert ..
  · have hentries : (s.apply (.entry k)).committed.entries kind = s.committed.entries kind :=
      committed_entries_of_ne hs
    rw [hentries]
    exact .refl ..

theorem grows_continued (hk : kind.HasEntries) (s : State) (t : Text) :
    (s.committed.entries kind).Grows []
      ((s.apply (.continued t)).committed.entries kind) := by
  by_cases hs : s.current = kind
  · cases hkey : s.key with
    | none =>
        have hentries : (s.apply (.continued t)).committed.entries kind = s.record.entries kind :=
          committed_entries_of_no_key hkey
        rw [committed_entries_of_no_key hkey, hentries]
        exact .refl ..
    | some key =>
        have hentries : (s.apply (.continued t)).committed.entries kind =
            (s.record.entries kind).insert key (s.apply (.continued t)).text :=
          committed_entries_of_key (s := s.apply (.continued t)) hk hs hkey
        rw [committed_entries_of_key hk hs hkey, hentries]
        exact Entries.insert_grows_insert _ key (s.text_prefix_continued t)
  · have hentries : (s.apply (.continued t)).committed.entries kind = s.record.entries kind :=
      committed_entries_of_ne hs
    rw [committed_entries_of_ne hs, hentries]
    exact .refl ..

/-- No line takes an entry away, whatever its role. -/
theorem step_grows (hk : kind.HasEntries) (s : State) (l : Text) :
    (s.committed.entries kind).Grows (s.opened kind (s.role l))
      ((s.step l).committed.entries kind) := by
  rw [step]
  cases s.role l with
  | blank => exact .refl ..
  | header next => exact s.grows_closed next
  | dedent => exact s.grows_closed .outside
  | entry k => exact grows_opened hk s k
  | continued t => exact grows_continued hk s t
  | ignored => exact .refl ..

theorem foldl_step_grows (hk : kind.HasEntries) (lines : List Text) (s : State) :
    (s.finish.entries kind).Grows (s.openings kind lines)
      ((lines.foldl step s).finish.entries kind) := by
  simp only [finish_entries]
  induction lines generalizing s with
  | nil => exact .refl ..
  | cons l lines ih => exact (step_grows hk s l).trans (ih (s.step l))

end State

/-- Cut behind any line but the first, a comment has its entries at the start of those of the
whole comment. -/
theorem entries_ofText_grow {text first : Text} {front later : List Text}
    (h : commentLines text = first :: (front ++ later)) :
    (Record.ofText (['\n'].intercalate (first :: front))).args.Grows
        ((front.foldl State.step (State.ofSummary (Text.trim first))).openings .args later)
        (Record.ofText text).args ∧
      (Record.ofText (['\n'].intercalate (first :: front))).raises.Grows
        ((front.foldl State.step (State.ofSummary (Text.trim first))).openings .raises later)
        (Record.ofText text).raises := by
  have hfirst : Text.isBlankLine first = false := isBlankLine_of_commentLines_eq_cons h
  have hlines : ∀ l ∈ first :: front, '\n' ∉ l := by
    intro l hl
    apply Text.newline_not_mem_of_mem_lines (t := Text.trim text)
    rw [← commentLines, h, ← List.cons_append]
    exact List.mem_append_left later hl
  have hcut := Record.ofText_intercalate_lines hlines hfirst
  have hwhole : Record.ofText text =
      (later.foldl State.step
        (front.foldl State.step (State.ofSummary (Text.trim first)))).finish := by
    rw [Record.ofText_eq_ofLines, h, Record.ofLines, List.foldl_append]
  rw [hcut, hwhole]
  constructor
  · exact State.foldl_step_grows (.inl rfl) later _
  · exact State.foldl_step_grows (.inr rfl) later _

theorem entries_ofText_grow_inside_entry :
    commentLines "S.\nArgs:\n  x: a\n  y: b\n   c\n  x: d".toList =
        "S.".toList :: (["Args:".toList, "  x: a".toList, "  y: b".toList] ++
          ["   c".toList, "  x: d".toList]) ∧
      Entries.Grows ["x".toList]
        (Record.ofText "S.\nArgs:\n  x: a\n  y: b".toList).args
        (Record.ofText "S.\nArgs:\n  x: a\n  y: b\n   c\n  x: d".toList).args ∧
      (Record.ofText "S.\nArgs:\n  x: a\n  y: b".toList).args =
        Entries.ofList [("x".toList, "a".toList), ("y".toList, "b".toList)] ∧
      (Record.ofText "S.\nArgs:\n  x: a\n  y: b\n   c\n  x: d".toList).args =
        Entries.ofList [("x".toList, "d".toList), ("y".toList, "b c".toList)] := by
  have hlines : commentLines "S.\nArgs:\n  x: a\n  y: b\n   c\n  x: d".toList =
      "S.".toList :: (["Args:".toList, "  x: a".toList, "  y: b".toList] ++
        ["   c".toList, "  x: d".toList]) := by decide +kernel
  have hopened : State.openings .args
      (["Args:".toList, "  x: a".toList, "  y: b".toList].foldl State.step
        (State.ofSummary (Text.trim "S.".toList)))
      ["   c".toList, "  x: d".toList] = ["x".toList] := by decide +kernel
  have hcut : ['\n'].intercalate
      ("S.".toList :: ["Args:".toList, "  x: a".toList, "  y: b".toList]) =
      "S.\nArgs:\n  x: a\n  y: b".toList := by decide +kernel
  have hgrow := (entries_ofText_grow hlines).1
  rw [hopened, hcut] at hgrow
  exact ⟨hlines, hgrow, by decide +kernel, by decide +kernel⟩

end DocComment
