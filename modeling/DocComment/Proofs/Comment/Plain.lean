import DocComment.Proofs.Comment.Rows
import DocComment.Proofs.Comment.Step

/-!
What can stand in the record of a comment. Its texts are single lines without white space around
them, its entries are named by keys, and only an empty record has no summary. Every step of the
reader keeps the texts plain, so the record at the end holds plain texts alone.
-/

namespace DocComment

/-- A text on one line, without white space around it. -/
structure Text.IsPlain (t : Text) : Prop where
  newline_not_mem : '\n' ∉ t
  trim_eq : Text.trim t = t

/-- A name that a key line can give to an entry. -/
structure KeyLine.IsKey (k : Text) : Prop where
  ne_nil : k ≠ []
  isKeyChar_of_mem : ∀ c ∈ k, KeyLine.isKeyChar c = true

def Entries.IsPlain (e : Entries) : Prop :=
  ∀ p ∈ e.toList, KeyLine.IsKey p.1 ∧ Text.IsPlain p.2

structure Record.IsPlain (r : Record) : Prop where
  summary : Text.IsPlain r.summary
  args : r.args.IsPlain
  returns : Text.IsPlain r.returns
  raises : r.raises.IsPlain

/-- The invariant of the reader. Pending lines are trimmed only when they are joined. -/
structure State.IsPlain (s : State) : Prop where
  record : s.record.IsPlain
  key : ∀ k ∈ s.key, KeyLine.IsKey k
  pending : ∀ l ∈ s.pending, '\n' ∉ l

theorem KeyLine.IsKey.not_mem {k : Text} (hk : IsKey k) {c : Char} (hc : isKeyChar c = false) :
    c ∉ k := by
  intro h
  rw [hk.isKeyChar_of_mem c h] at hc
  cases hc

theorem Text.isPlain_nil : Text.IsPlain [] := ⟨List.not_mem_nil, rfl⟩

theorem Text.isPlain_trim {t : Text} (ht : '\n' ∉ t) : Text.IsPlain (Text.trim t) :=
  ⟨Text.not_mem_trim ht, Text.trim_trim t⟩

theorem Entries.isPlain_empty : Entries.IsPlain ∅ := fun _ hp => absurd hp List.not_mem_nil

theorem Entries.IsPlain.insert {e : Entries} (he : e.IsPlain) {key description : Text}
    (hkey : KeyLine.IsKey key) (hd : Text.IsPlain description) :
    (e.insert key description).IsPlain := by
  intro p hp
  rcases Table.mem_of_mem_put hp with rfl | hp
  · exact ⟨hkey, hd⟩
  · exact he p hp

namespace KeyLine

variable {line t u : Text} {k : KeyLine}

theorem description?_suffix (h : description? t = some u) : u <:+ t := by
  cases t with
  | nil => cases h
  | cons c t =>
      by_cases hcolon : c = ':'
      · subst hcolon
        cases h
        exact List.suffix_cons ..
      · by_cases hopen : c = '('
        · subst hopen
          have hafter : Text.afterLast? "):".toList t = some u := h
          obtain ⟨front, rfl⟩ := Text.afterLast?_eq_append hafter
          exact (List.suffix_append ..).trans (List.suffix_cons ..)
        · simp [description?, hcolon, hopen] at h

/-- What a key line is read as, in its parts. -/
theorem exists_of_ofLine?_eq_some (h : ofLine? line = some k) :
    IsKey k.key ∧ ∃ u, u <:+ line ∧ k.description = Text.trim u := by
  rw [ofLine?] at h
  split at h
  · cases h
  · next hne =>
      obtain ⟨u, hu, rfl⟩ := Option.map_eq_some_iff.mp h
      refine ⟨⟨by simpa using hne, fun c hc => List.mem_takeWhile_imp hc⟩, u, ?_, rfl⟩
      have hrest : Text.trimStart ((Text.trimStart line).dropWhile isKeyChar) <:+ line :=
        (List.dropWhile_suffix _).trans ((List.dropWhile_suffix _).trans (List.dropWhile_suffix _))
      exact (description?_suffix hu).trans hrest

end KeyLine

namespace State

variable {s : State} {l : Text}

theorem isPlain_ofSummary {t : Text} (ht : Text.IsPlain t) : (ofSummary t).IsPlain where
  record := ⟨ht, Entries.isPlain_empty, Text.isPlain_nil, Entries.isPlain_empty⟩
  key := by
    intro k hk
    cases hk
  pending := by
    intro l hl
    cases hl

theorem IsPlain.text (hs : s.IsPlain) : Text.IsPlain s.text :=
  Text.isPlain_trim (Text.not_mem_intercalate (by decide) hs.pending)

theorem IsPlain.committed (hs : s.IsPlain) : s.committed.IsPlain := by
  obtain ⟨hsummary, hargs, hreturns, hraises⟩ := hs.record
  rw [State.committed]
  split
  · next key _ hkey =>
      exact ⟨hsummary, hargs.insert (hs.key key hkey) hs.text, hreturns, hraises⟩
  · next key _ hkey =>
      exact ⟨hsummary, hargs, hreturns, hraises.insert (hs.key key hkey) hs.text⟩
  · exact ⟨hsummary, hargs, hs.text, hraises⟩
  · exact ⟨hsummary, hargs, hreturns, hraises⟩

theorem IsPlain.step (hs : s.IsPlain) (hl : '\n' ∉ l) : (s.step l).IsPlain := by
  rcases s.step_cases l with h | ⟨next, h⟩ | h | ⟨k, hk, h⟩ <;> rw [h]
  · exact hs
  · exact ⟨hs.committed, nofun, nofun⟩
  · refine ⟨hs.record, hs.key, ?_⟩
    intro m hm
    rcases List.mem_append.mp hm with hm | hm
    · exact hs.pending m hm
    · rw [List.mem_singleton.mp hm]
      exact Text.not_mem_trim hl
  · obtain ⟨hkey, u, hu, hd⟩ := KeyLine.exists_of_ofLine?_eq_some hk
    refine ⟨hs.committed, ?_, ?_⟩
    · rintro _ ⟨rfl⟩
      exact hkey
    · intro m hm
      rw [List.mem_singleton.mp hm, hd]
      exact Text.not_mem_trim fun h => hl (hu.subset h)

theorem IsPlain.foldl_step (hs : s.IsPlain) {lines : List Text} (hlines : ∀ l ∈ lines, '\n' ∉ l) :
    (lines.foldl State.step s).IsPlain := by
  induction lines generalizing s with
  | nil => exact hs
  | cons l lines ih =>
      have hstep := hs.step (hlines l (List.mem_cons_self ..))
      exact ih hstep fun m hm => hlines m (List.mem_cons_of_mem l hm)

theorem IsPlain.finish (hs : s.IsPlain) : s.finish.IsPlain := by
  rw [State.finish]
  split
  · exact hs.committed
  · exact hs.record

end State

namespace Record

theorem isPlain_empty : Record.IsPlain {} :=
  ⟨Text.isPlain_nil, Entries.isPlain_empty, Text.isPlain_nil, Entries.isPlain_empty⟩

theorem isPlain_ofText (t : Text) : (ofText t).IsPlain := by
  have hlines : ∀ l ∈ commentLines t, '\n' ∉ l := fun _ hl => Text.newline_not_mem_of_mem_lines hl
  rw [ofText]
  cases h : commentLines t with
  | nil => exact isPlain_empty
  | cons first rest =>
      rw [h] at hlines
      have hfirst : Text.IsPlain (Text.trim first) :=
        Text.isPlain_trim (hlines first (List.mem_cons_self ..))
      exact ((State.isPlain_ofSummary hfirst).foldl_step
        fun l hl => hlines l (List.mem_cons_of_mem first hl)).finish

theorem ofText_of_isBlankLine {t : Text} (ht : Text.isBlankLine t = true) : ofText t = {} := by
  rw [ofText, commentLines_of_isBlankLine ht]

theorem isBlankLine_of_summary_eq_nil {t : Text} (h : (ofText t).summary = []) :
    Text.isBlankLine t = true := by
  cases ht : Text.isBlankLine t with
  | true => rfl
  | false =>
      obtain ⟨first, rest, hlines, htext⟩ := exists_commentLines_eq_cons ht
      have hsummary : (ofText t).summary = Text.trim first := by
        simp only [ofText, hlines]
        exact State.foldl_step_summary rest (State.ofSummary (Text.trim first))
      rw [hsummary, Text.trim_eq_nil_iff, htext] at h
      cases h

theorem summary_ofText_eq_nil_iff {t : Text} :
    (ofText t).summary = [] ↔ Text.isBlankLine t = true := by
  constructor
  · exact isBlankLine_of_summary_eq_nil
  · intro ht
    rw [ofText_of_isBlankLine ht]

/-- Only an empty comment has no summary. -/
theorem eq_empty_of_summary_eq_nil {t : Text} (h : (ofText t).summary = []) : ofText t = {} :=
  ofText_of_isBlankLine (isBlankLine_of_summary_eq_nil h)

/-- What holds of every record that is read from a comment, which may be absent. -/
structure IsRead (r : Record) : Prop where
  plain : r.IsPlain
  eq_empty : r.summary = [] → r = {}

theorem isRead_ofComment (comment : Option Text) : (ofComment comment).IsRead := by
  cases comment with
  | none => exact ⟨isPlain_empty, fun _ => rfl⟩
  | some t => exact ⟨isPlain_ofText t, eq_empty_of_summary_eq_nil⟩

end Record

/-- The record of the function is read from a comment, which may be absent. -/
def DocumentedFunction.IsCommented (f : DocumentedFunction) : Prop :=
  ∃ comment, f.record = Record.ofComment comment

theorem DocumentedFunction.IsCommented.isRead {f : DocumentedFunction} (hf : f.IsCommented) :
    f.record.IsRead := by
  obtain ⟨comment, h⟩ := hf
  rw [h]
  exact Record.isRead_ofComment comment

end DocComment
