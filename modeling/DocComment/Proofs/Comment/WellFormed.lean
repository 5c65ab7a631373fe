import DocComment.Proofs.Comment.Plain

/-!
Every record that is read from a comment is well formed, and reading its summary as a comment of its
own gives the summary back and nothing else.
-/

namespace DocComment

/-- The summary, the returned value and all descriptions. -/
def Record.texts (r : Record) : List Text :=
  r.summary :: r.returns :: (r.args.toList ++ r.raises.toList).map Prod.snd

/-- What a reader of a record may rely on. A text is on one line and neither starts nor ends with
white space; a name is made of word characters and dots and comes once. -/
structure Record.IsWellFormed (r : Record) : Prop where
  newline_not_mem : ∀ t ∈ r.texts, '\n' ∉ t
  isBlank_of_end : ∀ t ∈ r.texts, ∀ c, c ∈ t.head? ∨ c ∈ t.getLast? → Text.isBlank c = false
  name_ne_nil : ∀ k ∈ r.args.keys ++ r.raises.keys, k ≠ []
  isKeyChar_of_mem_name :
    ∀ k ∈ r.args.keys ++ r.raises.keys, ∀ c ∈ k, KeyLine.isKeyChar c = true
  nodup_args : r.args.keys.Nodup
  nodup_raises : r.raises.keys.Nodup

theorem Text.IsPlain.isBlank_of_end {t : Text} (ht : t.IsPlain) {c : Char}
    (hc : c ∈ t.head? ∨ c ∈ t.getLast?) : Text.isBlank c = false := by
  rcases hc with hc | hc
  · have hstart := Text.isIndented_trim t
    rw [ht.trim_eq] at hstart
    cases t with
    | nil => cases hc
    | cons d t =>
        cases hc
        exact hstart
  · rw [← ht.trim_eq] at hc
    exact Text.isBlank_of_mem_getLast?_trim hc

theorem Text.IsPlain.commentLines_eq {t : Text} (ht : t.IsPlain) (hne : t ≠ []) :
    commentLines t = [t] := by
  rw [commentLines, ht.trim_eq]
  exact Text.lines_eq_singleton ht.newline_not_mem hne

namespace Record

variable {r : Record}

theorem IsPlain.isPlain_of_mem_texts (hr : r.IsPlain) {t : Text} (ht : t ∈ r.texts) :
    t.IsPlain := by
  simp only [texts, List.mem_cons, List.mem_map, List.mem_append] at ht
  rcases ht with rfl | rfl | ⟨p, hp | hp, rfl⟩
  · exact hr.summary
  · exact hr.returns
  · exact (hr.args p hp).2
  · exact (hr.raises p hp).2

theorem IsPlain.isKey_of_mem_keys (hr : r.IsPlain) {k : Text}
    (hk : k ∈ r.args.keys ++ r.raises.keys) : KeyLine.IsKey k := by
  simp only [Entries.keys, List.mem_append, List.mem_map] at hk
  rcases hk with ⟨p, hp, rfl⟩ | ⟨p, hp, rfl⟩
  · exact (hr.args p hp).1
  · exact (hr.raises p hp).1

theorem IsPlain.isWellFormed (hr : r.IsPlain) : r.IsWellFormed where
  newline_not_mem _ ht := (hr.isPlain_of_mem_texts ht).newline_not_mem
  isBlank_of_end _ ht _ hc := (hr.isPlain_of_mem_texts ht).isBlank_of_end hc
  name_ne_nil _ hk := (hr.isKey_of_mem_keys hk).ne_nil
  isKeyChar_of_mem_name _ hk := (hr.isKey_of_mem_keys hk).isKeyChar_of_mem
  nodup_args := r.args.nodup_keys
  nodup_raises := r.raises.nodup_keys

theorem ofText_of_isPlain {t : Text} (ht : t.IsPlain) : ofText t = { summary := t } := by
  by_cases hne : t = []
  · subst hne
    rfl
  · rw [ofText, ht.commentLines_eq hne]
    simp only [List.foldl_nil, ht.trim_eq]
    rfl

theorem summary_ofComment_eq_nil_iff (comment : Option Text) :
    (ofComment comment).summary = [] ↔ comment.all Text.isBlankLine = true := by
  cases comment with
  | none => simp [ofComment]
  | some t => exact summary_ofText_eq_nil_iff

theorem summary_ofComment_eq_nil_iff_eq_empty (comment : Option Text) :
    (ofComment comment).summary = [] ↔ ofComment comment = {} := by
  constructor
  · exact (isRead_ofComment comment).eq_empty
  · intro h
    rw [h]

end Record

theorem isWellFormed_ofComment (comment : Option Text) :
    (Record.ofComment comment).IsWellFormed ∧
      ((Record.ofComment comment).summary = [] ↔ comment.all Text.isBlankLine = true) ∧
      ((Record.ofComment comment).summary = [] ↔ Record.ofComment comment = {}) ∧
      Record.ofText (Record.ofComment comment).summary =
        { summary := (Record.ofComment comment).summary } := by
  have hplain : (Record.ofComment comment).IsPlain := (Record.isRead_ofComment comment).plain
  refine ⟨hplain.isWellFormed, ?_, ?_, ?_⟩
  · exact Record.summary_ofComment_eq_nil_iff comment
  · exact Record.summary_ofComment_eq_nil_iff_eq_empty comment
  · exact Record.ofText_of_isPlain hplain.summary

end DocComment
