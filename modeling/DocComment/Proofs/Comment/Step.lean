import DocComment.Comment.State
import DocComment.Proofs.Text.Trim

/-!
What each kind of line does to a state, and what committing the open item does to the record. No
other proof looks into the steps.
-/

namespace DocComment

/-- The sections whose items are entries. -/
def Section.HasEntries (kind : Section) : Prop :=
  kind = .args ∨ kind = .raises

/-- The entries of a record that come from sections of this kind. -/
def Record.entries (r : Record) : Section → Entries
  | .args => r.args
  | .raises => r.raises
  | _ => ∅

theorem Section.HasEntries.ne_outside {kind : Section} (h : kind.HasEntries) :
    kind ≠ .outside := by
  rcases h with rfl | rfl <;> decide

theorem Section.HasEntries.ne_returns {kind : Section} (h : kind.HasEntries) :
    kind ≠ .returns := by
  rcases h with rfl | rfl <;> decide

theorem Section.elsewhere_or_entries_or_returns (kind : Section) :
    (kind = .outside ∨ kind = .other) ∨ kind.HasEntries ∨ kind = .returns := by
  cases kind <;> simp [HasEntries]

theorem Record.entries_of_not_hasEntries {kind : Section} (hk : ¬ kind.HasEntries) (r : Record) :
    r.entries kind = ∅ := by
  cases kind with
  | args => exact absurd (.inl rfl) hk
  | raises => exact absurd (.inr rfl) hk
  | outside | returns | other => rfl

theorem Section.isBlankLine_of_header {l : Text} {next : Section}
    (h : ofHeader? (Text.trim l) = some next) : Text.isBlankLine l = false := by
  cases hl : Text.isBlankLine l with
  | false => rfl
  | true =>
      rw [Text.trim_eq_nil_iff.mpr hl] at h
      cases h

namespace State

variable {s : State} {kind : Section} {l : Text}

theorem role_of_blank (hl : Text.isBlankLine l = true) : s.role l = .blank := by
  rw [role, Text.isEmpty_trim, hl]
  rfl

theorem role_of_header {next : Section} (h : Section.ofHeader? (Text.trim l) = some next) :
    s.role l = .header next := by
  simp only [role, Text.isEmpty_trim, Section.isBlankLine_of_header h, h, Bool.false_eq_true,
    if_false]

theorem step_of_header {next : Section} (h : Section.ofHeader? (Text.trim l) = some next) :
    s.step l = { s.flush with current := next } := by
  rw [step, role_of_header h]
  rfl

/-- The role of a line with text that heads no section. -/
theorem role_of_content (hl : Text.isBlankLine l = false)
    (hh : Section.ofHeader? (Text.trim l) = none) :
    s.role l =
      if !Text.isIndented l && s.hasOpenItem then .dedent
      else match s.current with
        | .args | .raises =>
          match KeyLine.ofLine? l with
          | some k => .entry k
          | none =>
            if s.key.isSome && Text.isIndented l then .continued (Text.trim l) else .ignored
        | .returns =>
          if s.pending.isEmpty || Text.isIndented l then .continued (Text.trim l) else .ignored
        | .outside | .other => .ignored := by
  rw [role, Text.isEmpty_trim, hl, hh]
  rfl

theorem role_ne_header (hl : Text.isBlankLine l = false)
    (hh : Section.ofHeader? (Text.trim l) = none) (next : Section) : s.role l ≠ .header next := by
  rw [role_of_content hl hh]
  split
  · nofun
  · cases s.current with
    | outside | other => nofun
    | returns => dsimp only; split <;> nofun
    | args | raises =>
        cases KeyLine.ofLine? l with
        | some k => nofun
        | none => dsimp only; split <;> nofun

/-- Without a header, the section and the record can only be left as they are or be closed. -/
theorem step_of_content (hl : Text.isBlankLine l = false)
    (hh : Section.ofHeader? (Text.trim l) = none) :
    ((s.step l).current = s.current ∨ (s.step l).current = .outside) ∧
      ((s.step l).record = s.record ∨ (s.step l).record = s.committed) := by
  cases hrole : s.role l with
  | blank => rw [step, hrole]; exact ⟨.inl rfl, .inl rfl⟩
  | header next => exact absurd hrole (role_ne_header hl hh next)
  | dedent => rw [step, hrole]; exact ⟨.inr rfl, .inr rfl⟩
  | entry k => rw [step, hrole]; exact ⟨.inl rfl, .inr rfl⟩
  | continued t => rw [step, hrole]; exact ⟨.inl rfl, .inl rfl⟩
  | ignored => rw [step, hrole]; exact ⟨.inl rfl, .inl rfl⟩

theorem role_cases_of_content (hl : Text.isBlankLine l = false)
    (hh : Section.ofHeader? (Text.trim l) = none) :
    s.role l = .dedent ∨ s.role l = .ignored ∨ s.role l = .continued (Text.trim l) ∨
      ∃ k, KeyLine.ofLine? l = some k ∧ s.role l = .entry k := by
  rw [role_of_content hl hh]
  split
  · exact .inl rfl
  · cases s.current with
    | outside | other => exact .inr (.inl rfl)
    | returns =>
        dsimp only
        split
        · exact .inr (.inr (.inl rfl))
        · exact .inr (.inl rfl)
    | args | raises =>
        cases hk : KeyLine.ofLine? l with
        | some k => exact .inr (.inr (.inr ⟨k, rfl, rfl⟩))
        | none =>
            dsimp only
            split
            · exact .inr (.inr (.inl rfl))
            · exact .inr (.inl rfl)

/-- All that a step can do: nothing, close the open item and turn to a section, take the line in,
or open the entry of the line. -/
theorem step_cases (s : State) (l : Text) :
    s.step l = s ∨ (∃ next, s.step l = { s.flush with current := next }) ∨
      s.step l = { s with pending := s.pending ++ [Text.trim l] } ∨
      ∃ k, KeyLine.ofLine? l = some k ∧
        s.step l = { s.flush with key := some k.key, pending := [k.description] } := by
  cases hl : Text.isBlankLine l with
  | true => exact .inl (by rw [step, role_of_blank hl]; rfl)
  | false =>
      cases hh : Section.ofHeader? (Text.trim l) with
      | some next => exact .inr (.inl ⟨next, step_of_header hh⟩)
      | none =>
          rcases role_cases_of_content hl hh (s := s) with h | h | h | ⟨k, hk, h⟩ <;> rw [step, h]
          · exact .inr (.inl ⟨.outside, rfl⟩)
          · exact .inl rfl
          · exact .inr (.inr (.inl rfl))
          · exact .inr (.inr (.inr ⟨k, hk, rfl⟩))

theorem isContent_of_role {r : Role} (h : s.role l = r) (hblank : r ≠ .blank)
    (hheader : ∀ next, r ≠ .header next) :
    Text.isBlankLine l = false ∧ Section.ofHeader? (Text.trim l) = none := by
  subst h
  cases hl : Text.isBlankLine l with
  | true => exact absurd (role_of_blank hl) hblank
  | false =>
      cases hh : Section.ofHeader? (Text.trim l) with
      | some next => exact absurd (role_of_header hh) (hheader next)
      | none => exact ⟨rfl, rfl⟩

theorem hasEntries_of_role_entry {k : KeyLine} (h : s.role l = .entry k) :
    s.current.HasEntries := by
  obtain ⟨hl, hh⟩ := isContent_of_role h nofun nofun
  rw [role_of_content hl hh] at h
  split at h
  · cases h
  · cases hs : s.current with
    | args => exact .inl rfl
    | raises => exact .inr rfl
    | outside | other =>
        rw [hs] at h
        cases h
    | returns =>
        rw [hs] at h
        dsimp only at h
        split at h <;> cases h

/-- A line goes on with an item only where one is open or may start without a name. -/
theorem of_role_continued {t : Text} (h : s.role l = .continued t) :
    t = Text.trim l ∧ Text.isBlankLine l = false ∧
      (s.current.HasEntries ∧ s.key.isSome = true ∨ s.current = .returns) := by
  obtain ⟨hl, hh⟩ := isContent_of_role h nofun nofun
  have hplace : s.current.HasEntries ∧ s.key.isSome = true ∨ s.current = .returns := by
    rw [role_of_content hl hh] at h
    split at h
    · cases h
    · cases hs : s.current with
      | returns => exact .inr rfl
      | outside | other =>
          rw [hs] at h
          cases h
      | args | raises =>
          rw [hs] at h
          dsimp only at h
          split at h
          · cases h
          · split at h
            · next hgo =>
                rw [Bool.and_eq_true] at hgo
                exact .inl ⟨by simp [Section.HasEntries], hgo.1⟩
            · cases h
  rcases role_cases_of_content hl hh (s := s) with hr | hr | hr | ⟨k, -, hr⟩ <;>
    rw [h] at hr <;> cases hr
  exact ⟨rfl, hl, hplace⟩

theorem step_of_dedent (hl : Text.isBlankLine l = false)
    (hh : Section.ofHeader? (Text.trim l) = none) (hi : Text.isIndented l = false)
    (ho : s.hasOpenItem = true) : s.step l = { s.flush with current := .outside } := by
  have hrole : s.role l = .dedent := by rw [role_of_content hl hh, hi, ho]; rfl
  rw [step, hrole]
  rfl

theorem hasOpenItem_of_hasEntries (hs : s.current.HasEntries) : s.hasOpenItem = s.key.isSome := by
  rcases hs with hs | hs <;> rw [hasOpenItem, hs]

/-- In a section of entries, after an open one if at all indented. -/
theorem role_in_entries (hl : Text.isBlankLine l = false)
    (hh : Section.ofHeader? (Text.trim l) = none) (hs : s.current.HasEntries)
    (hi : Text.isIndented l = true ∨ s.key = none) :
    s.role l =
      match KeyLine.ofLine? l with
      | some k => .entry k
      | none => if s.key.isSome then .continued (Text.trim l) else .ignored := by
  have hin : (!Text.isIndented l && s.hasOpenItem) = false := by
    rw [hasOpenItem_of_hasEntries hs]
    rcases hi with hi | hi
    · rw [hi]; rfl
    · rw [hi]; exact Bool.and_false _
  have hsome : (s.key.isSome && Text.isIndented l) = s.key.isSome := by
    rcases hi with hi | hi
    · rw [hi, Bool.and_true]
    · rw [hi]; rfl
  rw [role_of_content hl hh, hin, hsome]
  rcases hs with hs | hs <;> rw [hs] <;> rfl

theorem step_of_entry (hl : Text.isBlankLine l = false)
    (hh : Section.ofHeader? (Text.trim l) = none) (hs : s.current.HasEntries)
    (hi : Text.isIndented l = true ∨ s.key = none) {k : KeyLine}
    (hk : KeyLine.ofLine? l = some k) :
    s.step l = { s.flush with key := some k.key, pending := [k.description] } := by
  rw [step, role_in_entries hl hh hs hi, hk]
  rfl

theorem step_of_continued (hl : Text.isBlankLine l = false)
    (hh : Section.ofHeader? (Text.trim l) = none) (hs : s.current.HasEntries)
    (hi : Text.isIndented l = true) (hkey : s.key.isSome = true)
    (hk : KeyLine.ofLine? l = none) :
    s.step l = { s with pending := s.pending ++ [Text.trim l] } := by
  rw [step, role_in_entries hl hh hs (.inl hi), hk, hkey]
  rfl

theorem step_of_no_entry (hl : Text.isBlankLine l = false)
    (hh : Section.ofHeader? (Text.trim l) = none) (hs : s.current.HasEntries)
    (hkey : s.key = none) (hk : KeyLine.ofLine? l = none) : s.step l = s := by
  rw [step, role_in_entries hl hh hs (.inr hkey), hk, hkey]
  rfl

theorem step_in_returns (hl : Text.isBlankLine l = false)
    (hh : Section.ofHeader? (Text.trim l) = none) (hs : s.current = .returns)
    (hi : Text.isIndented l = true ∨ s.pending = []) :
    s.step l = { s with pending := s.pending ++ [Text.trim l] } := by
  have hin : (!Text.isIndented l && s.hasOpenItem) = false := by
    rcases hi with hi | hi
    · rw [hi]; rfl
    · rw [hasOpenItem, hs, hi]; exact Bool.and_false _
  have hgo : (s.pending.isEmpty || Text.isIndented l) = true := by
    rcases hi with hi | hi
    · rw [hi, Bool.or_true]
    · rw [hi]; rfl
  have hrole : s.role l = .continued (Text.trim l) := by
    rw [role_of_content hl hh, hin, hs]
    simp only [Bool.false_eq_true, if_false, hgo, if_true]
  rw [step, hrole]
  rfl

theorem committed_entries_of_key (hk : kind.HasEntries) (hs : s.current = kind) {key : Text}
    (hkey : s.key = some key) :
    s.committed.entries kind = (s.record.entries kind).insert key s.text := by
  subst hs
  rcases hk with hk | hk <;> simp only [committed, hk, hkey, Record.entries]

theorem committed_entries_of_no_key (hkey : s.key = none) :
    s.committed.entries kind = s.record.entries kind := by
  cases hs : s.current <;> cases kind <;> simp only [committed, hs, hkey, Record.entries]

theorem committed_entries_of_ne (hs : s.current ≠ kind) :
    s.committed.entries kind = s.record.entries kind := by
  cases hc : s.current <;> cases hkey : s.key <;> cases kind <;>
    simp_all [committed, Record.entries]

theorem committed_summary (s : State) : s.committed.summary = s.record.summary := by
  cases hc : s.current <;> cases hkey : s.key <;> simp only [committed, hc, hkey]

theorem apply_summary (s : State) (r : Role) : (s.apply r).record.summary = s.record.summary := by
  cases r with
  | blank => rfl
  | header next => exact s.committed_summary
  | dedent => exact s.committed_summary
  | entry k => exact s.committed_summary
  | continued t => rfl
  | ignored => rfl

theorem finish_summary (s : State) : s.finish.summary = s.record.summary := by
  rw [finish]
  split
  · exact s.committed_summary
  · rfl

/-- The lines behind the first leave the summary as it is. -/
theorem foldl_step_summary (lines : List Text) (s : State) :
    (lines.foldl step s).finish.summary = s.record.summary := by
  induction lines generalizing s with
  | nil => exact s.finish_summary
  | cons l lines ih => rw [List.foldl_cons, ih, step, apply_summary]

/-- What is not open at the end would not have changed the entries. -/
theorem finish_entries (s : State) (kind : Section) :
    s.finish.entries kind = s.committed.entries kind := by
  cases hc : s.current <;> cases hkey : s.key <;> cases kind <;>
    simp [finish, hasOpenItem, committed, Record.entries, hc, hkey] <;> split <;> rfl

end State

end DocComment
