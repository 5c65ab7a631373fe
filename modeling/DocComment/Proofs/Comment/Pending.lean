import DocComment.Proofs.Comment.Growth

/-!
What can be pending while a comment is read. A state that the reader comes to has at most one item
open, in the section where it stands; committing this item is all that happens to the entries, and
no entry that is committed changes its place.
-/

namespace DocComment.State

variable {s : State} {kind : Section} {l : Text}

/-- The invariant of the reader: where something is pending, and what. -/
structure IsOrderly (s : State) : Prop where
  /-- Nothing is pending where no text is kept. -/
  elsewhere : s.current = .outside ∨ s.current = .other → s.key = none ∧ s.pending = []
  entries : s.current.HasEntries → (s.key.isSome = true ↔ s.pending ≠ [])
  returns : s.current = .returns →
    s.key = none ∧ ∀ line ∈ s.pending, Text.isBlankLine line = false

/-- What a state can be collecting. -/
inductive Item where
  | entry (kind : Section) (name : Text)
  | returns
deriving DecidableEq

inductive IsPending (s : State) : Item → Prop
  | entry {name : Text} : s.key = some name → IsPending s (.entry s.current name)
  | returns : s.current = .returns → s.pending ≠ [] → IsPending s .returns

theorem isOrderly_of_nothing (hkey : s.key = none) (hpending : s.pending = []) : s.IsOrderly where
  elsewhere _ := ⟨hkey, hpending⟩
  entries _ := by simp [hkey, hpending]
  returns _ := by simp [hkey, hpending]

theorem isOrderly_of_hasEntries (hs : s.current.HasEntries)
    (h : s.key.isSome = true ↔ s.pending ≠ []) : s.IsOrderly where
  elsewhere hout := by
    rcases hs with hs | hs <;> rcases hout with h | h <;> cases hs.symm.trans h
  entries _ := h
  returns hreturns := absurd hreturns hs.ne_returns

theorem isOrderly_of_returns (hs : s.current = .returns) (hkey : s.key = none)
    (h : ∀ line ∈ s.pending, Text.isBlankLine line = false) : s.IsOrderly where
  elsewhere hout := by rcases hout with h | h <;> cases hs.symm.trans h
  entries hentries := absurd hs hentries.ne_returns
  returns _ := ⟨hkey, h⟩

theorem IsOrderly.step (hs : s.IsOrderly) (l : Text) : (s.step l).IsOrderly := by
  rw [State.step]
  cases hrole : s.role l with
  | blank => exact hs
  | ignored => exact hs
  | header next => exact isOrderly_of_nothing rfl rfl
  | dedent => exact isOrderly_of_nothing rfl rfl
  | entry k =>
      have hentries : s.current.HasEntries := hasEntries_of_role_entry hrole
      exact isOrderly_of_hasEntries hentries (by simp [apply])
  | continued t =>
      obtain ⟨rfl, hl, ⟨hentries, hkey⟩ | hreturns⟩ := of_role_continued hrole
      · exact isOrderly_of_hasEntries hentries (by simp [apply, hkey])
      · obtain ⟨hkey, hpending⟩ := hs.returns hreturns
        refine isOrderly_of_returns hreturns hkey ?_
        intro line hline
        rcases List.mem_append.mp hline with hline | hline
        · exact hpending line hline
        · rw [List.mem_singleton.mp hline, Text.isBlankLine_trim, hl]

theorem IsOrderly.foldl_step (hs : s.IsOrderly) (lines : List Text) :
    (lines.foldl State.step s).IsOrderly := by
  induction lines generalizing s with
  | nil => exact hs
  | cons l lines ih => exact ih (hs.step l)

/-- An entry and a returns text are never pending together. -/
theorem IsOrderly.eq_of_isPending (hs : s.IsOrderly) {i j : Item} (hi : s.IsPending i)
    (hj : s.IsPending j) : i = j := by
  cases hi with
  | entry hname =>
      cases hj with
      | entry hname' => rw [Option.some.inj (hname.symm.trans hname')]
      | returns hreturns _ => cases hname.symm.trans (hs.returns hreturns).1
  | returns hreturns _ =>
      cases hj with
      | entry hname => cases hname.symm.trans (hs.returns hreturns).1
      | returns _ _ => rfl

/-- A key or a line that is there belongs to an item. -/
theorem IsOrderly.exists_isPending_iff (hs : s.IsOrderly) :
    (∃ i, s.IsPending i) ↔ s.key ≠ none ∨ s.pending ≠ [] := by
  constructor
  · rintro ⟨_, hname | ⟨-, hpending⟩⟩
    · exact .inl (hname ▸ Option.some_ne_none _)
    · exact .inr hpending
  · intro h
    cases hkey : s.key with
    | some name => exact ⟨_, .entry hkey⟩
    | none =>
        have hpending : s.pending ≠ [] := h.resolve_left fun hne => hne hkey
        rcases s.current.elsewhere_or_entries_or_returns with hc | hc | hc
        · exact absurd (hs.elsewhere hc).2 hpending
        · have hopen := (hs.entries hc).mpr hpending
          rw [hkey] at hopen
          cases hopen
        · exact ⟨_, .returns hc hpending⟩

theorem IsOrderly.hasOpenItem_iff (hs : s.IsOrderly) :
    s.hasOpenItem = true ↔ ∃ i, s.IsPending i := by
  rw [hs.exists_isPending_iff]
  rcases s.current.elsewhere_or_entries_or_returns with hc | hc | hc
  · obtain ⟨hkey, hpending⟩ := hs.elsewhere hc
    rcases hc with hc | hc <;> simp [hasOpenItem, hc, hkey, hpending]
  · rw [hasOpenItem_of_hasEntries hc, ← hs.entries hc, ← Option.isSome_iff_ne_none, or_self]
  · simp [hasOpenItem, hc, (hs.returns hc).1]

/-- Committing adds the pending entry to the entries of its section, and does nothing else to
them. -/
theorem committed_entries_cases (s : State) (kind : Section) :
    s.committed.entries kind = s.record.entries kind ∨
      ∃ name, s.IsPending (.entry kind name) ∧
        s.committed.entries kind = (s.record.entries kind).insert name s.text := by
  by_cases hk : kind.HasEntries
  · by_cases hc : s.current = kind
    · cases hkey : s.key with
      | none => exact .inl (committed_entries_of_no_key hkey)
      | some name =>
          exact .inr ⟨name, hc ▸ .entry hkey, committed_entries_of_key hk hc hkey⟩
    · exact .inl (committed_entries_of_ne hc)
  · left
    rw [Record.entries_of_not_hasEntries hk, Record.entries_of_not_hasEntries hk]

theorem keys_prefix_committed (s : State) (kind : Section) :
    (s.record.entries kind).keys <+: (s.committed.entries kind).keys := by
  rcases s.committed_entries_cases kind with h | ⟨name, -, h⟩
  · exact h ▸ List.prefix_rfl
  · exact h ▸ (Entries.grows_insert (s.record.entries kind) name s.text).keys

/-- A step leaves the record alone or commits to it. -/
theorem record_step_cases (s : State) (l : Text) :
    (s.step l).record = s.record ∨ (s.step l).record = s.committed := by
  rcases s.step_cases l with h | ⟨next, h⟩ | h | ⟨k, -, h⟩ <;> rw [h]
  · exact .inl rfl
  · exact .inr rfl
  · exact .inl rfl
  · exact .inr rfl

theorem keys_prefix_step (s : State) (kind : Section) (l : Text) :
    (s.record.entries kind).keys <+: ((s.step l).record.entries kind).keys := by
  rcases s.record_step_cases l with h | h
  · exact h ▸ List.prefix_rfl
  · exact h ▸ s.keys_prefix_committed kind

theorem keys_prefix_foldl_step (s : State) (kind : Section) (lines : List Text) :
    (s.record.entries kind).keys <+: ((lines.foldl State.step s).record.entries kind).keys := by
  induction lines generalizing s with
  | nil => exact List.prefix_rfl
  | cons l lines ih => exact (s.keys_prefix_step kind l).trans (ih (s.step l))

/-- What holds of every state that the reader comes to, whatever the lines. -/
theorem isOrderly_read (summary : Text) (lines : List Text) :
    let s := lines.foldl State.step (ofSummary summary)
    s.IsOrderly ∧ (∀ i j, s.IsPending i → s.IsPending j → i = j) ∧
      (s.hasOpenItem = true ↔ ∃ i, s.IsPending i) ∧
      ((∃ i, s.IsPending i) ↔ s.key ≠ none ∨ s.pending ≠ []) ∧
      s.flush.key = none ∧ s.flush.pending = [] ∧
      ∀ kind,
        (s.flush.record.entries kind = s.record.entries kind ∨
          ∃ name, s.IsPending (.entry kind name) ∧
            s.flush.record.entries kind = (s.record.entries kind).insert name s.text) ∧
        ∀ later : List Text, (s.record.entries kind).keys <+:
          ((later.foldl State.step s).record.entries kind).keys := by
  intro s
  have hs : s.IsOrderly := (isOrderly_of_nothing rfl rfl).foldl_step lines
  refine ⟨hs, fun i j => hs.eq_of_isPending, hs.hasOpenItem_iff, hs.exists_isPending_iff, rfl, rfl,
    ?_⟩
  intro kind
  exact ⟨s.committed_entries_cases kind, s.keys_prefix_foldl_step kind⟩

theorem isOrderly_read_open_entry :
    let s := ["Args:".toList, "  x: a".toList].foldl State.step (ofSummary ['S'])
    s.IsPending (.entry .args ['x']) ∧ (∀ i, s.IsPending i → i = .entry .args ['x']) ∧
      s.hasOpenItem = true ∧ s.record.args = ∅ ∧
      s.flush.record.args = Entries.ofList [(['x'], ['a'])] := by
  intro s
  obtain ⟨-, hone, hopen, -⟩ := isOrderly_read ['S'] ["Args:".toList, "  x: a".toList]
  have hcurrent : s.current = .args := by decide +kernel
  have hkey : s.key = some ['x'] := by decide +kernel
  have hx : s.IsPending (.entry .args ['x']) := hcurrent ▸ .entry hkey
  exact ⟨hx, fun i hi => hone i _ hi hx, hopen.mpr ⟨_, hx⟩, by decide +kernel, by decide +kernel⟩

end DocComment.State
