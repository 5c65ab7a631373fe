import DocComment.Proofs.Comment.Bodies

/-!
Reading the returned value of a comment section by section. Each of its sections captures the
first line of its body and the indented lines right behind, and the text of a later section
replaces that of an earlier one.
-/

namespace DocComment

/-- What a section for the returned value captures of its body. -/
def returnsPart : List Text → List Text
  | [] => []
  | l :: rest => l :: rest.takeWhile Text.isIndented

def Body.captured (b : Body) : Section × List Text :=
  (b.kind, (returnsPart b.lines).map Text.trim)

/-- The text after sections with these captured lines. A section that captures nothing takes the
text away if another one follows, and leaves it otherwise. -/
def lastReturns (r : Text) : List (Section × List Text) → Text
  | [] => r
  | (kind, got) :: rest =>
      lastReturns (if kind = .returns ∧ (got ≠ [] ∨ rest ≠ [])
        then Text.trim ([' '].intercalate got) else r) rest

theorem returnsPart_of_isIndented {lines : List Text}
    (hlines : ∀ l ∈ lines, Text.isIndented l = true) : returnsPart lines = lines := by
  cases lines with
  | nil => rfl
  | cons l lines =>
      have hrest : ∀ m ∈ lines, Text.isIndented m = true :=
        fun m hm => hlines m (List.mem_cons_of_mem l hm)
      rw [returnsPart, List.takeWhile_eq_self_iff.mpr hrest]

theorem lastReturns_elsewhere {kind : Section} (hkind : kind ≠ .returns) (r : Text)
    (got : List Text) (rest : List (Section × List Text)) :
    lastReturns r ((kind, got) :: rest) = lastReturns r rest := by
  rw [lastReturns, if_neg fun h => hkind h.1]

theorem lastReturns_returns {got : List Text} {rest : List (Section × List Text)}
    (h : got ≠ [] ∨ rest ≠ []) (r : Text) :
    lastReturns r ((.returns, got) :: rest) =
      lastReturns (Text.trim ([' '].intercalate got)) rest := by
  rw [lastReturns, if_pos ⟨rfl, h⟩]

namespace State

variable {s : State} {l : Text}

/-- What the current section will have captured when its body ends. -/
def openReturns (s : State) (front : List Text) : List Text :=
  s.pending ++
    (if s.pending = [] then returnsPart front else front.takeWhile Text.isIndented).map Text.trim

/-- The text for the returned value at the end of the comment. -/
def finalReturns (s : State) (lines : List Text) : Text :=
  lastReturns s.record.returns
    ((s.current, s.openReturns (cutAtHeaders lines).1) :: (cutAtHeaders lines).2.map Body.captured)

theorem openReturns_nil (s : State) : s.openReturns [] = s.pending := by
  rw [openReturns]
  split <;> exact List.append_nil _

theorem openReturns_cons (s : State) (front : List Text)
    (hi : Text.isIndented l = true ∨ s.pending = []) :
    s.openReturns (l :: front) =
      openReturns { s with pending := s.pending ++ [Text.trim l] } front := by
  have hne : s.pending ++ [Text.trim l] ≠ [] := List.append_ne_nil_of_right_ne_nil _ (by simp)
  rw [openReturns, openReturns, if_neg hne, List.append_assoc]
  congr 1
  by_cases hp : s.pending = []
  · rw [if_pos hp]
    rfl
  · rw [if_neg hp, List.takeWhile_cons_of_pos (hi.resolve_right hp)]
    rfl

theorem committed_returns_of_ne (hs : s.current ≠ .returns) :
    s.committed.returns = s.record.returns := by
  cases hc : s.current <;> cases hkey : s.key <;> simp_all [committed]

theorem committed_returns (hs : s.current = .returns) : s.committed.returns = s.text := by
  simp only [committed, hs]

theorem finish_returns (s : State) :
    s.finish.returns = lastReturns s.record.returns [(s.current, s.pending)] := by
  by_cases hs : s.current = .returns
  · by_cases hp : s.pending = []
    · simp [finish, hasOpenItem, lastReturns, hs, hp]
    · rw [hs, lastReturns_returns (.inl hp), finish, hasOpenItem, hs]
      rw [if_pos (by simpa using hp)]
      exact committed_returns hs
  · rw [lastReturns_elsewhere hs, finish]
    split
    · exact committed_returns_of_ne hs
    · rfl

theorem finalReturns_step_of_header {next : Section}
    (h : Section.ofHeader? (Text.trim l) = some next) (rest : List Text) :
    s.finalReturns (l :: rest) = (s.step l).finalReturns rest := by
  rw [step_of_header h, finalReturns, finalReturns, cutAtHeaders_header h, openReturns_nil,
    List.map_cons]
  by_cases hs : s.current = .returns
  · rw [hs, lastReturns_returns (.inr (List.cons_ne_nil _ _))]
    have hflush : s.flush.record.returns = s.text := committed_returns hs
    rw [hflush]
    rfl
  · rw [lastReturns_elsewhere hs]
    have hflush : s.flush.record.returns = s.record.returns := committed_returns_of_ne hs
    rw [hflush]
    rfl

theorem finalReturns_step_elsewhere (hs : s.current ≠ .returns) (hl : Text.isBlankLine l = false)
    (hh : Section.ofHeader? (Text.trim l) = none) (rest : List Text) :
    s.finalReturns (l :: rest) = (s.step l).finalReturns rest := by
  obtain ⟨hcurrent, hrecord⟩ := step_of_content hl hh (s := s)
  have hs' : (s.step l).current ≠ .returns := by
    rcases hcurrent with h | h <;> rw [h]
    · exact hs
    · nofun
  have hreturns : (s.step l).record.returns = s.record.returns := by
    rcases hrecord with h | h <;> rw [h]
    exact committed_returns_of_ne hs
  rw [finalReturns, finalReturns, lastReturns_elsewhere hs, lastReturns_elsewhere hs',
    cutAtHeaders_content hh, hreturns]

theorem finalReturns_step_in_returns (hs : s.current = .returns)
    (hl : Text.isBlankLine l = false) (hh : Section.ofHeader? (Text.trim l) = none)
    (rest : List Text) :
    s.finalReturns (l :: rest) = (s.step l).finalReturns rest := by
  rw [finalReturns, cutAtHeaders_content hh]
  by_cases hi : Text.isIndented l = true ∨ s.pending = []
  · rw [step_in_returns hl hh hs hi, openReturns_cons s _ hi]
    rfl
  · obtain ⟨hind, hp⟩ := not_or.mp hi
    rw [Bool.not_eq_true] at hind
    have hopen : s.hasOpenItem = true := by
      rw [hasOpenItem, hs]
      simpa using hp
    have hgot : s.openReturns (l :: (cutAtHeaders rest).1) = s.pending := by
      rw [openReturns, if_neg hp, List.takeWhile_cons_of_neg (by simp [hind])]
      exact List.append_nil _
    have hflush : s.flush.record.returns = s.text := committed_returns hs
    have hout : Section.outside ≠ .returns := by decide
    rw [step_of_dedent hl hh hind hopen, hgot, hs, lastReturns_returns (.inl hp), finalReturns,
      lastReturns_elsewhere hout, hflush]
    rfl

theorem finalReturns_step (hl : Text.isBlankLine l = false) (rest : List Text) :
    s.finalReturns (l :: rest) = (s.step l).finalReturns rest := by
  cases hh : Section.ofHeader? (Text.trim l) with
  | some next => exact finalReturns_step_of_header hh rest
  | none =>
      by_cases hs : s.current = .returns
      · exact finalReturns_step_in_returns hs hl hh rest
      · exact finalReturns_step_elsewhere hs hl hh rest

theorem foldl_step_returns {lines : List Text}
    (hlines : ∀ l ∈ lines, Text.isBlankLine l = false) (s : State) :
    (lines.foldl step s).finish.returns = s.finalReturns lines := by
  induction lines generalizing s with
  | nil =>
      rw [List.foldl_nil, finish_returns, finalReturns, cutAtHeaders, openReturns_nil]
      rfl
  | cons l lines ih =>
      rw [List.foldl_cons, ih fun m hm => hlines m (List.mem_cons_of_mem l hm)]
      exact (finalReturns_step (hlines l (List.mem_cons_self ..)) lines).symm

end State

theorem Record.returns_ofLines (first : Text) (rest : List Text) :
    (Record.ofLines (first :: rest)).returns =
      lastReturns []
        ((cutAtHeaders (rest.filter (!Text.isBlankLine ·))).2.map Body.captured) := by
  have hrun := State.foldl_step_returns (Text.isBlankLine_of_mem_filter rest)
    (State.ofSummary (Text.trim first))
  rw [State.foldl_step_filter, State.finalReturns, lastReturns_elsewhere (by nofun)] at hrun
  exact hrun

/-! Which section has the last word. -/

/-- The section is for the returned value and holds a line. -/
def Body.Captures (b : Body) : Prop :=
  b.kind = .returns ∧ b.lines ≠ []

instance : DecidablePred Body.Captures :=
  fun b => inferInstanceAs (Decidable (b.kind = .returns ∧ b.lines ≠ []))

/-- The text of the last section for the returned value that captures a line. -/
def lastCaptured? (bs : List Body) : Option Text :=
  (bs.filter fun b => b.Captures).getLast?.map fun b => joined (returnsPart b.lines)

/-- Some section for the returned value captures nothing and is closed by another header, and none
behind it captures a line. -/
inductive EndsCleared : List Body → Prop where
  | here {b : Body} {bs : List Body} (hkind : b.kind = .returns) (hlines : b.lines = [])
      (hclosed : bs ≠ []) (hbehind : ∀ c ∈ bs, ¬ c.Captures) : EndsCleared (b :: bs)
  | behind {bs : List Body} (b : Body) (h : EndsCleared bs) : EndsCleared (b :: bs)

section LastWord

variable {b : Body} {bs : List Body}

theorem lastCaptured?_cons_of_captures (hb : b.Captures) (bs : List Body) :
    lastCaptured? (b :: bs) = some ((lastCaptured? bs).getD (joined (returnsPart b.lines))) := by
  have hfilter : (b :: bs).filter (fun b => b.Captures) = b :: bs.filter fun b => b.Captures :=
    List.filter_cons_of_pos (by simpa using hb)
  rw [lastCaptured?, hfilter, List.getLast?_cons, lastCaptured?]
  cases (bs.filter fun b => b.Captures).getLast? <;> rfl

theorem lastCaptured?_cons_of_not_captures (hb : ¬ b.Captures) (bs : List Body) :
    lastCaptured? (b :: bs) = lastCaptured? bs := by
  have hfilter : (b :: bs).filter (fun b => b.Captures) = bs.filter fun b => b.Captures :=
    List.filter_cons_of_neg (by simpa using hb)
  rw [lastCaptured?, hfilter, lastCaptured?]

theorem lastCaptured?_eq_none_iff : lastCaptured? bs = none ↔ ∀ c ∈ bs, ¬ c.Captures := by
  simp [lastCaptured?]

theorem lastReturns_of_captures (hb : b.Captures) (r : Text) (bs : List Body) :
    lastReturns r ((b :: bs).map Body.captured) =
      lastReturns (joined (returnsPart b.lines)) (bs.map Body.captured) := by
  obtain ⟨hkind, hlines⟩ := hb
  have hgot : (returnsPart b.lines).map Text.trim ≠ [] := by
    obtain ⟨l, rest, hl⟩ := List.exists_cons_of_ne_nil hlines
    rw [hl, returnsPart, List.map_cons]
    exact List.cons_ne_nil _ _
  rw [List.map_cons, Body.captured, hkind, lastReturns_returns (.inl hgot)]
  rfl

/-- A section that captures nothing takes the text away, unless it is the last of all. -/
theorem lastReturns_of_empty (hkind : b.kind = .returns) (hlines : b.lines = [])
    (hclosed : bs ≠ []) (r : Text) :
    lastReturns r ((b :: bs).map Body.captured) = lastReturns [] (bs.map Body.captured) := by
  have hrest : bs.map Body.captured ≠ [] := by simpa using hclosed
  rw [List.map_cons, Body.captured, hkind, hlines, lastReturns_returns (.inr hrest)]
  rfl

theorem lastReturns_singleton_of_empty (hlines : b.lines = []) (r : Text) :
    lastReturns r ([b].map Body.captured) = r := by
  simp [Body.captured, lastReturns, returnsPart, hlines]

theorem endsCleared_cons_iff :
    EndsCleared (b :: bs) ↔
      (b.kind = .returns ∧ b.lines = [] ∧ bs ≠ [] ∧ ∀ c ∈ bs, ¬ c.Captures) ∨ EndsCleared bs := by
  constructor
  · intro h
    cases h with
    | here hkind hlines hclosed hbehind => exact .inl ⟨hkind, hlines, hclosed, hbehind⟩
    | behind _ h => exact .inr h
  · rintro (⟨hkind, hlines, hclosed, hbehind⟩ | h)
    · exact .here hkind hlines hclosed hbehind
    · exact .behind b h

theorem not_endsCleared_nil : ¬ EndsCleared [] := nofun

/-- `t` is what the sections make of the text `r` before them. -/
def LastWord (r : Text) (bs : List Body) (t : Text) : Prop :=
  (EndsCleared bs → t = []) ∧ (¬ EndsCleared bs → t = (lastCaptured? bs).getD r)

theorem LastWord.elsewhere {r t : Text} (hkind : b.kind ≠ .returns) (h : LastWord r bs t) :
    LastWord r (b :: bs) t := by
  rw [LastWord, endsCleared_cons_iff, or_iff_right fun hends => hkind hends.1,
    lastCaptured?_cons_of_not_captures fun hb => hkind hb.1]
  exact h

theorem LastWord.captures {r t : Text} (hb : b.Captures)
    (h : LastWord (joined (returnsPart b.lines)) bs t) : LastWord r (b :: bs) t := by
  rw [LastWord, endsCleared_cons_iff, or_iff_right fun hends => hb.2 hends.2.1,
    lastCaptured?_cons_of_captures hb]
  exact h

/-- If no section behind captures a line, nothing comes in place of what is taken away. -/
theorem LastWord.empty {r t : Text} (hkind : b.kind = .returns) (hlines : b.lines = [])
    (hclosed : bs ≠ []) (h : LastWord [] bs t) : LastWord r (b :: bs) t := by
  obtain ⟨hcleared, hkept⟩ := h
  rw [LastWord, endsCleared_cons_iff, lastCaptured?_cons_of_not_captures fun hb => hb.2 hlines,
    ← lastCaptured?_eq_none_iff]
  cases hlast : lastCaptured? bs with
  | none =>
      have hnil : t = [] := by
        by_cases hends : EndsCleared bs
        · exact hcleared hends
        · rw [hkept hends, hlast]
          rfl
      exact ⟨fun _ => hnil, fun hends => absurd (.inl ⟨hkind, hlines, hclosed, rfl⟩) hends⟩
  | some last =>
      refine ⟨?_, ?_⟩
      · rintro (⟨-, -, -, hnone⟩ | hends)
        · cases hnone
        · exact hcleared hends
      · intro hends
        rw [hkept fun h => hends (.inr h), hlast]
        rfl

theorem lastWord_lastReturns (r : Text) (bs : List Body) :
    LastWord r bs (lastReturns r (bs.map Body.captured)) := by
  induction bs generalizing r with
  | nil => exact ⟨fun h => absurd h not_endsCleared_nil, fun _ => rfl⟩
  | cons b bs ih =>
      by_cases hkind : b.kind = .returns
      · by_cases hlines : b.lines = []
        · by_cases hclosed : bs = []
          · subst hclosed
            have hends : ¬ EndsCleared [b] := by simp [endsCleared_cons_iff, not_endsCleared_nil]
            refine ⟨fun h => absurd h hends, fun _ => ?_⟩
            rw [lastReturns_singleton_of_empty hlines,
              lastCaptured?_cons_of_not_captures fun hb => hb.2 hlines]
            rfl
          · rw [lastReturns_of_empty hkind hlines hclosed]
            exact (ih []).empty hkind hlines hclosed
        · rw [lastReturns_of_captures ⟨hkind, hlines⟩]
          exact (ih _).captures ⟨hkind, hlines⟩
      · rw [List.map_cons, Body.captured, lastReturns_elsewhere hkind]
        exact (ih r).elsewhere hkind

end LastWord

/-- The text for the returned value is that of the last section that captures a line. But a section
that captures nothing takes it away when another header follows; only at the end of the comment it
leaves the text alone. -/
theorem returns_ofText_of_bodies (text : Text) :
    (EndsCleared (bodies text) → (Record.ofText text).returns = []) ∧
      (¬ EndsCleared (bodies text) →
        (Record.ofText text).returns = (lastCaptured? (bodies text)).getD []) := by
  rw [Record.ofText_eq_ofLines, bodies]
  cases commentLines text with
  | nil => exact ⟨fun h => absurd h not_endsCleared_nil, fun _ => rfl⟩
  | cons first rest =>
      rw [Record.returns_ofLines]
      exact lastWord_lastReturns [] _

theorem returns_ofText_ne_lastCaptured :
    (Record.ofText "S.\nReturns:\n    A.\nYields:\nNotes:".toList).returns = [] ∧
      lastCaptured? (bodies "S.\nReturns:\n    A.\nYields:\nNotes:".toList) =
        some "A.".toList := by
  decide +kernel

end DocComment
