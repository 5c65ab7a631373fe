/-!
Texts as lists of characters: classes of characters, lines, and search for a fixed piece.
-/

namespace DocComment

/-- A text is the sequence of its characters. -/
abbrev Text := List Char

namespace Text

/-- Whether a range of the table holds the code point of `c`, both ends included. -/
def inRanges (table : List (Nat × Nat)) (c : Char) : Bool :=
  table.any fun r => r.1 ≤ c.toNat && c.toNat ≤ r.2

/-- The text without one carriage return at its end. -/
def chomp (t : Text) : Text :=
  if t.getLast? = some '\r' then t.dropLast else t

/-- Ends each piece but the last as a line; the last one is a line only if it has a character. -/
def linesOfPieces : List Text → List Text
  | [] => []
  | [last] => if last.isEmpty then [] else [last]
  | piece :: pieces => chomp piece :: linesOfPieces pieces

/-- The lines of a text. A line feed ends a line, together with a carriage return right before
it; the last line needs no end and then keeps its carriage return. -/
def lines (t : Text) : List Text :=
  linesOfPieces (t.splitOn '\n')

/-- What stands after `p`, if the text starts with it. -/
def after? (p t : Text) : Option Text :=
  if p.isPrefixOf t then some (t.drop p.length) else none

/-- What stands before the first occurrence of `p`. -/
def before? (p : Text) : Text → Option Text
  | [] => if p.isEmpty then some [] else none
  | c :: t => if p.isPrefixOf (c :: t) then some [] else (before? p t).map (c :: ·)

/-- What stands after the last occurrence of `p`. -/
def afterLast? (p : Text) : Text → Option Text
  | [] => after? p []
  | c :: t => (afterLast? p t).or (after? p (c :: t))

theorem after?_eq_some_iff {p t u : Text} : after? p t = some u ↔ t = p ++ u := by
  unfold after?
  constructor
  · intro h
    split at h
    · next hp =>
      obtain ⟨rest, rfl⟩ := List.isPrefixOf_iff_prefix.1 hp
      simp_all
    · simp at h
  · rintro rfl
    simp

theorem before?_eq_append {p t u : Text} (h : before? p t = some u) :
    ∃ rest, t = u ++ p ++ rest := by
  induction t generalizing u with
  | nil =>
    cases p with
    | nil => exact ⟨[], by simp_all [before?]⟩
    | cons => simp [before?] at h
  | cons c t ih =>
    simp only [before?] at h
    split at h
    · next hp =>
      obtain ⟨rest, hrest⟩ := List.isPrefixOf_iff_prefix.1 hp
      exact ⟨rest, by simp_all⟩
    · obtain ⟨v, hv, rfl⟩ := Option.map_eq_some_iff.1 h
      obtain ⟨rest, rfl⟩ := ih hv
      exact ⟨rest, by simp⟩

theorem afterLast?_eq_append {p t u : Text} (h : afterLast? p t = some u) :
    ∃ front, t = front ++ p ++ u := by
  induction t with
  | nil => exact ⟨[], by simpa using after?_eq_some_iff.1 h⟩
  | cons c t ih =>
    simp only [afterLast?, Option.or_eq_some_iff] at h
    rcases h with h | ⟨-, h⟩
    · obtain ⟨front, rfl⟩ := ih h
      exact ⟨c :: front, by simp⟩
    · exact ⟨[], by simpa using after?_eq_some_iff.1 h⟩

end Text

end DocComment
