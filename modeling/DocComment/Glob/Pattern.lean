import DocComment.Text.Basic

/-!
Wildcard patterns for file names: `?`, `*`, `[abc]`, `[a-z]`, `[!abc]`, and `**` for any directories.
-/

namespace DocComment.Glob

/-- A member of a bracketed class. -/
inductive Member where
  | single (c : Char)
  | range (first last : Char)
deriving DecidableEq, Repr

inductive Token where
  | char (c : Char)
  | anyChar
  | anySequence
  /-- `**`, a component of its own. -/
  | recursive
  | within (members : List Member)
  | except (members : List Member)
deriving DecidableEq, Repr

abbrev Pattern := List Token

inductive SyntaxError.Reason where
  | wildcards
  | recursive
  | range
deriving DecidableEq, Repr

/-- Why a text is no pattern. -/
structure SyntaxError where
  /-- Counted in characters from 0. -/
  position : Nat
  reason : SyntaxError.Reason
deriving DecidableEq, Repr

def SyntaxError.Reason.message : SyntaxError.Reason → Text
  | wildcards => "wildcards are either regular \x60*\x60 or recursive \x60**\x60".toList
  | recursive => "recursive wildcards must form a single path component".toList
  | range => "invalid range pattern".toList

def SyntaxError.message (e : SyntaxError) : Text :=
  "Pattern syntax error near position ".toList ++ Nat.toDigits 10 e.position ++ ": ".toList
    ++ e.reason.message

/-- The members that the text between brackets lists. A hyphen between two characters makes them
the ends of a range. -/
def members : Text → List Member
  | a :: '-' :: b :: rest => .range a b :: members rest
  | c :: rest => .single c :: members rest
  | [] => []

/-- The text of a class and what follows its closing bracket. The first character of the class
is a member even if it is a bracket. -/
def cutClass? : Text → Option (Text × Text)
  | [] => none
  | first :: rest =>
    match rest.dropWhile (· ≠ ']') with
    | [] => none
    | _ :: after => some (first :: rest.takeWhile (· ≠ ']'), after)

theorem length_lt_of_cutClass? {t inner after : Text} (h : cutClass? t = some (inner, after)) :
    after.length < t.length := by
  cases t with
  | nil => simp [cutClass?] at h
  | cons first rest =>
    have hs := (List.dropWhile_suffix (l := rest) (fun c => decide (c ≠ ']'))).length_le
    simp only [cutClass?] at h
    split at h
    · simp at h
    · next hd =>
      simp only [Option.some.injEq, Prod.mk.injEq] at h
      rw [hd] at hs
      simp only [← h.2, List.length_cons] at hs ⊢
      omega

/-- Reads a pattern from the given position on. `fresh` tells whether a component starts there. -/
def Pattern.read (position : Nat) (fresh : Bool) : Text → Except SyntaxError Pattern
  | [] => .ok []
  | '?' :: rest => (Pattern.read (position + 1) false rest).map (.anyChar :: ·)
  | '*' :: '*' :: '*' :: _ => .error ⟨position + 2, .wildcards⟩
  | '*' :: '*' :: rest =>
    if fresh then
      match rest with
      | [] => .ok [.recursive]
      | '/' :: rest => (Pattern.read (position + 3) true rest).map (.recursive :: ·)
      | _ => .error ⟨position + 2, .recursive⟩
    else .error ⟨position - 1, .recursive⟩
  | '*' :: rest => (Pattern.read (position + 1) false rest).map (.anySequence :: ·)
  | '[' :: '!' :: rest =>
    match _h : cutClass? rest with
    | none => .error ⟨position, .range⟩
    | some (inner, after) =>
      (Pattern.read (position + inner.length + 3) false after).map (.except (members inner) :: ·)
  | '[' :: rest =>
    match _h : cutClass? rest with
    | none => .error ⟨position, .range⟩
    | some (inner, after) =>
      (Pattern.read (position + inner.length + 2) false after).map (.within (members inner) :: ·)
  | c :: rest => (Pattern.read (position + 1) (c = '/') rest).map (.char c :: ·)
termination_by t => t.length
decreasing_by
  all_goals simp only [List.length_cons]
  all_goals first
    | omega
    | have shorter := length_lt_of_cutClass? _h
      omega

def Pattern.ofText (t : Text) : Except SyntaxError Pattern :=
  Pattern.read 0 true t

/-- The text that a pattern without wildcards stands for. -/
def Pattern.literal? : Pattern → Option Text
  | [] => some []
  | .char c :: rest => (Pattern.literal? rest).map (c :: ·)
  | _ => none

def Member.admits (c : Char) : Member → Bool
  | single m => m = c
  | range first last => first ≤ c && c ≤ last

/-- Whether a token for one character stands for this one. -/
def Token.admits (c : Char) : Token → Bool
  | char d => d = c
  | anyChar => true
  | within members => members.any (·.admits c)
  | except members => !members.any (·.admits c)
  | anySequence | recursive => false

def Token.isSequence : Token → Bool
  | anySequence | recursive => true
  | _ => false

/-- Whether some value from each place on holds. -/
def anyFrom : List Bool → List Bool
  | [] => []
  | b :: rest =>
    let further := anyFrom rest
    (b || further.headD false) :: further

/-- For each suffix of the text, from the whole text to the empty one, whether the pattern stands
for it. -/
def Pattern.verdicts (t : Text) : Pattern → List Bool
  | [] => t.map (fun _ => false) ++ [true]
  | token :: rest =>
    let after := Pattern.verdicts t rest
    if token.isSequence then anyFrom after
    else List.zipWith (fun c b => token.admits c && b) t after.tail ++ [false]

/-- Whether the pattern stands for the whole text. -/
def Pattern.accepts (p : Pattern) (t : Text) : Bool :=
  (p.verdicts t).headD false

theorem Pattern.verdicts_ne_nil (t : Text) (p : Pattern) : p.verdicts t ≠ [] := by
  induction p with
  | nil => simp [Pattern.verdicts]
  | cons token rest ih =>
    simp only [Pattern.verdicts]
    split
    · cases h : Pattern.verdicts t rest with
      | nil => exact absurd h ih
      | cons b l => simp [anyFrom]
    · simp

/-- The verdicts on a text go on with those on its tail. -/
theorem Pattern.verdicts_eq_cons (c : Char) (t : Text) (p : Pattern) :
    p.verdicts (c :: t) = p.accepts (c :: t) :: p.verdicts t := by
  suffices h : ∃ b, p.verdicts (c :: t) = b :: p.verdicts t by
    obtain ⟨b, hb⟩ := h
    rw [Pattern.accepts, hb, List.headD_cons]
  induction p with
  | nil => exact ⟨false, rfl⟩
  | cons token rest ih =>
    obtain ⟨b, hb⟩ := ih
    simp only [Pattern.verdicts, hb]
    split
    · exact ⟨_, rfl⟩
    · cases h : Pattern.verdicts t rest with
      | nil => exact absurd h (Pattern.verdicts_ne_nil t rest)
      | cons d l => exact ⟨_, rfl⟩

theorem Pattern.verdicts_nil (p : Pattern) : p.verdicts [] = [p.accepts []] := by
  suffices h : ∃ b, p.verdicts [] = [b] by
    obtain ⟨b, hb⟩ := h
    rw [Pattern.accepts, hb, List.headD_cons]
  induction p with
  | nil => exact ⟨true, rfl⟩
  | cons token rest ih =>
    obtain ⟨b, hb⟩ := ih
    simp only [Pattern.verdicts, hb]
    split
    · exact ⟨_, rfl⟩
    · exact ⟨_, rfl⟩

theorem Pattern.accepts_nil (t : Text) : Pattern.accepts [] t = t.isEmpty := by
  cases t <;> rfl

theorem Pattern.accepts_sequence_nil {token : Token} (h : token.isSequence = true) (rest : Pattern) :
    Pattern.accepts (token :: rest) [] = Pattern.accepts rest [] := by
  have hn : Pattern.verdicts [] (token :: rest) = anyFrom (Pattern.verdicts [] rest) := if_pos h
  rw [Pattern.accepts, hn, Pattern.verdicts_nil]
  exact Bool.or_false _

/-- A sequence stands for nothing, or for one character and what it stands for next. -/
theorem Pattern.accepts_sequence_cons {token : Token} (h : token.isSequence = true) (rest : Pattern)
    (c : Char) (t : Text) :
    Pattern.accepts (token :: rest) (c :: t) =
      (Pattern.accepts rest (c :: t) || Pattern.accepts (token :: rest) t) := by
  have hc : Pattern.verdicts (c :: t) (token :: rest) = anyFrom (Pattern.verdicts (c :: t) rest) :=
    if_pos h
  have ht : Pattern.verdicts t (token :: rest) = anyFrom (Pattern.verdicts t rest) := if_pos h
  unfold Pattern.accepts
  rw [hc, ht, Pattern.verdicts_eq_cons]
  rfl

theorem Pattern.accepts_single_nil {token : Token} (h : token.isSequence = false) (rest : Pattern) :
    Pattern.accepts (token :: rest) [] = false := by
  simp [Pattern.accepts, Pattern.verdicts, h]

theorem Pattern.accepts_single_cons {token : Token} (h : token.isSequence = false) (rest : Pattern)
    (c : Char) (t : Text) :
    Pattern.accepts (token :: rest) (c :: t) = (token.admits c && Pattern.accepts rest t) := by
  have hc : Pattern.verdicts (c :: t) (token :: rest) =
      List.zipWith (fun c b => token.admits c && b) (c :: t) (Pattern.verdicts (c :: t) rest).tail
        ++ [false] := if_neg (by simp [h])
  rw [Pattern.accepts, hc, Pattern.verdicts_eq_cons, List.tail_cons, Pattern.accepts]
  cases hr : Pattern.verdicts t rest with
  | nil => exact absurd hr (Pattern.verdicts_ne_nil t rest)
  | cons b l => rfl

end DocComment.Glob
