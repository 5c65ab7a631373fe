import DocComment.Source.Declaration

/-!
Functions documented by the `///` lines above their `fn`. Attributes and blank lines may stand
between; any other line of code parts the comment from what follows.
-/

namespace DocComment.SlashComment

/-- What follows the gap of white space that the text starts with. -/
def afterGap? (t : Text) : Option Text :=
  if t.head?.any Text.isBlank then some (Text.trimStart t) else none

/-- What follows the word and a gap, if the text starts with them. -/
def afterWord? (word t : Text) : Option Text :=
  (Text.after? word t).bind afterGap?

theorem length_trimStart_le (t : Text) : (Text.trimStart t).length ≤ t.length :=
  (List.dropWhile_suffix _).length_le

theorem length_lt_of_afterGap? {t rest : Text} (h : afterGap? t = some rest) :
    rest.length < t.length := by
  unfold afterGap? at h
  split at h
  · next hb =>
    cases t with
    | nil => simp at hb
    | cons c t =>
      have hc : Text.isBlank c = true := by simpa using hb
      have := length_trimStart_le t
      simp only [Text.trimStart, List.dropWhile_cons, hc, if_true, Option.some.injEq] at h
      simp only [Text.trimStart] at this
      simp only [← h, List.length_cons]
      omega
  · simp at h

theorem length_lt_of_afterWord? {word t rest : Text} (h : afterWord? word t = some rest) :
    rest.length < t.length := by
  obtain ⟨u, hu, hr⟩ := Option.bind_eq_some_iff.1 h
  have := length_lt_of_afterGap? hr
  rw [Text.after?_eq_some_iff.1 hu, List.length_append]
  omega

/-- What follows a bracketed restriction, if the text starts with one. -/
def skipRestriction (t : Text) : Text :=
  match t with
  | '(' :: inner =>
    match inner.dropWhile (· ≠ ')') with
    | [] => t
    | _ :: rest => rest
  | _ => t

def skipVisibility (t : Text) : Text :=
  ((Text.after? "pub".toList t).bind fun rest => afterGap? (skipRestriction rest)).getD t

def qualifiers : List Text :=
  ["const".toList, "async".toList, "unsafe".toList]

def skipQualifiers (t : Text) : Text :=
  match _h : qualifiers.findSome? (afterWord? · t) with
  | none => t
  | some rest => skipQualifiers rest
termination_by t.length
decreasing_by
  obtain ⟨word, -, hw⟩ := List.exists_of_findSome?_eq_some _h
  exact length_lt_of_afterWord? hw

/-- What follows a name in double quotes and a gap, if the text starts with them. -/
def skipQuotedName (t : Text) : Text :=
  match t with
  | '"' :: inner => (afterGap? (inner.dropWhile (· ≠ '"')).tail).getD t
  | _ => t

def skipExtern (t : Text) : Text :=
  ((afterWord? "extern".toList t).map skipQuotedName).getD t

/-- The name of the function that the trimmed line declares. -/
def functionName? (line : Text) : Option Text := do
  let rest ← afterWord? "fn".toList (skipExtern (skipQualifiers (skipVisibility line)))
  let name := rest.takeWhile Text.isWord
  if name.isEmpty then none else some name

/-- The text of a comment line, without one white space after the slashes. More than three
slashes are a ruler. -/
def commentText? (line : Text) : Option Text := do
  let rest ← Text.after? "///".toList line
  match rest with
  | [] => some []
  | c :: text =>
    if c = '/' then none else if Text.isBlank c then some text else some rest

/-- What a trimmed line is to a comment above it. -/
inductive Role where
  | comment (text : Text)
  /-- A blank line or an attribute. -/
  | between
  | function (name : Text)
  | code
deriving DecidableEq, Repr

def role (line : Text) : Role :=
  match commentText? line with
  | some text => .comment text
  | none =>
    if line.isEmpty || "#[".toList.isPrefixOf line then .between
    else match functionName? line with
      | some name => .function name
      | none => .code

/-- The documented declarations among the lines, of which the first has the given number, with
the comment lines `pending` above them. -/
def declarationsFrom (number : Nat) (pending : List Text) : List Text → List Declaration
  | [] => []
  | line :: rest =>
    match role (Text.trim line) with
    | .comment text => declarationsFrom (number + 1) (pending ++ [text]) rest
    | .between => declarationsFrom (number + 1) pending rest
    | .function name =>
      (if pending.isEmpty then [] else [⟨name, number, ['\n'].intercalate pending⟩])
        ++ declarationsFrom (number + 1) [] rest
    | .code => declarationsFrom (number + 1) [] rest

def declarations (source : Text) : List Declaration :=
  declarationsFrom 1 [] (Text.lines source)

end DocComment.SlashComment
