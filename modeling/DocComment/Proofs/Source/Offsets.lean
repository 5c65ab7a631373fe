import DocComment.Proofs.Source.Locality
import DocComment.Proofs.Source.Parameters
import DocComment.Text.Bytes

/-!
The reader by positions. A place in a source is the index of a line and an offset in this line,
counted in bytes, and what is looked at is cut out of its line at such offsets. A cut behind the end
of its line or inside a character is a fault, and so is a loop that goes on after the rounds that it
is given. No source leads to a fault, and the positions lead to the declarations of the source.
-/

namespace DocComment

/-- What a reading by positions fails with. -/
inductive Fault where
  /-- The offset is inside a character of its text, or behind the end. -/
  | offset
  /-- The rounds are over. -/
  | rounds
deriving DecidableEq, Repr

namespace Text

def byteLength : Text → Nat
  | [] => 0
  | c :: t => c.utf8Size + byteLength t

/-- The parts of a text before and behind an offset. -/
def cutAt : Text → Nat → Except Fault (Text × Text)
  | t, 0 => .ok ([], t)
  | [], _ + 1 => .error .offset
  | c :: t, n + 1 =>
    if c.utf8Size ≤ n + 1 then
      (cutAt t (n + 1 - c.utf8Size)).map fun parts => (c :: parts.1, parts.2)
    else .error .offset

def sliceTo (t : Text) (offset : Nat) : Except Fault Text :=
  (cutAt t offset).map Prod.fst

def sliceFrom (t : Text) (offset : Nat) : Except Fault Text :=
  (cutAt t offset).map Prod.snd

/-- The offset of the first occurrence of `p`. -/
def find? (p : Text) : Text → Option Nat
  | [] => if p.isEmpty then some 0 else none
  | c :: t => if p.isPrefixOf (c :: t) then some 0 else (find? p t).map (c.utf8Size + ·)

/-- The offset up to which the text has been read, if `rest` is left of it. -/
def endOfRead (rest t : Text) : Nat :=
  byteLength t - byteLength rest

variable {t u v : Text} {n : Nat}

theorem byteLength_cons (c : Char) (t : Text) :
    byteLength (c :: t) = c.utf8Size + byteLength t := rfl

theorem byteLength_append (t u : Text) : byteLength (t ++ u) = byteLength t + byteLength u := by
  induction t with
  | nil => rw [List.nil_append, byteLength, Nat.zero_add]
  | cons c t ih => rw [List.cons_append, byteLength_cons, ih, byteLength_cons, Nat.add_assoc]

theorem byteLength_concat (t : Text) (c : Char) :
    byteLength (t ++ [c]) = byteLength t + c.utf8Size := by
  rw [byteLength_append]
  rfl

/-- Offsets count the bytes of the text as it is stored. -/
theorem size_toBytes (t : Text) : (toBytes t).size = byteLength t := by
  rw [toBytes, String.toUTF8_eq_toByteArray, String.toByteArray_ofList]
  induction t with
  | nil => rfl
  | cons c t ih =>
      have hc : [c].utf8Encode.size = c.utf8Size := by
        simp [List.utf8Encode]
      rw [List.utf8Encode_cons, ByteArray.size_append, ih, hc, byteLength_cons]

theorem cutAt_append (u v : Text) : cutAt (u ++ v) (byteLength u) = .ok (u, v) := by
  induction u with
  | nil => cases v <;> rfl
  | cons c u ih =>
      obtain ⟨n, hn⟩ : ∃ n, c.utf8Size + byteLength u = n + 1 :=
        Nat.exists_eq_succ_of_ne_zero (Nat.ne_of_gt (Nat.add_pos_left c.utf8Size_pos _))
      have hrest : n + 1 - c.utf8Size = byteLength u := by omega
      rw [byteLength_cons, hn, List.cons_append, cutAt, if_pos (by omega), hrest, ih]
      rfl

/-- A text can be cut where two of its characters meet and at its ends, and nowhere else. -/
theorem cutAt_eq_ok_iff : cutAt t n = .ok (u, v) ↔ t = u ++ v ∧ n = byteLength u := by
  constructor
  · intro h
    fun_induction cutAt t n generalizing u with
    | case1 t =>
        cases h
        exact ⟨rfl, rfl⟩
    | case2 => cases h
    | case3 c t n hle ih =>
        cases hcut : cutAt t (n + 1 - c.utf8Size) with
        | error fault =>
            rw [hcut] at h
            cases h
        | ok parts =>
            rw [hcut] at h
            cases h
            obtain ⟨ht, hn⟩ := ih hcut
            refine ⟨congrArg (c :: ·) ht, ?_⟩
            rw [byteLength_cons]
            omega
    | case4 => cases h
  · rintro ⟨rfl, rfl⟩
    exact cutAt_append u v

theorem sliceTo_append (u v : Text) : sliceTo (u ++ v) (byteLength u) = .ok u := by
  rw [sliceTo, cutAt_append]
  rfl

theorem sliceFrom_append (u v : Text) : sliceFrom (u ++ v) (byteLength u) = .ok v := by
  rw [sliceFrom, cutAt_append]
  rfl

theorem endOfRead_append (u v : Text) : endOfRead v (u ++ v) = byteLength u := by
  rw [endOfRead, byteLength_append, Nat.add_sub_cancel]

theorem find?_eq_before? (p t : Text) : find? p t = (before? p t).map byteLength := by
  induction t with
  | nil =>
      rw [find?, before?]
      split <;> rfl
  | cons c t ih =>
      rw [find?, before?]
      split
      · rfl
      · rw [ih, Option.map_map, Option.map_map]
        rfl

theorem sliceTo_find? {p front : Text} (h : before? p t = some front) :
    sliceTo t (byteLength front) = .ok front := by
  obtain ⟨rest, rfl⟩ := before?_eq_append h
  rw [List.append_assoc, sliceTo_append]

end Text

namespace Signature

open Text

/-- The offset of the comment of a line, of which what stands behind `offset` is left. -/
def commentAt? (offset : Nat) : Option Char → Text → Option Nat
  | _, [] => none
  | none, c :: t =>
    if c = '#' then some offset
    else commentAt? (offset + c.utf8Size) (if isQuote c then some c else none) t
  | some q, c :: t => commentAt? (offset + c.utf8Size) (if c = q then none else some q) t

def cutComment (line : Text) : Option Nat → Except Fault Text
  | none => .ok line
  | some offset => sliceTo line offset

/-- What a line does to the brackets of the parameter list. -/
inductive ClosingAt where
  /-- The list ends before the offset. -/
  | closed (offset : Nat)
  /-- The line ends inside `depth` brackets. -/
  | unclosed (depth : Nat)
deriving DecidableEq, Repr

def closingAt (offset depth : Nat) (place : Place) : Text → ClosingAt
  | [] => .unclosed depth
  | c :: t =>
    let next := offset + c.utf8Size
    if place = .code ∧ isOpener c then closingAt next (depth + 1) .code t
    else if place = .code ∧ isCloser c then
      if depth = 1 then .closed next else closingAt next (depth - 1) .code t
    else closingAt next depth (place.next c) t

def ClosingAt.cut (code : Text) : ClosingAt → Except Fault Closing
  | closed offset => (sliceFrom code offset).map .closed
  | unclosed depth => .ok (.unclosed depth)

def Progress.readAt (code : Text) : Progress → Except Fault Progress
  | inside depth => do
    match ← (closingAt 0 depth .code code).cut code with
    | .closed tail => return ofTail tail
    | .unclosed depth => return inside depth
  | p => return p.read code

/-- The index of the line that the body starts on, for a signature that has been read up to the
line `index` and an offset in it. -/
def bodyAt? (index offset : Nat) (p : Progress) : List Text → Except Fault (Option Nat)
  | [] => return none
  | line :: rest => do
    let behind ← sliceFrom line offset
    let code ← cutComment behind (commentAt? 0 none behind)
    match ← p.readAt code with
    | .complete => return some (index + 1)
    | .broken => return none
    | p => bodyAt? (index + 1) 0 p rest

variable {p : Progress} {line t : Text}

theorem cutComment_commentAt? (front : Text) (quote : Option Char) (t : Text) :
    cutComment (front ++ t) (commentAt? (byteLength front) quote t) =
      .ok (front ++ uncommentedFrom quote t) := by
  induction t generalizing front quote with
  | nil => rw [commentAt?, uncommentedFrom, cutComment]
  | cons c t ih =>
      have hnext (quote : Option Char) :
          cutComment (front ++ c :: t) (commentAt? (byteLength front + c.utf8Size) quote t) =
            .ok (front ++ c :: uncommentedFrom quote t) := by
        have hfront := ih (front ++ [c]) quote
        rwa [byteLength_concat, ← List.append_cons, ← List.append_cons] at hfront
      cases quote with
      | none =>
          rw [commentAt?, uncommentedFrom]
          split
          · rw [cutComment, sliceTo_append, List.append_nil]
          · exact hnext _
      | some q => exact hnext _

theorem cut_closingAt (front : Text) (depth : Nat) (place : Place) (t : Text) :
    (closingAt (byteLength front) depth place t).cut (front ++ t) =
      .ok (closing depth place t) := by
  induction t generalizing front depth place with
  | nil => rfl
  | cons c t ih =>
      have hnext (depth : Nat) (place : Place) :
          (closingAt (byteLength front + c.utf8Size) depth place t).cut (front ++ c :: t) =
            .ok (closing depth place t) := by
        have hfront := ih (front ++ [c]) depth place
        rwa [byteLength_concat, ← List.append_cons] at hfront
      rw [closingAt, closing]
      split
      · exact hnext _ _
      · split
        · split
          · rw [ClosingAt.cut, ← byteLength_concat, List.append_cons, sliceFrom_append]
            rfl
          · exact hnext _ _
        · exact hnext _ _

theorem Progress.readAt_eq (code : Text) (p : Progress) : p.readAt code = .ok (p.read code) := by
  cases p with
  | inside depth =>
      have hcut : (closingAt 0 depth .code code).cut code = .ok (closing depth .code code) :=
        cut_closingAt [] depth .code code
      rw [readAt, hcut, read]
      cases closing depth .code code <;> rfl
  | behind | complete | broken => rfl

theorem bodyAt?_cons (index : Nat) (p : Progress) (front t : Text) (rest : List Text) :
    bodyAt? index (byteLength front) p ((front ++ t) :: rest) =
      match p.read (uncommented t) with
      | .complete => .ok (some (index + 1))
      | .broken => .ok none
      | p => bodyAt? (index + 1) 0 p rest := by
  have hcode : cutComment t (commentAt? 0 none t) = .ok (uncommented t) :=
    cutComment_commentAt? [] none t
  simp only [bodyAt?, sliceFrom_append, bind, Except.bind, hcode, Progress.readAt_eq]
  rfl

/-- The body starts behind the lines of the signature. -/
theorem bodyAt?_eq (index : Nat) (p : Progress) (front t : Text) (rest : List Text) :
    bodyAt? index (byteLength front) p ((front ++ t) :: rest) =
      .ok ((further? (p.read (uncommented t)) rest).map (index + 1 + ·)) := by
  induction rest generalizing index p front t with
  | nil =>
      rw [bodyAt?_cons]
      cases p.read (uncommented t) <;> rfl
  | cons line rest ih =>
      have hnext (p : Progress) (hp : p ≠ .complete) : bodyAt? (index + 1) 0 p (line :: rest) =
          .ok ((further? p (line :: rest)).map (index + 1 + ·)) := by
        have hline : bodyAt? (index + 1) 0 p (line :: rest) = _ := ih (index + 1) p [] line
        rw [hline, further?_cons hp, Option.map_map]
        congr 2
        funext k
        simp only [Function.comp_apply]
        omega
      rw [bodyAt?_cons]
      cases p.read (uncommented t) with
      | complete => rfl
      | broken => rw [further?_broken]; rfl
      | inside depth => exact hnext _ nofun
      | behind => exact hnext _ nofun

end Signature

namespace TripleQuoted

open Text

/-- The offset of the bracket that ends what is read of a `def` line. -/
def DefLine.bracketAt (d : DefLine) (line : Text) : Nat :=
  endOfRead d.params.tail line - 1

def behindBlanks (lines : List Text) (index : Nat) : Nat :=
  index + ((lines.drop index).takeWhile isBlankLine).length

/-- The lines up to the delimiter, of which the first has the given index, and the index of the last
one. -/
def upToAt (delimiter : Text) (index : Nat) : List Text → Except Fault (List Text × Nat)
  | [] => return ([], index - 1)
  | line :: rest => do
    match find? delimiter line with
    | some offset => return ([← sliceTo line offset], index)
    | none =>
      let (body, last) ← upToAt delimiter (index + 1) rest
      return (line :: body, last)

/-- The text of the triple-quoted string on the line of this index, and the index of its last
line. -/
def docstringAt? (lines : List Text) (index : Nat) : Except Fault (Option (Text × Nat)) :=
  match lines[index]? with
  | none => return none
  | some line =>
    match opening? line with
    | none => return none
    | some (delimiter, first) => do
      let behind ← sliceFrom line (endOfRead first line)
      let (body, last) ← upToAt delimiter index (behind :: lines.drop (index + 1))
      return some (['\n'].intercalate body, last)

/-- The docstring behind the `def` on the line of an index, and the index that reading goes on
from. -/
def commentAt (lines : List Text) (index : Nat) (line : Text) (d : DefLine) :
    Except Fault (Option Text × Nat) := do
  match ← Signature.bodyAt? index (d.bracketAt line) (.inside 0) (lines.drop index) with
  | none => return (none, index + 1)
  | some start =>
    match ← docstringAt? lines (behindBlanks lines start) with
    | none => return (none, start)
    | some (text, last) => return (some text, last + 1)

/-- The documented declarations from the line of an index on. -/
def declarationsAt (lines : List Text) :
    Nat → Nat → List Scope → Except Fault (List Declaration)
  | 0, _, _ => .error .rounds
  | rounds + 1, index, scopes =>
    match lines[index]? with
    | none => return []
    | some line =>
      match classLine? line with
      | some scope =>
        declarationsAt lines rounds (index + 1) (scope :: enclosing scope.indent scopes)
      | none =>
        match defLine? line with
        | none => declarationsAt lines rounds (index + 1) scopes
        | some d => do
          let scopes := enclosing d.indent scopes
          let (comment, next) ← commentAt lines index line d
          let below ← declarationsAt lines rounds next scopes
          return (comment.map (⟨qualified d.name scopes, index + 1, ·⟩)).toList ++ below

/-- The declarations of a source, found by positions. Each line may take a round, and one more finds
that no line is left. -/
def declarationsByPosition (source : Text) : Except Fault (List Declaration) :=
  declarationsAt (Text.lines source) ((Text.lines source).length + 1) 0 []

variable {line : Text} {lines rest : List Text} {index : Nat} {d : DefLine}

theorem bodyAt?_bracketAt (hdef : defLine? line = some d) (index : Nat) (rest : List Text) :
    Signature.bodyAt? index (d.bracketAt line) (.inside 0) (line :: rest) =
      .ok ((Signature.extent? d.params rest).map (index + 1 + ·)) := by
  obtain ⟨front, t, rfl, hparams, -⟩ := exists_params_of_defLine? hdef
  have hbracket : d.bracketAt (front ++ '(' :: t) = byteLength front := by
    rw [DefLine.bracketAt, hparams, List.tail_cons, List.append_cons, endOfRead_append,
      byteLength_concat]
    exact Nat.add_sub_cancel ..
  rw [hbracket, Signature.bodyAt?_eq, hparams, Signature.extent?_eq_further?]

theorem upToAt_eq (delimiter : Text) (index : Nat) (lines : List Text) :
    upToAt delimiter index lines =
      .ok ((upTo delimiter lines).1, index + (upTo delimiter lines).2 - 1) := by
  induction lines generalizing index with
  | nil => rfl
  | cons line rest ih =>
      rw [upToAt, find?_eq_before?, upTo]
      cases hfront : before? delimiter line with
      | some front =>
          simp only [Option.map_some, sliceTo_find? hfront, bind, Except.bind]
          rfl
      | none =>
          simp only [Option.map_none, ih, bind, Except.bind]
          rw [Nat.add_right_comm, Nat.add_assoc]
          rfl

theorem exists_front_of_opening? {delimiter first : Text}
    (h : opening? line = some (delimiter, first)) :
    delimiter ∈ delimiters ∧ ∃ front, line = front ++ delimiter ++ first := by
  obtain ⟨quotes, hmem, hquotes⟩ := List.exists_of_findSome?_eq_some h
  obtain ⟨rest, hrest, hpair⟩ := Option.map_eq_some_iff.mp hquotes
  cases hpair
  refine ⟨hmem, ?_⟩
  have hsuffix : delimiter ++ first <:+ line := by
    rw [← Text.after?_eq_some_iff.mp hrest]
    split
    · exact (List.tail_suffix _).trans (List.dropWhile_suffix _)
    · exact List.dropWhile_suffix _
  obtain ⟨front, hfront⟩ := hsuffix
  exact ⟨front, by rw [← hfront, List.append_assoc]⟩

theorem drop_eq_cons (h : lines[index]? = some line) :
    lines.drop index = line :: lines.drop (index + 1) := by
  obtain ⟨hindex, rfl⟩ := List.getElem?_eq_some_iff.mp h
  exact List.drop_eq_getElem_cons hindex

theorem docstringAt?_eq (lines : List Text) (index : Nat) :
    docstringAt? lines index =
      .ok ((docstring? (lines.drop index)).map fun found =>
        (found.1, index + found.2 - 1)) := by
  cases hline : lines[index]? with
  | none =>
      rw [docstringAt?, hline, List.drop_eq_nil_of_le (List.getElem?_eq_none_iff.mp hline)]
      rfl
  | some line =>
      rw [docstringAt?, hline, drop_eq_cons hline]
      cases hopening : opening? line with
      | none =>
          rw [docstring?_of_none hopening]
          simp only [hopening]
          rfl
      | some opened =>
          obtain ⟨delimiter, first⟩ := opened
          obtain ⟨-, front, rfl⟩ := exists_front_of_opening? hopening
          rw [docstring?_of_some hopening]
          simp only [hopening, endOfRead_append, sliceFrom_append, upToAt_eq, bind, Except.bind]
          rfl

theorem one_le_of_docstring? {found : Text × Nat} (h : docstring? lines = some found) :
    1 ≤ found.2 := by
  cases lines with
  | nil => cases h
  | cons line rest =>
      cases hopening : opening? line with
      | none =>
          rw [docstring?_of_none hopening] at h
          cases h
      | some opened =>
          rw [docstring?_of_some hopening] at h
          cases h
          exact one_le_upTo ..

theorem commentAt_eq (hline : lines[index]? = some line) (hdef : defLine? line = some d) :
    commentAt lines index line d =
      .ok ((commentAfter d (lines.drop (index + 1))).1,
        index + 1 + (commentAfter d (lines.drop (index + 1))).2) := by
  rw [commentAt, drop_eq_cons hline, bodyAt?_bracketAt hdef, commentAfter]
  cases hextent : Signature.extent? d.params (lines.drop (index + 1)) with
  | none => rfl
  | some signature =>
      simp only [Option.map_some, bind, Except.bind, docstringAt?_eq, behindBlanks, List.drop_drop]
      cases hstring : docstring? _ with
      | none => rfl
      | some found =>
          have hused := one_le_of_docstring? hstring
          refine congrArg (fun next => Except.ok (some found.1, next)) ?_
          dsimp only
          omega

theorem declarationsAt_eq {rounds : Nat} (h : lines.length - index < rounds)
    (scopes : List Scope) :
    declarationsAt lines rounds index scopes =
      .ok (declarationsFrom (index + 1) scopes (lines.drop index)) := by
  induction rounds generalizing index scopes with
  | zero => exact absurd h (Nat.not_lt_zero _)
  | succ rounds ih =>
      cases hline : lines[index]? with
      | none =>
          rw [declarationsAt, hline, List.drop_eq_nil_of_le (List.getElem?_eq_none_iff.mp hline),
            declarationsFrom_nil]
          rfl
      | some line =>
          -- each round goes on behind the line, so fewer lines are left for the other rounds
          have hnext (used : Nat) (scopes : List Scope) :
              declarationsAt lines rounds (index + 1 + used) scopes =
                .ok (declarationsFrom (index + 1 + 1 + used) scopes
                  ((lines.drop (index + 1)).drop used)) := by
            obtain ⟨hindex, -⟩ := List.getElem?_eq_some_iff.mp hline
            rw [ih (by omega), List.drop_drop, Nat.add_right_comm]
          rw [declarationsAt, hline, drop_eq_cons hline, declarationsFrom]
          cases hclass : classLine? line with
          | some scope => simpa [hclass] using hnext 0 (scope :: enclosing scope.indent scopes)
          | none =>
              cases hdef : defLine? line with
              | none => simpa [hclass, hdef] using hnext 0 scopes
              | some d =>
                  simp only [hclass, hdef, commentAt_eq hline hdef, bind, Except.bind, hnext]
                  rfl

theorem declarationsByPosition_eq (source : Text) :
    declarationsByPosition source = .ok (declarations source) :=
  declarationsAt_eq (Nat.lt_succ_self (Text.lines source).length) []

end TripleQuoted

end DocComment
