import DocComment.Proofs.Source.Signature
import DocComment.Source.TripleQuoted
import Mathlib.Data.List.Infix

/-!
The end of a parameter list. A line consists of characters of code and of string literals, with or
without a comment behind them, and only brackets in code count, on all lines together. The signature
is complete on the line where the bracket of the list is closed, if a colon ends this line; if
anything else follows a colon there, or the bracket is never closed, no body follows.
-/

namespace DocComment.Signature

/-- A character of code, or a string literal that the next quote of its kind ends. -/
inductive Piece where
  | code (c : Char) (isCode : isQuote c = false ∧ c ≠ '#')
  | literal (quote : Char) (body : Text) (isQuote_quote : isQuote quote = true)
      (isPlain : ∀ c ∈ body, c ≠ quote ∧ c ≠ '\\')

namespace Piece

def text : Piece → Text
  | code c _ => [c]
  | literal quote body _ _ => quote :: (body ++ [quote])

/-- How much deeper in brackets the place behind the piece is than the place before it. -/
def rise : Piece → Int
  | code c _ => if isOpener c then 1 else if isCloser c then -1 else 0
  | literal .. => 0

end Piece

/-- A line on which each string literal ends. -/
structure CodeLine where
  pieces : List Piece
  comment : Text
  head?_comment : ∀ c ∈ comment.head?, c = '#'

def codeText (ps : List Piece) : Text :=
  ps.flatMap Piece.text

def CodeLine.text (l : CodeLine) : Text :=
  codeText l.pieces ++ l.comment

/-- The line behind its first round bracket. -/
def CodeLine.behindBracket (l : CodeLine) : CodeLine :=
  { l with pieces := (l.pieces.dropWhile fun p => p.text ≠ ['(']).tail }

def piecesOf (ls : List CodeLine) : List Piece :=
  ls.flatMap CodeLine.pieces

def rises : List Piece → Int
  | [] => 0
  | p :: ps => p.rise + rises ps

/-- Inside `depth` brackets the pieces do not close the outermost one. -/
def StaysOpen (depth : Nat) (ps : List Piece) : Prop :=
  ∀ qs, qs <+: ps → depth + rises qs ≠ 0

/-- Inside `depth` brackets the pieces close the outermost one with `last`. -/
structure ClosesWith (depth : Nat) (ps : List Piece) (last : Piece) : Prop where
  staysOpen : StaysOpen depth ps
  eq_zero : depth + rises (ps ++ [last]) = 0

variable {depth : Nat} {ps front tail : List Piece} {p last : Piece} {l : CodeLine} {t u : Text}

/-! Reading single pieces. -/

theorem uncommentedFrom_literal {q : Char} {body : Text}
    (hbody : ∀ c ∈ body, c ≠ q ∧ c ≠ '\\') (t : Text) :
    uncommentedFrom (some q) (body ++ q :: t) = body ++ q :: uncommentedFrom none t := by
  induction body with
  | nil => rw [List.nil_append, uncommentedFrom, if_pos rfl, List.nil_append]
  | cons c body ih =>
      obtain ⟨hc, hbody⟩ := List.forall_mem_cons.mp hbody
      rw [List.cons_append, uncommentedFrom, if_neg hc.1, ih hbody, List.cons_append]

theorem uncommentedFrom_piece (p : Piece) (t : Text) :
    uncommentedFrom none (p.text ++ t) = p.text ++ uncommentedFrom none t := by
  cases p with
  | code c hc =>
      rw [Piece.text, List.singleton_append, uncommentedFrom, if_neg hc.2, hc.1]
      rfl
  | literal q body hq hbody =>
      have hhash : q ≠ '#' := by
        rintro rfl
        cases hq
      simp only [Piece.text, List.cons_append, List.append_assoc, List.nil_append]
      rw [uncommentedFrom, if_neg hhash, if_pos hq, uncommentedFrom_literal hbody]

theorem uncommentedFrom_codeText (ps : List Piece) (t : Text) :
    uncommentedFrom none (codeText ps ++ t) = codeText ps ++ uncommentedFrom none t := by
  induction ps with
  | nil => rfl
  | cons p ps ih =>
      rw [codeText, List.flatMap_cons, List.append_assoc, uncommentedFrom_piece, List.append_assoc]
      exact congrArg (p.text ++ ·) ih

/-- The code of a line is all of it but the comment. -/
theorem uncommented_text (l : CodeLine) : uncommented l.text = codeText l.pieces := by
  have hcomment : uncommentedFrom none l.comment = [] := by
    cases hstart : l.comment with
    | nil => rfl
    | cons c rest =>
        have hc := l.head?_comment c (by rw [hstart]; rfl)
        rw [uncommentedFrom, if_pos hc]
  rw [uncommented, CodeLine.text, uncommentedFrom_codeText, hcomment, List.append_nil]

theorem closing_literal {q : Char} {body : Text} (hbody : ∀ c ∈ body, c ≠ q ∧ c ≠ '\\')
    (depth : Nat) (t : Text) (hq : isQuote q = true) :
    closing depth (.literal q) (body ++ q :: t) = closing depth .code t := by
  induction body with
  | nil =>
      have hescape : q ≠ '\\' := by
        rintro rfl
        cases hq
      simp [closing, Place.next, hescape]
  | cons c body ih =>
      obtain ⟨hc, hbody⟩ := List.forall_mem_cons.mp hbody
      simp [closing, Place.next, hc, ih hbody]

theorem isOpener_of_isQuote {c : Char} (h : isQuote c = true) :
    isOpener c = false ∧ isCloser c = false := by
  simp only [isQuote, Bool.or_eq_true, decide_eq_true_eq] at h
  rcases h with rfl | rfl <;> decide

/-- A piece leads as far in or out of the brackets as it rises, or closes the outermost one. -/
theorem closing_piece (hdepth : 0 < depth) (p : Piece) (t : Text) :
    closing depth .code (p.text ++ t) =
      if depth + p.rise = 0 then .closed t else closing (depth + p.rise).toNat .code t := by
  cases p with
  | code c hc =>
      rw [Piece.text, List.singleton_append, closing]
      cases hopener : isOpener c with
      | true =>
          have hrise : (Piece.code c hc).rise = 1 := if_pos hopener
          have hnext : ((depth : Int) + 1).toNat = depth + 1 := by omega
          rw [hrise, hnext, if_pos ⟨rfl, rfl⟩, if_neg (by omega)]
      | false =>
          have hopener' : ¬ isOpener c = true := by simp [hopener]
          rw [if_neg (by simp)]
          cases hcloser : isCloser c with
          | true =>
              have hrise : (Piece.code c hc).rise = -1 := (if_neg hopener').trans (if_pos hcloser)
              have hnext : ((depth : Int) + -1).toNat = depth - 1 := by omega
              have hone : (depth : Int) + -1 = 0 ↔ depth = 1 := by omega
              rw [hrise, hnext, if_pos ⟨rfl, rfl⟩]
              simp only [hone]
          | false =>
              have hrise : (Piece.code c hc).rise = 0 :=
                (if_neg hopener').trans (if_neg (by simp [hcloser]))
              rw [hrise, Int.add_zero, Int.toNat_natCast, if_neg (by simp), if_neg (by omega),
                Place.next, hc.1]
              rfl
  | literal q body hq hbody =>
      obtain ⟨hopener, hcloser⟩ := isOpener_of_isQuote hq
      have hrise : (Piece.literal q body hq hbody).rise = 0 := rfl
      rw [hrise, Int.add_zero, Int.toNat_natCast, if_neg (by omega), Piece.text, List.cons_append,
        List.append_assoc, List.singleton_append, closing, hopener, hcloser, Place.next, if_pos hq,
        closing_literal hbody depth t hq]
      simp

/-! Reading the pieces of a line, and of several lines. -/

theorem rises_nil : rises [] = 0 := rfl

theorem rises_cons (p : Piece) (ps : List Piece) : rises (p :: ps) = p.rise + rises ps := rfl

theorem rises_append (ps qs : List Piece) : rises (ps ++ qs) = rises ps + rises qs := by
  induction ps with
  | nil => rw [List.nil_append, rises_nil, Int.zero_add]
  | cons p ps ih => rw [List.cons_append, rises_cons, ih, rises_cons, Int.add_assoc]

theorem neg_one_le_rise (p : Piece) : -1 ≤ p.rise := by
  cases p with
  | code c hc =>
      rw [Piece.rise]
      split
      · decide
      · split <;> decide
  | literal =>
      change (-1 : Int) ≤ 0
      decide

theorem StaysOpen.pos (h : StaysOpen depth ps) : 0 < depth := by
  have hzero := h [] List.nil_prefix
  rw [rises_nil] at hzero
  omega

theorem staysOpen_cons_iff (hdepth : 0 < depth) :
    StaysOpen depth (p :: ps) ↔
      depth + p.rise ≠ 0 ∧ StaysOpen (depth + p.rise).toNat ps := by
  have hle := neg_one_le_rise p
  have hnext : (((depth : Int) + p.rise).toNat : Int) = depth + p.rise := by omega
  constructor
  · intro h
    have hhere := h [p] (List.cons_prefix_cons.mpr ⟨rfl, List.nil_prefix⟩)
    rw [rises_cons, rises_nil, Int.add_zero] at hhere
    refine ⟨hhere, ?_⟩
    intro qs hqs
    have hthere := h (p :: qs) (List.cons_prefix_cons.mpr ⟨rfl, hqs⟩)
    rwa [rises_cons, ← Int.add_assoc, ← hnext] at hthere
  · rintro ⟨hhere, hthere⟩ qs hqs
    cases qs with
    | nil =>
        rw [rises_nil]
        omega
    | cons q qs =>
        obtain ⟨rfl, hqs'⟩ := List.cons_prefix_cons.mp hqs
        rw [rises_cons, ← Int.add_assoc, ← hnext]
        exact hthere qs hqs'

/-- What stays open is read through, into the brackets that it leaves open. -/
theorem closing_of_staysOpen (h : StaysOpen depth ps) (t : Text) :
    closing depth .code (codeText ps ++ t) = closing (depth + rises ps).toNat .code t := by
  induction ps generalizing depth with
  | nil => rw [rises_nil, Int.add_zero, Int.toNat_natCast]; rfl
  | cons p ps ih =>
      obtain ⟨hhere, hthere⟩ := (staysOpen_cons_iff h.pos).mp h
      have hpos := hthere.pos
      have hnext : (((depth : Int) + p.rise).toNat : Int) = depth + p.rise := by omega
      rw [codeText, List.flatMap_cons, List.append_assoc, closing_piece h.pos, if_neg hhere,
        ← codeText, ih hthere, rises_cons, hnext, Int.add_assoc]

theorem staysOpen_append_iff (hdepth : 0 < depth) {qs : List Piece} :
    StaysOpen depth (ps ++ qs) ↔
      StaysOpen depth ps ∧ StaysOpen (depth + rises ps).toNat qs := by
  induction ps generalizing depth with
  | nil =>
      have hnil : StaysOpen depth [] := by
        intro qs hqs
        rw [List.prefix_nil.mp hqs, rises_nil]
        omega
      rw [rises_nil, Int.add_zero, Int.toNat_natCast]
      exact (and_iff_right hnil).symm
  | cons p ps ih =>
      rw [List.cons_append, staysOpen_cons_iff hdepth, staysOpen_cons_iff hdepth, and_assoc]
      refine and_congr_right fun hhere => ?_
      have hle := neg_one_le_rise p
      have hnext : (((depth : Int) + p.rise).toNat : Int) = depth + p.rise := by omega
      rw [ih (by omega), rises_cons, hnext, Int.add_assoc]

theorem StaysOpen.pos_rises (h : StaysOpen depth ps) : 0 < (depth : Int) + rises ps := by
  have hwhole : StaysOpen depth (ps ++ []) := by rwa [List.append_nil]
  have hbehind := ((staysOpen_append_iff h.pos).mp hwhole).2
  have hpos := hbehind.pos
  omega

theorem read_of_staysOpen (h : StaysOpen depth ps) :
    (Progress.inside depth).read (codeText ps) = .inside (depth + rises ps).toNat := by
  have hclosing := closing_of_staysOpen h []
  rw [List.append_nil, closing] at hclosing
  rw [Progress.read, hclosing]

theorem read_of_closesWith (h : ClosesWith depth front last) (tail : List Piece) :
    (Progress.inside depth).read (codeText (front ++ last :: tail)) =
      .ofTail (codeText tail) := by
  have hpos := h.staysOpen.pos_rises
  have hzero : (((depth : Int) + rises front).toNat : Int) + last.rise = 0 := by
    have heq := h.eq_zero
    rw [rises_append, rises_cons, rises_nil] at heq
    omega
  have htext : codeText (front ++ last :: tail) =
      codeText front ++ (last.text ++ codeText tail) := by
    rw [codeText, List.flatMap_append, List.flatMap_cons, codeText, codeText]
  rw [Progress.read, htext, closing_of_staysOpen h.staysOpen, closing_piece (by omega),
    if_pos hzero]

theorem further?_inside_cons (depth : Nat) (line : Text) (rest : List Text) :
    further? (.inside depth) (line :: rest) =
      (further? ((Progress.inside depth).read (uncommented line)) rest).map (· + 1) :=
  further?_cons (p := .inside depth) nofun line rest

theorem further?_of_staysOpen {ls : List CodeLine} (h : StaysOpen depth (piecesOf ls))
    (rest : List Text) :
    further? (.inside depth) (ls.map CodeLine.text ++ rest) =
      (further? (.inside (depth + rises (piecesOf ls)).toNat) rest).map (· + ls.length) := by
  induction ls generalizing depth with
  | nil => simp [piecesOf, rises_nil]
  | cons l ls ih =>
      rw [piecesOf, List.flatMap_cons, ← piecesOf] at h ⊢
      obtain ⟨hhere, hthere⟩ := (staysOpen_append_iff h.pos).mp h
      have hnext : (((depth : Int) + rises l.pieces).toNat : Int) = depth + rises l.pieces := by
        have hpos := hthere.pos
        omega
      rw [List.map_cons, List.cons_append, further?_inside_cons, uncommented_text,
        read_of_staysOpen hhere, ih hthere, rises_append, hnext, Int.add_assoc, Option.map_map]
      rfl

theorem further?_of_closesWith {above : List CodeLine} {line : CodeLine}
    (h : ClosesWith depth (piecesOf above ++ front) last)
    (hline : line.pieces = front ++ last :: tail) (rest : List Text) :
    further? (.inside depth) (above.map CodeLine.text ++ line.text :: rest) =
      (further? (.ofTail (codeText tail)) rest).map (· + (above.length + 1)) := by
  obtain ⟨habove, hfront⟩ := (staysOpen_append_iff h.staysOpen.pos).mp h.staysOpen
  have hlast : ClosesWith (depth + rises (piecesOf above)).toNat front last := by
    refine ⟨hfront, ?_⟩
    have hpos := hfront.pos
    have heq := h.eq_zero
    rw [List.append_assoc, rises_append] at heq
    omega
  rw [further?_of_staysOpen habove, further?_inside_cons, uncommented_text, hline,
    read_of_closesWith hlast, Option.map_map]
  congr 1
  funext k
  simp only [Function.comp_apply]
  omega

/-- Behind the bracket that opens the list, reading goes on inside of it. -/
theorem map_extent?_cons (t : Text) (rest : List Text) :
    (extent? ('(' :: t) rest).map (· + 1) = further? (.inside 1) (t :: rest) := by
  rw [extent?_eq_further?, further?_inside_cons]
  rfl

/-! The line that opens the list. -/

theorem text_behindBracket_of_pieces {comment : Text} (hcomment : ∀ c ∈ comment.head?, c = '#')
    (ht : ∀ c ∈ t, isQuote c = false ∧ c ≠ '#' ∧ c ≠ '(')
    (h : codeText ps ++ comment = t ++ '(' :: u) :
    codeText (ps.dropWhile fun p => p.text ≠ ['(']).tail ++ comment = u := by
  induction ps generalizing t with
  | nil =>
      have hhead : ∀ c ∈ (t ++ '(' :: u).head?, c = '#' := h ▸ hcomment
      cases t with
      | nil => exact absurd (hhead '(' rfl) (by decide)
      | cons c t => exact absurd (hhead c rfl) (ht c (List.mem_cons_self ..)).2.1
  | cons p ps ih =>
      rw [codeText, List.flatMap_cons, List.append_assoc, ← codeText] at h
      cases p with
      | code c hc =>
          cases t with
          | nil =>
              obtain ⟨rfl, hrest⟩ := List.cons_eq_cons.mp h
              exact hrest
          | cons b t =>
              obtain ⟨rfl, hrest⟩ := List.cons_eq_cons.mp h
              obtain ⟨hb, ht⟩ := List.forall_mem_cons.mp ht
              rw [List.dropWhile_cons_of_pos (by simpa [Piece.text] using hb.2.2)]
              exact ih ht hrest
      | literal q body hq hbody =>
          have hhead : (t ++ '(' :: u).head? = some q := h ▸ rfl
          cases t with
          | nil =>
              cases hhead
              cases hq
          | cons b t =>
              cases hhead
              rw [(ht q (List.mem_cons_self ..)).1] at hq
              cases hq

end DocComment.Signature

namespace DocComment.TripleQuoted

open Signature

theorem exists_front_of_afterKeyword? {keyword t rest : Text}
    (hkeyword : ∀ c ∈ keyword, Text.isWord c = true) (h : afterKeyword? keyword t = some rest) :
    ∃ front, t = front ++ rest ∧ ∀ c ∈ front, Text.isIndent c = true ∨ Text.isWord c = true := by
  rw [afterKeyword?, Option.bind_eq_bind, Option.bind_eq_some_iff] at h
  obtain ⟨behind, hbehind, h⟩ := h
  split at h
  · cases h
    refine ⟨keyword ++ behind.takeWhile Text.isIndent, ?_, ?_⟩
    · rw [Text.after?_eq_some_iff.mp hbehind, List.append_assoc, List.takeWhile_append_dropWhile]
    · intro c hc
      rcases List.mem_append.mp hc with hc | hc
      · exact .inr (hkeyword c hc)
      · exact .inl (List.mem_takeWhile_imp hc)
  · cases h

/-- A `def` line up to the bracket of its list consists of words and gaps. -/
theorem exists_params_of_defLine? {line : Text} {d : DefLine} (h : defLine? line = some d) :
    ∃ front t, line = front ++ '(' :: t ∧ d.params = '(' :: t ∧
      ∀ c ∈ front, Text.isIndent c = true ∨ Text.isWord c = true := by
  simp only [defLine?, Option.bind_eq_bind, Option.bind_eq_some_iff] at h
  obtain ⟨rest, hrest, h⟩ := h
  split at h
  · cases h
  · next hshape =>
      cases h
      have hasync : ∃ front, line.dropWhile Text.isIndent =
          front ++ (afterKeyword? "async".toList (line.dropWhile Text.isIndent)).getD
            (line.dropWhile Text.isIndent) ∧
          ∀ c ∈ front, Text.isIndent c = true ∨ Text.isWord c = true := by
        cases hkeyword : afterKeyword? "async".toList (line.dropWhile Text.isIndent) with
        | none => exact ⟨[], rfl, nofun⟩
        | some behind =>
            exact exists_front_of_afterKeyword? (List.all_eq_true.mp (by decide +kernel)) hkeyword
      obtain ⟨async, hstart, hasync⟩ := hasync
      obtain ⟨keyword, hbehind, hkeyword⟩ :=
        exists_front_of_afterKeyword? (List.all_eq_true.mp (by decide +kernel)) hrest
      obtain ⟨-, hhead⟩ := not_or.mp hshape
      obtain ⟨t, ht⟩ := List.head?_eq_some_iff.mp (not_not.mp hhead)
      refine ⟨line.takeWhile Text.isIndent ++ (async ++ (keyword ++ (rest.takeWhile Text.isWord ++
        (rest.dropWhile Text.isWord).takeWhile Text.isIndent))), t, ?_, ht, ?_⟩
      · simp only [List.append_assoc, ← ht, List.takeWhile_append_dropWhile]
        rw [← hbehind, ← hstart, List.takeWhile_append_dropWhile]
      · intro c hc
        simp only [List.mem_append] at hc
        rcases hc with hc | hc | hc | hc | hc
        · exact .inl (List.mem_takeWhile_imp hc)
        · exact hasync c hc
        · exact hkeyword c hc
        · exact .inr (List.mem_takeWhile_imp hc)
        · exact .inl (List.mem_takeWhile_imp hc)

theorem isQuote_of_isIndent_or_isWord {c : Char}
    (h : Text.isIndent c = true ∨ Text.isWord c = true) :
    isQuote c = false ∧ c ≠ '#' ∧ c ≠ '(' := by
  have hne (b : Char) (hindent : Text.isIndent b = false) (hword : Text.isWord b = false) :
      c ≠ b := by
    rintro rfl
    simp [hindent, hword] at h
  refine ⟨?_, hne '#' (by decide) (by decide +kernel), hne '(' (by decide) (by decide +kernel)⟩
  simp [isQuote, hne '"' (by decide) (by decide +kernel), hne '\'' (by decide) (by decide +kernel)]

/-- The parameter list of a line of code starts where its first round bracket stands. -/
theorem params_eq_of_defLine? {l : CodeLine} {d : DefLine} (h : defLine? l.text = some d) :
    d.params = '(' :: l.behindBracket.text := by
  obtain ⟨front, t, hline, hparams, hfront⟩ := exists_params_of_defLine? h
  have hbehind : l.behindBracket.text = t :=
    text_behindBracket_of_pieces l.head?_comment
      (fun c hc => isQuote_of_isIndent_or_isWord (hfront c hc)) hline
  rw [hparams, hbehind]

end DocComment.TripleQuoted

namespace DocComment.Signature

/-- Where a signature over lines of code ends. It is complete with the line on which the bracket of
its list is closed for the first time, if a colon ends the line; no body follows if there is
something behind a colon on this line, or if the bracket is never closed. -/
theorem extent?_of_codeLines {l : CodeLine} {d : TripleQuoted.DefLine}
    (hdef : TripleQuoted.defLine? l.text = some d) (more : List CodeLine) :
    (∀ above line after front last tail, l.behindBracket :: more = above ++ line :: after →
      line.pieces = front ++ last :: tail → ClosesWith 1 (piecesOf above ++ front) last →
      ∀ below,
        ((Text.trim (codeText tail)).getLast? = some ':' →
          extent? d.params (more.map CodeLine.text ++ below) = some above.length) ∧
        ((Text.trim (codeText tail)).getLast? ≠ some ':' →
          (∃ t u, codeText tail = t ++ ':' :: u ∧ ':' ∉ t ∧ Text.isBlankLine u = false) →
          extent? d.params (more.map CodeLine.text ++ below) = none)) ∧
    (StaysOpen 1 (piecesOf (l.behindBracket :: more)) →
      extent? d.params (more.map CodeLine.text) = none) := by
  rw [TripleQuoted.params_eq_of_defLine? hdef]
  constructor
  · intro above line after front last tail hlines hline hcloses below
    have hread : (extent? ('(' :: l.behindBracket.text) (more.map CodeLine.text ++ below)).map
        (· + 1) = (further? (.ofTail (codeText tail)) (after.map CodeLine.text ++ below)).map
          (· + (above.length + 1)) := by
      rw [map_extent?_cons, ← List.cons_append, ← List.map_cons, hlines, List.map_append,
        List.map_cons, List.append_assoc, List.cons_append]
      exact further?_of_closesWith hcloses hline _
    constructor
    · intro hcolon
      rw [Progress.ofTail, if_pos hcolon, further?_complete] at hread
      obtain ⟨k, hk, hlength⟩ := Option.map_eq_some_iff.mp hread
      have hcount : k + 1 = 0 + (above.length + 1) := hlength
      rw [hk, Option.some.injEq]
      omega
    · rintro hcolon ⟨t, u, htail, -, hbehind⟩
      have hmem : ':' ∈ Text.trim (codeText tail) := by
        rw [← List.count_pos_iff, Text.count_trim (by decide), List.count_pos_iff, htail]
        exact List.mem_append_right t (List.mem_cons_self ..)
      rw [Progress.ofTail, if_neg hcolon, if_pos hmem, further?_broken] at hread
      exact Option.map_eq_none_iff.mp hread
  · intro hopen
    have hread := map_extent?_cons l.behindBracket.text (more.map CodeLine.text)
    have hfurther := further?_of_staysOpen hopen []
    rw [List.append_nil, List.map_cons] at hfurther
    rw [hfurther] at hread
    exact Option.map_eq_none_iff.mp hread

/-- The pieces of a text without quotes and comments. -/
def plainPieces (t : Text) (ht : ∀ c ∈ t, isQuote c = false ∧ c ≠ '#') : List Piece :=
  t.pmap Piece.code ht

theorem extent?_of_codeLines_three :
    ∃ (l : CodeLine) (d : TripleQuoted.DefLine) (more : List CodeLine),
      l.text :: more.map CodeLine.text =
        ["def f(a=\"(\",  # one )".toList, "      b=[1, '#'],".toList,
          "      ) -> \"x:y\":".toList] ∧
      TripleQuoted.defLine? l.text = some d ∧
      extent? d.params (more.map CodeLine.text) = some 2 := by
  let l : CodeLine :=
    { pieces := plainPieces "def f(a=".toList (by simp [isQuote]) ++
        .literal '"' "(".toList rfl (by simp) :: plainPieces ",  ".toList (by simp [isQuote])
      comment := "# one )".toList
      head?_comment := by simp }
  let second : CodeLine :=
    { pieces := plainPieces "      b=[1, ".toList (by simp [isQuote]) ++
        .literal '\'' "#".toList rfl (by simp) :: plainPieces "],".toList (by simp [isQuote])
      comment := []
      head?_comment := by simp }
  let front := plainPieces "      ".toList (by simp [isQuote])
  let tail := plainPieces " -> ".toList (by simp [isQuote]) ++
    .literal '"' "x:y".toList rfl (by simp) :: plainPieces ":".toList (by simp [isQuote])
  let third : CodeLine :=
    { pieces := front ++ .code ')' (by decide) :: tail
      comment := []
      head?_comment := by simp }
  let d : TripleQuoted.DefLine := ⟨0, "f".toList, "(a=\"(\",  # one )".toList⟩
  have hdef : TripleQuoted.defLine? l.text = some d := by decide +kernel
  have hcloses : ClosesWith 1 (piecesOf [l.behindBracket, second] ++ front)
      (.code ')' (by decide)) := by
    refine ⟨?_, by decide +kernel⟩
    intro qs hqs
    have hinits : ∀ n ∈ ((piecesOf [l.behindBracket, second] ++ front).inits.map rises),
        (1 : Int) + n ≠ 0 := by decide +kernel
    exact hinits _ (List.mem_map_of_mem ((List.mem_inits ..).mpr hqs))
  have hread := ((extent?_of_codeLines hdef [second, third]).1 [l.behindBracket, second] third []
    front _ tail rfl rfl hcloses []).1 (by decide +kernel)
  rw [List.append_nil] at hread
  exact ⟨l, d, [second, third], by decide +kernel, hdef, hread⟩

end DocComment.Signature
