import DocComment.Proofs.Json.Grammar
import Mathlib.Data.List.TakeWhile

/-!
A reader of JSON. It takes one token after the other off the text, and a limit bounds the number of
steps and the depth of nesting; the length of the text is limit enough. Whatever the grammar
derives is read as the value that it spells, so that no text spells two values.
-/

namespace DocComment.Json

def skip (t : Text) : Text :=
  t.dropWhile isSpace

/-- The characters of numbers and of the three literal names. -/
def isWordChar (c : Char) : Bool :=
  c.isAlphanum || c = '+' || c = '-' || c = '.'

def ofWord? (w : Text) : Option Tree :=
  if w = "null".toList then some .null
  else if w = "true".toList then some (.bool true)
  else if w = "false".toList then some (.bool false)
  else if isNumber w then some (.number w)
  else none

def readCodeUnit : Text → Option (Nat × Text)
  | a :: b :: c :: d :: rest => (codeUnit? a b c d).map (·, rest)
  | _ => none

/-- The second half of a pair of surrogates, which is escaped like the first. -/
def readLowSurrogate (high : Nat) : Text → Option (Char × Text)
  | '\\' :: 'u' :: rest => (readCodeUnit rest).bind fun (n, rest) =>
      if isLowSurrogate n then some (surrogatePair high n, rest) else none
  | _ => none

def readEscaped : Text → Option (Char × Text)
  | [] => none
  | e :: rest =>
    if e = 'u' then (readCodeUnit rest).bind fun (n, rest) =>
      if isHighSurrogate n then readLowSurrogate n rest
      else if isLowSurrogate n then none
      else some (Char.ofNat n, rest)
    else (escapes.lookup e).map (·, rest)

/-- A text whose opening quote has been read. -/
def readText : Nat → Text → Option (Text × Text)
  | 0, _ | _, [] => none
  | limit + 1, c :: rest =>
    if c = '"' then some ([], rest)
    else if c = '\\' then
      (readEscaped rest).bind fun (c, rest) =>
        (readText limit rest).map fun (t, rest) => (c :: t, rest)
    else if c.toNat < 0x20 then none
    else (readText limit rest).map fun (t, rest) => (c :: t, rest)

variable {α : Type}

def readList (read : Text → Option (α × Text)) (closer : Char) : Nat → Text → Option (List α × Text)
  | 0, _ => none
  | limit + 1, t =>
    (read (skip t)).bind fun (x, rest) =>
      match skip rest with
      | [] => none
      | c :: rest =>
        if c = closer then some ([x], rest)
        else if c = ',' then
          (readList read closer limit rest).map fun (xs, rest) => (x :: xs, rest)
        else none

/-- The elements of a container whose opening bracket has been read. -/
def readElements (read : Text → Option (α × Text)) (closer : Char) (limit : Nat) (t : Text) :
    Option (List α × Text) :=
  match skip t with
  | [] => none
  | c :: rest => if c = closer then some ([], rest) else readList read closer limit t

def readMember (read : Text → Option (Tree × Text)) (limit : Nat) :
    Text → Option ((Text × Tree) × Text)
  | '"' :: rest => (readText limit rest).bind fun (name, rest) =>
    match skip rest with
    | ':' :: rest => (read (skip rest)).map fun (value, rest) => ((name, value), rest)
    | _ => none
  | _ => none

def readValue : Nat → Text → Option (Tree × Text)
  | 0, _ | _, [] => none
  | limit + 1, c :: rest =>
    if c = '"' then (readText limit rest).map fun (t, rest) => (.text t, rest)
    else if c = '[' then
      (readElements (readValue limit) ']' limit rest).map fun (items, rest) => (.array items, rest)
    else if c = '\x7b' then
      (readElements (readMember (readValue limit) limit) '\x7d' limit rest).map
        fun (members, rest) => (.object members, rest)
    else
      (ofWord? ((c :: rest).takeWhile isWordChar)).map (·, (c :: rest).dropWhile isWordChar)

/-- The value that the whole text spells, with white space around it. -/
def read? (t : Text) : Option Tree :=
  match readValue t.length (skip t) with
  | some (v, rest) => if rest.all isSpace then some v else none
  | none => none

variable {v : Tree} {w t rest : Text} {limit : Nat}

theorem skip_gap (hw : IsGap w) (t : Text) : skip (w ++ t) = skip t :=
  List.dropWhile_append_of_pos hw

theorem skip_cons {c : Char} (hc : isSpace c = false) (t : Text) : skip (c :: t) = c :: t :=
  List.dropWhile_cons_of_neg (by simp [hc])

/-- What may stand behind a value without changing it. -/
def Ends (t : Text) : Prop :=
  ∀ c ∈ t.head?, isWordChar c = false

theorem isWordChar_of_isSpace {c : Char} (hc : isSpace c = true) : isWordChar c = false := by
  simp only [isSpace, Bool.or_eq_true, decide_eq_true_eq] at hc
  rcases hc with ((rfl | rfl) | rfl) | rfl <;> decide

theorem ends_gap_append (hw : IsGap w) (ht : Ends t) : Ends (w ++ t) := by
  cases w with
  | nil => exact ht
  | cons c w =>
      rintro _ ⟨rfl⟩
      exact isWordChar_of_isSpace (hw c (List.mem_cons_self ..))

theorem ends_cons {c : Char} (hc : isWordChar c = false) (t : Text) : Ends (c :: t) := by
  rintro _ ⟨rfl⟩
  exact hc

/-! Texts in quotes. -/

theorem readCodeUnit_append {a b c d : Char} {n : Nat} (h : codeUnit? a b c d = some n)
    (rest : Text) : readCodeUnit (a :: b :: c :: d :: rest) = some (n, rest) := by
  rw [readCodeUnit, h]
  rfl

theorem readText_escaped {c : Char} (h : readEscaped t = some (c, rest)) (limit : Nat) :
    readText (limit + 1) ('\\' :: t) =
      (readText limit rest).map fun p => (c :: p.1, p.2) := by
  rw [readText, if_neg (by decide), if_pos rfl, h]
  rfl

theorem readEscaped_unit {n : Nat} (h : readCodeUnit t = some (n, rest)) :
    readEscaped ('u' :: t) =
      if isHighSurrogate n then readLowSurrogate n rest
      else if isLowSurrogate n then none else some (Char.ofNat n, rest) := by
  rw [readEscaped, if_pos rfl, h]
  rfl

theorem readText_char {c : Char} (h : SpellsChar c t) (rest : Text) (limit : Nat) :
    readText (limit + 1) (t ++ rest) = (readText limit rest).map fun p => (c :: p.1, p.2) := by
  cases h with
  | plain hc hquote hslash =>
      rw [List.singleton_append, readText, if_neg hquote, if_neg hslash, if_neg (by omega)]
  | @letter e c he =>
      apply readText_escaped
      have hu : e ≠ 'u' := by
        rintro rfl
        cases he
      change readEscaped (e :: rest) = _
      rw [readEscaped, if_neg hu, he]
      rfl
  | unit hn hhigh hlow =>
      apply readText_escaped
      have hread := readEscaped_unit (readCodeUnit_append hn rest)
      rwa [hhigh, hlow] at hread
  | @pair a b c d a' b' c' d' n n' hn hn' hhigh hlow =>
      apply readText_escaped
      have hread := readEscaped_unit
        (readCodeUnit_append hn ('\\' :: 'u' :: a' :: b' :: c' :: d' :: rest))
      rw [hhigh, if_pos rfl, readLowSurrogate, readCodeUnit_append hn'] at hread
      exact hread.trans (if_pos hlow)

theorem readText_of_spellsText {s : Text} (h : SpellsText s t) (rest : Text)
    (ht : t.length < limit) : readText limit (t ++ '"' :: rest) = some (s, rest) := by
  induction h generalizing limit with
  | nil =>
      obtain ⟨limit, rfl⟩ := Nat.exists_eq_add_one_of_ne_zero (Nat.ne_of_gt ht)
      rfl
  | @cons c s u v hc _ ih =>
      obtain ⟨limit, rfl⟩ := Nat.exists_eq_add_one_of_ne_zero (Nat.ne_zero_of_lt ht)
      have hpos : 0 < u.length := by cases hc <;> simp
      rw [List.length_append] at ht
      have hrest := ih (by omega : v.length < limit)
      rw [List.append_assoc, readText_char hc, hrest]
      rfl

/-! Numbers and literal names. -/

theorem all_isWordChar_of_isDigits (h : isDigits t = true) : t.all isWordChar = true := by
  rw [isDigits, Bool.and_eq_true] at h
  rw [List.all_eq_true]
  intro c hc
  have hdigit := List.all_eq_true.mp h.2 c hc
  simp [isWordChar, Char.isAlphanum, hdigit]

theorem all_isWordChar_unsigned (signs : List Char) (hsigns : signs.all isWordChar = true)
    (h : (unsigned signs t).all isWordChar = true) : t.all isWordChar = true := by
  cases t with
  | nil => rfl
  | cons c t =>
      rw [unsigned] at h
      split at h
      · next hc =>
          have hsign := List.all_eq_true.mp hsigns c hc
          rw [List.all_cons, hsign, h]
          rfl
      · exact h

theorem all_isWordChar_of_isExponent (h : isExponent t = true) : t.all isWordChar = true := by
  cases t with
  | nil => rfl
  | cons c t =>
      rw [isExponent, Bool.and_eq_true, Bool.or_eq_true, decide_eq_true_eq, decide_eq_true_eq] at h
      have hc : isWordChar c = true := by rcases h.1 with rfl | rfl <;> decide
      have ht := all_isWordChar_unsigned _ (by decide) (all_isWordChar_of_isDigits h.2)
      rw [List.all_cons, hc, ht]
      rfl

theorem all_isWordChar_of_digits_append
    (hfront : isDigits (t.takeWhile Char.isDigit) = true)
    (hback : (t.dropWhile Char.isDigit).all isWordChar = true) : t.all isWordChar = true := by
  rw [← List.takeWhile_append_dropWhile (p := Char.isDigit) (l := t), List.all_append,
    all_isWordChar_of_isDigits hfront, hback]
  rfl

theorem all_isWordChar_of_isFraction (h : isFraction t = true) : t.all isWordChar = true := by
  rw [isFraction.eq_def] at h
  split at h
  · rw [Bool.and_eq_true] at h
    rw [List.all_cons,
      all_isWordChar_of_digits_append h.1 (all_isWordChar_of_isExponent h.2)]
    rfl
  · exact all_isWordChar_of_isExponent h

theorem all_isWordChar_of_isNumber (h : isNumber t = true) : t.all isWordChar = true := by
  rw [isNumber, Bool.and_eq_true, isInteger, Bool.and_eq_true] at h
  apply all_isWordChar_unsigned ['-'] (by decide)
  exact all_isWordChar_of_digits_append h.1.1 (all_isWordChar_of_isFraction h.2)

theorem ofWord?_of_isNumber (h : isNumber t = true) : ofWord? t = some (.number t) := by
  have hne {u : Text} (hu : isNumber u = false) : t ≠ u := by
    rintro rfl
    rw [hu] at h
    cases h
  rw [ofWord?, if_neg (hne (by decide)), if_neg (hne (by decide)), if_neg (hne (by decide)),
    if_pos h]

theorem takeWhile_append_of_ends (ht : t.all isWordChar = true) (hrest : Ends rest) :
    (t ++ rest).takeWhile isWordChar = t ∧ (t ++ rest).dropWhile isWordChar = rest := by
  have hword : ∀ c ∈ t, isWordChar c = true := List.all_eq_true.mp ht
  rw [List.takeWhile_append_of_pos hword, List.dropWhile_append_of_pos hword]
  cases rest with
  | nil => exact ⟨List.append_nil t, rfl⟩
  | cons c rest =>
      have hc := hrest c rfl
      simp [hc]

theorem readValue_word (ht : t.all isWordChar = true) (hv : ofWord? t = some v)
    (hrest : Ends rest) (limit : Nat) : readValue (limit + 1) (t ++ rest) = some (v, rest) := by
  obtain ⟨htake, hdrop⟩ := takeWhile_append_of_ends ht hrest
  cases t with
  | nil => cases hv
  | cons c t =>
      have hc := List.all_eq_true.mp ht c (List.mem_cons_self ..)
      have hne {d : Char} (hd : isWordChar d = false) : c ≠ d := by
        rintro rfl
        rw [hd] at hc
        cases hc
      rw [List.cons_append] at htake hdrop ⊢
      rw [readValue, if_neg (hne (by decide)), if_neg (hne (by decide)), if_neg (hne (by decide)),
        htake, hdrop, hv]
      rfl

/-! Lists of elements. The bound on the elements is that of the whole container. -/

section Elements

variable {spells : α → Text → Prop} {read : Text → Option (α × Text)} {closer : Char} {bound : Nat}

/-- The text starts with a token that does not close a container. -/
def Opens (closer : Char) (t : Text) : Prop :=
  ∃ c rest, t = c :: rest ∧ isSpace c = false ∧ c ≠ closer

theorem skip_of_opens (ht : Opens closer t) (rest : Text) : skip (t ++ rest) = t ++ rest := by
  obtain ⟨c, t, rfl, hc, -⟩ := ht
  exact skip_cons hc _

theorem readList_of_spellsList (hcloser : closer = ']' ∨ closer = '\x7d')
    (hopens : ∀ x t, spells x t → Opens closer t)
    (hread : ∀ x t rest, spells x t → t.length ≤ bound → Ends rest →
      read (t ++ rest) = some (x, rest))
    {xs : List α} (h : SpellsList spells xs t) (hbound : t.length ≤ bound)
    (hlimit : t.length ≤ limit) (rest : Text) :
    readList read closer limit (t ++ closer :: rest) = some (xs, rest) := by
  have hspace : isSpace closer = false := by rcases hcloser with rfl | rfl <;> decide
  have hword : isWordChar closer = false := by rcases hcloser with rfl | rfl <;> decide
  have hcomma : ',' ≠ closer := by rcases hcloser with rfl | rfl <;> decide
  induction h generalizing limit with
  | @last x v t w hv hx hw =>
      simp only [List.length_append] at hbound hlimit
      have hstart := hopens x t hx
      obtain ⟨limit, rfl⟩ : ∃ n, limit = n + 1 := by
        obtain ⟨c, u, rfl, -⟩ := hstart
        exact Nat.exists_eq_add_one_of_ne_zero (by simp at hlimit; omega)
      have hitem := hread x t (w ++ closer :: rest) hx (by omega)
        (ends_gap_append hw (ends_cons hword rest))
      rw [List.append_assoc, List.append_assoc, readList, skip_gap hv, skip_of_opens hstart, hitem,
        Option.bind_some]
      dsimp only
      rw [skip_gap hw, skip_cons hspace]
      exact if_pos rfl
  | @more x xs v t w u hv hx hw _ ih =>
      simp only [List.length_append, List.length_cons] at hbound hlimit
      have hstart := hopens x t hx
      obtain ⟨limit, rfl⟩ : ∃ n, limit = n + 1 :=
        Nat.exists_eq_add_one_of_ne_zero (by omega)
      have hitem := hread x t (w ++ ',' :: (u ++ closer :: rest)) hx (by omega)
        (ends_gap_append hw (ends_cons (by decide) _))
      have htail := ih (by omega) (by omega : u.length ≤ limit)
      have htext : v ++ (t ++ (w ++ ',' :: u)) ++ closer :: rest =
          v ++ (t ++ (w ++ ',' :: (u ++ closer :: rest))) := by simp
      rw [htext, readList, skip_gap hv, skip_of_opens hstart, hitem, Option.bind_some]
      dsimp only
      rw [skip_gap hw, skip_cons (by decide)]
      dsimp only
      rw [if_neg hcomma, if_pos rfl, htail]
      rfl

theorem readElements_of_isGap (read : Text → Option (α × Text)) (limit : Nat) (hw : IsGap w)
    (hcloser : isSpace closer = false) (rest : Text) :
    readElements read closer limit (w ++ closer :: rest) = some ([], rest) := by
  rw [readElements, skip_gap hw, skip_cons hcloser]
  exact if_pos rfl

theorem SpellsList.exists_first {xs : List α} (h : SpellsList spells xs t) :
    ∃ v x u w, IsGap v ∧ spells x u ∧ t = v ++ (u ++ w) := by
  cases h with
  | last hv hx _ => exact ⟨_, _, _, _, hv, hx, rfl⟩
  | more hv hx _ _ => exact ⟨_, _, _, _, hv, hx, rfl⟩

theorem readElements_of_spellsList (hcloser : closer = ']' ∨ closer = '\x7d')
    (hopens : ∀ x t, spells x t → Opens closer t)
    (hread : ∀ x t rest, spells x t → t.length ≤ bound → Ends rest →
      read (t ++ rest) = some (x, rest))
    {xs : List α} (h : SpellsList spells xs t) (hbound : t.length ≤ bound) (rest : Text) :
    readElements read closer bound (t ++ closer :: rest) = some (xs, rest) := by
  have hlist := readList_of_spellsList hcloser hopens hread h hbound hbound rest
  obtain ⟨c, u, hskip, hc⟩ : ∃ c u, skip (t ++ closer :: rest) = c :: u ∧ c ≠ closer := by
    obtain ⟨v, x, u, w, hv, hx, rfl⟩ := h.exists_first
    have hstart := hopens x u hx
    rw [List.append_assoc, List.append_assoc, skip_gap hv, skip_of_opens hstart]
    obtain ⟨c, u, rfl, -, hc⟩ := hstart
    exact ⟨c, _, rfl, hc⟩
  rw [readElements, hskip]
  exact (if_neg hc).trans hlist

end Elements

theorem readMember_of_spellsMember {read : Text → Option (Tree × Text)}
    {spells : Tree → Text → Prop} {bound : Nat}
    (hopens : ∀ v t, spells v t → Opens ']' t)
    (hread : ∀ v t rest, spells v t → t.length ≤ bound → Ends rest →
      read (t ++ rest) = some (v, rest))
    {m : Text × Tree} (h : SpellsMember spells m t) (hbound : t.length ≤ bound)
    (hrest : Ends rest) : readMember read bound (t ++ rest) = some (m, rest) := by
  obtain @⟨name, s, v, w, t, x, hs, hv, hw, hx⟩ := h
  simp only [List.length_cons, List.length_append] at hbound
  have hname := readText_of_spellsText hs (v ++ ':' :: (w ++ (t ++ rest)))
    (by omega : s.length < bound)
  have hvalue := hread x t rest hx (by omega) hrest
  have htext : '"' :: (s ++ '"' :: (v ++ ':' :: (w ++ t))) ++ rest =
      '"' :: (s ++ '"' :: (v ++ ':' :: (w ++ (t ++ rest)))) := by simp
  rw [htext, readMember, hname, Option.bind_some]
  dsimp only
  rw [skip_gap hv, skip_cons (by decide)]
  change (read (skip (w ++ (t ++ rest)))).map _ = _
  rw [skip_gap hw, skip_of_opens (hopens x t hx), hvalue]
  rfl

/-- A value starts with a token of its own, which closes nothing. -/
theorem opens_of_spells (h : Spells v t) (closer : Char) (hc : closer = ']' ∨ closer = '\x7d') :
    Opens closer t := by
  have hword {t : Text} (ht : t.all isWordChar = true) (hne : t ≠ []) : Opens closer t := by
    obtain ⟨c, u, rfl⟩ := List.exists_cons_of_ne_nil hne
    have hchar := List.all_eq_true.mp ht c (List.mem_cons_self ..)
    refine ⟨c, u, rfl, ?_, ?_⟩
    · cases hs : isSpace c with
      | false => rfl
      | true =>
          rw [isWordChar_of_isSpace hs] at hchar
          cases hchar
    · rintro rfl
      rcases hc with rfl | rfl <;> cases hchar
  have hother (c : Char) (t : Text) (hspace : isSpace c = false)
      (hne : c ≠ ']' ∧ c ≠ '\x7d') : Opens closer (c :: t) := by
    refine ⟨c, t, rfl, hspace, ?_⟩
    rcases hc with rfl | rfl
    · exact hne.1
    · exact hne.2
  cases h with
  | null => exact hword (by decide) (by decide)
  | true => exact hword (by decide) (by decide)
  | false => exact hword (by decide) (by decide)
  | number hn =>
      refine hword (all_isWordChar_of_isNumber hn) ?_
      rintro rfl
      cases hn
  | text => exact hother _ _ (by decide) (by decide)
  | emptyArray => exact hother _ _ (by decide) (by decide)
  | array => exact hother _ _ (by decide) (by decide)
  | emptyObject => exact hother _ _ (by decide) (by decide)
  | object => exact hother _ _ (by decide) (by decide)

theorem opens_of_spellsMember {spells : Tree → Text → Prop} {m : Text × Tree}
    (h : SpellsMember spells m t) : Opens '\x7d' t := by
  obtain ⟨⟩ := h
  exact ⟨'"', _, rfl, by decide, by decide⟩

/-- Every spelling is read as its value, by induction on the limit. -/
theorem readValue_of_spells (h : Spells v t) (ht : t.length ≤ limit) (hrest : Ends rest) :
    readValue limit (t ++ rest) = some (v, rest) := by
  induction limit generalizing v t rest with
  | zero =>
      obtain ⟨c, u, rfl, -⟩ := opens_of_spells h ']' (.inl rfl)
      cases ht
  | succ limit ih =>
      have hopens : ∀ v t, Spells v t → Opens ']' t := fun v t h => opens_of_spells h ']' (.inl rfl)
      have hread : ∀ v t rest, Spells v t → t.length ≤ limit → Ends rest →
          readValue limit (t ++ rest) = some (v, rest) := fun v t rest h ht hrest => ih h ht hrest
      cases h with
      | null => exact readValue_word (by decide) rfl hrest limit
      | true => exact readValue_word (by decide) rfl hrest limit
      | false => exact readValue_word (by decide) rfl hrest limit
      | number hn =>
          exact readValue_word (all_isWordChar_of_isNumber hn) (ofWord?_of_isNumber hn) hrest limit
      | @text s u hs =>
          simp only [List.length_cons, List.length_append, List.length_nil] at ht
          have htext := readText_of_spellsText hs rest (by omega : u.length < limit)
          rw [List.cons_append, List.append_assoc, readValue, if_pos rfl]
          exact (congrArg _ htext).trans rfl
      | @emptyArray w hw =>
          have hgap := readElements_of_isGap (readValue limit) limit hw
            (by decide : isSpace ']' = false) rest
          rw [List.cons_append, List.append_assoc, readValue, if_neg (by decide), if_pos rfl]
          exact (congrArg _ hgap).trans rfl
      | @array items u hitems =>
          simp only [List.length_cons, List.length_append, List.length_nil] at ht
          have hlist := readElements_of_spellsList (.inl rfl) hopens hread hitems (by omega) rest
          rw [List.cons_append, List.append_assoc, readValue, if_neg (by decide), if_pos rfl]
          exact (congrArg _ hlist).trans rfl
      | @emptyObject w hw =>
          have hgap := readElements_of_isGap (readMember (readValue limit) limit) limit hw
            (by decide : isSpace '\x7d' = false) rest
          rw [List.cons_append, List.append_assoc, readValue, if_neg (by decide),
            if_neg (by decide), if_pos rfl]
          exact (congrArg _ hgap).trans rfl
      | @object members u hmembers =>
          simp only [List.length_cons, List.length_append, List.length_nil] at ht
          have hlist := readElements_of_spellsList (.inr rfl)
            (fun m t hm => opens_of_spellsMember hm)
            (fun m t rest hm hm' hrest => readMember_of_spellsMember hopens hread hm hm' hrest)
            hmembers (by omega) rest
          rw [List.cons_append, List.append_assoc, readValue, if_neg (by decide),
            if_neg (by decide), if_pos rfl]
          exact (congrArg _ hlist).trans rfl

theorem read?_of_spells {front back : Text} (hfront : IsGap front) (h : Spells v t)
    (hback : IsGap back) : read? (front ++ (t ++ back)) = some v := by
  have hskip : skip (front ++ (t ++ back)) = t ++ back := by
    rw [skip_gap hfront, skip_of_opens (opens_of_spells h ']' (.inl rfl))]
  have hends : Ends back := by
    rw [← List.append_nil back]
    exact ends_gap_append hback nofun
  have hlength : t.length ≤ (front ++ (t ++ back)).length := by
    simp only [List.length_append]
    omega
  have hvalue := readValue_of_spells h hlength hends
  rw [read?, hskip, hvalue]
  exact if_pos (List.all_eq_true.mpr hback)

/-- No text spells two values. -/
theorem Spells.unique {v' : Tree} (h : Spells v t) (h' : Spells v' t) : v = v' := by
  have hnil : IsGap [] := nofun
  have hread := read?_of_spells hnil h hnil
  rw [read?_of_spells hnil h' hnil] at hread
  exact (Option.some.inj hread).symm

end DocComment.Json
