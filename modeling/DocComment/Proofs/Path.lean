import DocComment.Path

/-!
Paths in order and paths put together. The order of paths is total, and two paths come before each
other just when they are the same; the last segment of a path in a directory is the name that was
put behind the directory.
-/

namespace DocComment

/-- `lt` puts all elements in one row. -/
structure IsRow {α : Type} (lt : α → α → Bool) : Prop where
  asymm : ∀ {a b}, lt a b = true → lt b a = false
  trans : ∀ {a b c}, lt a b = true → lt b c = true → lt a c = true
  eq_of_not : ∀ {a b}, lt a b = false → lt b a = false → a = b

section Lex

variable {α : Type} {lt : α → α → Bool} {l m n : List α}

theorem IsRow.irrefl (h : IsRow lt) (a : α) : lt a a = false := by
  cases ha : lt a a with
  | true => rw [← ha, h.asymm ha]
  | false => rfl

/-- The first place where two lists differ decides. -/
theorem lexLe_cons_iff (h : IsRow lt) {a b : α} :
    lexLe lt (a :: l) (b :: m) = true ↔ lt a b = true ∨ (a = b ∧ lexLe lt l m = true) := by
  rw [lexLe, Bool.or_eq_true, Bool.and_eq_true, Bool.not_eq_true']
  constructor
  · rintro (hab | ⟨hba, hlm⟩)
    · exact .inl hab
    · cases hab : lt a b with
      | true => exact .inl rfl
      | false => exact .inr ⟨h.eq_of_not hab hba, hlm⟩
  · rintro (hab | ⟨rfl, hlm⟩)
    · exact .inl hab
    · exact .inr ⟨h.irrefl a, hlm⟩

theorem lexLe_antisymm (h : IsRow lt) (hlm : lexLe lt l m = true) (hml : lexLe lt m l = true) :
    l = m := by
  induction l generalizing m with
  | nil =>
      cases m with
      | nil => rfl
      | cons b m => cases hml
  | cons a l ih =>
      cases m with
      | nil => cases hlm
      | cons b m =>
          rcases (lexLe_cons_iff h).mp hlm with hab | ⟨rfl, hrest⟩
          · rcases (lexLe_cons_iff h).mp hml with hba | ⟨rfl, -⟩
            · rw [h.asymm hab] at hba
              cases hba
            · rw [h.irrefl] at hab
              cases hab
          · rcases (lexLe_cons_iff h).mp hml with haa | ⟨-, hrest'⟩
            · rw [h.irrefl] at haa
              cases haa
            · rw [ih hrest hrest']

theorem lexLe_trans (h : IsRow lt) (hlm : lexLe lt l m = true) (hmn : lexLe lt m n = true) :
    lexLe lt l n = true := by
  induction l generalizing m n with
  | nil => rfl
  | cons a l ih =>
      cases m with
      | nil => cases hlm
      | cons b m =>
          cases n with
          | nil => cases hmn
          | cons c n =>
              rw [lexLe_cons_iff h] at hlm hmn ⊢
              rcases hlm with hab | ⟨rfl, hlm⟩
              · rcases hmn with hbc | ⟨rfl, -⟩
                · exact .inl (h.trans hab hbc)
                · exact .inl hab
              · rcases hmn with hbc | ⟨rfl, hmn⟩
                · exact .inl hbc
                · exact .inr ⟨rfl, ih hlm hmn⟩

/-- A list that does not come later comes first: the first place where the two differ decides, and
a list comes before its continuations. -/
theorem lexLe_eq_false_iff (h : IsRow lt) :
    lexLe lt m l = false ↔ List.Lex (fun a b => lt a b = true) l m := by
  induction l generalizing m with
  | nil =>
      cases m with
      | nil => exact ⟨nofun, nofun⟩
      | cons b m => exact ⟨fun _ => .nil, fun _ => rfl⟩
  | cons a l ih =>
      cases m with
      | nil => exact ⟨nofun, nofun⟩
      | cons b m =>
          rw [List.cons_lex_cons_iff, ← ih, lexLe, Bool.or_eq_false_iff, Bool.and_eq_false_iff,
            Bool.not_eq_false']
          constructor
          · rintro ⟨hba, hab | hml⟩
            · exact .inl hab
            · cases hab : lt a b with
              | true => exact .inl rfl
              | false => exact .inr ⟨h.eq_of_not hab hba, hml⟩
          · rintro (hab | ⟨rfl, hml⟩)
            · exact ⟨h.asymm hab, .inl hab⟩
            · exact ⟨h.irrefl a, .inr hml⟩

/-- The strict order of lists puts them in one row too. -/
theorem isRow_lex (h : IsRow lt) : IsRow fun l m => !lexLe lt m l where
  asymm {l m} hlm := by
    have htotal := lexLe_total lt l m
    simp_all
  trans {l m n} hlm hmn := by
    have hmn' : lexLe lt m n = true := by
      have htotal := lexLe_total lt m n
      simp_all
    cases hnl : lexLe lt n l with
    | false => rfl
    | true =>
        rw [lexLe_trans h hmn' hnl] at hlm
        cases hlm
  eq_of_not {l m} hlm hml := by
    rw [Bool.not_eq_false'] at hlm hml
    exact lexLe_antisymm h hml hlm

end Lex

theorem isRow_toNat : IsRow fun a b : Char => decide (a.toNat < b.toNat) := by
  refine ⟨?_, ?_, ?_⟩
  · intro a b h
    simp only [decide_eq_true_eq, decide_eq_false_iff_not] at h ⊢
    omega
  · intro a b c hab hbc
    simp only [decide_eq_true_eq] at hab hbc ⊢
    omega
  · intro a b hab hba
    simp only [decide_eq_false_iff_not] at hab hba
    exact Char.toNat_inj.mp (by omega)

theorem Text.isRow_lt : IsRow Text.lt := isRow_lex isRow_toNat

/-- Sorting leaves nothing of the order in which the lists come. -/
theorem mergeSort_eq_of_perm {α : Type} {lt : α → α → Bool} (h : IsRow lt) {ls ms : List (List α)}
    (hperm : ls.Perm ms) : ls.mergeSort (lexLe lt) = ms.mergeSort (lexLe lt) := by
  have htrans : ∀ l m n, lexLe lt l m = true → lexLe lt m n = true → lexLe lt l n = true :=
    fun _ _ _ hlm hmn => lexLe_trans h hlm hmn
  have hsorted (ks : List (List α)) :
      (ks.mergeSort (lexLe lt)).Pairwise fun l m => lexLe lt l m = true :=
    List.pairwise_mergeSort htrans (lexLe_total lt) ks
  refine List.Perm.eq_of_pairwise ?_ (hsorted ls) (hsorted ms) ?_
  · intro l m _ _ hlm hml
    exact lexLe_antisymm h hlm hml
  · exact (List.mergeSort_perm ls _).trans (hperm.trans (List.mergeSort_perm ms _).symm)

namespace Path

variable {p q r file : Text}

theorem isRow_lt : IsRow Component.lt := by
  refine ⟨?_, ?_, ?_⟩
  · intro a b h
    cases a <;> cases b <;> simp_all [Component.lt, Component.rank]
    exact Text.isRow_lt.asymm h
  · intro a b c hab hbc
    cases a <;> cases b <;> cases c <;> simp_all [Component.lt, Component.rank]
    exact Text.isRow_lt.trans hab hbc
  · intro a b hab hba
    cases a <;> cases b <;> simp_all [Component.lt, Component.rank]
    exact Text.isRow_lt.eq_of_not hab hba

theorem le_total (p q : Text) : (le p q || le q p) = true :=
  lexLe_total Component.lt (components p) (components q)

theorem le_trans (hpq : le p q = true) (hqr : le q r = true) : le p r = true :=
  lexLe_trans isRow_lt hpq hqr

/-- Paths that come before each other differ in spelling only. -/
theorem same_of_le_of_le (hpq : le p q = true) (hqp : le q p = true) : same p q = true :=
  decide_eq_true (lexLe_antisymm isRow_lt hpq hqp)

theorem same_refl (p : Text) : same p p = true := decide_eq_true rfl

theorem same_iff : same p q = true ↔ components p = components q := decide_eq_true_iff

theorem same_symm (h : same p q = true) : same q p = true :=
  same_iff.mpr (same_iff.mp h).symm

theorem same_congr_right (h : same q r = true) : same p q = same p r := by
  rw [same, same, same_iff.mp h]

theorem le_of_same (h : same p q = true) : le q p = true := by
  have hcomponents : components p = components q := of_decide_eq_true h
  have htotal := le_total q q
  rw [Bool.or_self] at htotal
  rw [le, hcomponents]
  exact htotal

/-- The first component that differs decides, and a path comes before its continuations. -/
def Precedes (p q : Text) : Prop :=
  List.Lex (fun c d => Component.lt c d = true) (components p) (components q)

/-- Of two paths in order the first one precedes the other, unless they are the same. -/
theorem precedes_iff : Precedes p q ↔ le p q = true ∧ same p q = false := by
  rw [Precedes, ← lexLe_eq_false_iff isRow_lt]
  change le q p = false ↔ _
  constructor
  · intro hqp
    refine ⟨?_, eq_false_of_ne_true fun hsame => ?_⟩
    · simpa [hqp] using le_total p q
    · rw [le_of_same hsame] at hqp
      cases hqp
  · rintro ⟨hpq, hsame⟩
    refine eq_false_of_ne_true fun hqp => ?_
    rw [same_of_le_of_le hpq hqp] at hsame
    cases hsame

theorem exists_splitOn_join (dir : Text) (hfile : '/' ∉ file) (hne : file ≠ []) :
    ∃ front, (join dir file).splitOn '/' = front ++ [file] := by
  have hrelative : isAbsolute file = false := by
    obtain ⟨c, t, rfl⟩ := List.exists_cons_of_ne_nil hne
    have hc : c ≠ '/' := fun h => hfile (h ▸ List.mem_cons_self ..)
    simpa [isAbsolute] using hc
  have hsingle : file.splitOn '/' = [file] := List.splitOn_eq_singleton hfile
  rw [join, hrelative, Bool.false_or]
  split
  · exact ⟨[], hsingle⟩
  · split
    · next hlast =>
        obtain ⟨front, rfl⟩ := List.getLast?_eq_some_iff.mp hlast
        refine ⟨front.splitOn '/', ?_⟩
        rw [List.append_assoc, List.singleton_append, List.splitOn_append_cons_self, hsingle]
    · exact ⟨dir.splitOn '/', by rw [List.splitOn_append_cons_self, hsingle]⟩

theorem getLast?_components {front : List Text} {segment : Text} {c : Component}
    (hsegments : p.splitOn '/' = front ++ [segment])
    (hc : Component.ofSegment? segment = some c) : (components p).getLast? = some c := by
  rw [components, hsegments, List.filterMap_append, List.filterMap_cons_some hc,
    List.filterMap_nil, ← List.append_assoc, List.getLast?_concat]

theorem fileName?_of_splitOn {front : List Text} {name : Text}
    (hsegments : p.splitOn '/' = front ++ [name])
    (hname : Component.ofSegment? name = some (.name name)) : fileName? p = some name := by
  rw [fileName?, getLast?_components hsegments hname]

/-- Only short segments are special. -/
theorem ofSegment?_eq_name_of_length {segment : Text} (h : 2 < segment.length) :
    Component.ofSegment? segment = some (.name segment) := by
  rw [Component.ofSegment?, if_neg, if_neg]
  · rintro rfl
    simp at h
  · rintro (hnil | rfl)
    · rw [List.isEmpty_iff.mp hnil] at h
      simp at h
    · simp at h

end Path

end DocComment
