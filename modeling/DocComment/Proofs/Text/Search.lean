import DocComment.Text.Basic

/-!
Searching a text for a fixed piece: where the piece does not occur nothing is found, and text
around an occurrence stays around what is found.
-/

namespace DocComment.Text

theorem after?_eq_none_iff {p t : Text} : after? p t = none ↔ ¬ p <+: t := by
  unfold after?
  split
  · next h => simpa using List.isPrefixOf_iff_prefix.mp h
  · next h => simpa using fun hp => h (List.isPrefixOf_iff_prefix.mpr hp)

theorem before?_eq_none_iff {p t : Text} : before? p t = none ↔ ¬ p <:+: t := by
  induction t with
  | nil => cases p <;> simp [before?]
  | cons c t ih =>
      rw [before?, List.infix_cons_iff, not_or, ← ih, ← List.isPrefixOf_iff_prefix]
      split
      · next h => simp [h]
      · next h => simp [h]

theorem afterLast?_eq_none_iff {p t : Text} : afterLast? p t = none ↔ ¬ p <:+: t := by
  induction t with
  | nil => rw [afterLast?, after?_eq_none_iff, List.prefix_nil, List.infix_nil]
  | cons c t ih =>
      rw [afterLast?, Option.or_eq_none_iff, ih, after?_eq_none_iff, List.infix_cons_iff, not_or,
        and_comm]

variable {a b : Char} {t w : Text}

/-- Behind an occurrence of the pair, the search goes on for a later one. -/
theorem afterLast?_append_pair (hab : a ≠ b) (front t : Text) :
    afterLast? [a, b] (front ++ a :: b :: t) = some ((afterLast? [a, b] t).getD t) := by
  induction front with
  | nil =>
      have hhere : after? [a, b] (a :: b :: t) = some t := after?_eq_some_iff.mpr rfl
      have hnext : after? [a, b] (b :: t) = none :=
        after?_eq_none_iff.mpr fun h => hab (List.cons_prefix_cons.mp h).1
      simp only [List.nil_append, afterLast?, hhere, hnext, Option.or_none]
      cases afterLast? [a, b] t <;> rfl
  | cons c front ih => rw [List.cons_append, afterLast?, ih]; rfl

theorem after?_pair_append (hb : b ∉ w) (c : Char) (t : Text) :
    after? [a, b] (c :: t ++ w) = (after? [a, b] (c :: t)).map (· ++ w) := by
  cases t with
  | cons d t => by_cases h : a = c ∧ b = d <;> simp [after?, h]
  | nil =>
      have hw : ¬ [b] <+: w := fun h => hb (h.subset (List.mem_singleton_self b))
      have hlong : after? [a, b] ([c] ++ w) = none :=
        after?_eq_none_iff.mpr fun h => hw (List.cons_prefix_cons.mp h).2
      have hshort : after? [a, b] [c] = none := by simp [after?]
      rw [hlong, hshort]
      rfl

/-- Text without the second character holds no end of the pair. -/
theorem afterLast?_pair_append (hb : b ∉ w) (t : Text) :
    afterLast? [a, b] (t ++ w) = (afterLast? [a, b] t).map (· ++ w) := by
  induction t with
  | nil =>
      have hw : afterLast? [a, b] w = none :=
        afterLast?_eq_none_iff.mpr fun h => hb (h.subset (by simp))
      rw [List.nil_append, hw]
      rfl
  | cons c t ih =>
      rw [List.cons_append, afterLast?, ih, ← List.cons_append, after?_pair_append hb, afterLast?]
      cases afterLast? [a, b] t <;> rfl

end DocComment.Text
