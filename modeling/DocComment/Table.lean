/-!
Lists of pairs as tables. A key has one slot, which it keeps when its value is replaced; a look-up
is `List.lookup`. Where the slots are does not count for it.
-/

namespace DocComment.Table

variable {α β : Type} [BEq α] [LawfulBEq α]

/-- Replaces the value of `key` where it stands, or adds the pair at the end. -/
def put (key : α) (value : β) : List (α × β) → List (α × β)
  | [] => [(key, value)]
  | (k, v) :: rest => if k == key then (k, value) :: rest else (k, v) :: put key value rest

theorem map_fst_put (key : α) (value : β) (l : List (α × β)) :
    (put key value l).map Prod.fst =
      if key ∈ l.map Prod.fst then l.map Prod.fst else l.map Prod.fst ++ [key] := by
  induction l with
  | nil => simp [put]
  | cons p rest ih =>
    obtain ⟨k, v⟩ := p
    by_cases h : k = key
    · simp [put, h]
    · have h' : key ≠ k := fun e => h e.symm
      by_cases hm : key ∈ rest.map Prod.fst <;> simp_all [put]

theorem nodup_map_fst_put {l : List (α × β)} (h : (l.map Prod.fst).Nodup) (key : α) (value : β) :
    ((put key value l).map Prod.fst).Nodup := by
  rw [map_fst_put]
  split
  · exact h
  · next hn =>
    rw [List.nodup_append]
    refine ⟨h, by simp, fun a ha b hb e => hn ?_⟩
    rw [List.mem_singleton] at hb
    exact hb ▸ e ▸ ha

theorem lookup_put (key k : α) (value : β) (l : List (α × β)) :
    (put key value l).lookup k = if k == key then some value else l.lookup k := by
  induction l with
  | nil => by_cases h : k = key <;> simp [put, h]
  | cons p rest ih =>
    obtain ⟨k', v⟩ := p
    by_cases hk : k' = key
    · subst hk
      by_cases h : k = k' <;> simp [put, h, List.lookup_cons, beq_eq_false_iff_ne.2]
    · by_cases h : k = k'
      · subst h
        simp [put, hk]
      · simp [put, hk, h, List.lookup_cons, beq_eq_false_iff_ne.2, ih]

theorem put_of_not_mem {key : α} {l : List (α × β)} (h : key ∉ l.map Prod.fst) (value : β) :
    put key value l = l ++ [(key, value)] := by
  induction l with
  | nil => rfl
  | cons p rest ih =>
    obtain ⟨k, v⟩ := p
    rw [List.map_cons, List.mem_cons, not_or] at h
    have hk : ¬ (k == key) = true := fun e => h.1 (eq_of_beq e).symm
    rw [put, if_neg hk, ih h.2, List.cons_append]

theorem mem_of_mem_put {key : α} {value : β} {l : List (α × β)} {p : α × β}
    (h : p ∈ put key value l) : p = (key, value) ∨ p ∈ l := by
  induction l with
  | nil => exact .inl (List.mem_singleton.mp h)
  | cons q rest ih =>
    obtain ⟨k, v⟩ := q
    rw [put] at h
    split at h
    · next hk =>
      rcases List.mem_cons.mp h with rfl | h
      · exact .inl (by rw [eq_of_beq hk])
      · exact .inr (List.mem_cons_of_mem _ h)
    · rcases List.mem_cons.mp h with rfl | h
      · exact .inr (List.mem_cons_self ..)
      · exact (ih h).imp_right (List.mem_cons_of_mem _)

section Perm

variable {l m : List (α × β)} {key : α} {value : β}

theorem lookup_eq_some_iff_mem (h : (l.map Prod.fst).Nodup) :
    l.lookup key = some value ↔ (key, value) ∈ l := by
  induction l with
  | nil => exact ⟨nofun, nofun⟩
  | cons p rest ih =>
      obtain ⟨k, v⟩ := p
      obtain ⟨hk, hrest⟩ := List.nodup_cons.mp h
      rw [List.mem_cons, Prod.mk.injEq, List.lookup_cons]
      by_cases hkey : key = k
      · subst hkey
        have hnot : (key, value) ∉ rest :=
          fun hmem => hk (List.mem_map.mpr ⟨(key, value), hmem, rfl⟩)
        simp [hnot, eq_comm]
      · simp [hkey, beq_eq_false_iff_ne.mpr hkey, ih hrest]

theorem lookup_eq_of_perm (hperm : l.Perm m) (h : (l.map Prod.fst).Nodup) (key : α) :
    l.lookup key = m.lookup key := by
  have hm : (m.map Prod.fst).Nodup := (hperm.map Prod.fst).nodup_iff.mp h
  ext value
  rw [lookup_eq_some_iff_mem h, lookup_eq_some_iff_mem hm, hperm.mem_iff]

/-- Where the slot is does not count. -/
theorem put_perm_cons_filter (h : (l.map Prod.fst).Nodup) (key : α) (value : β) :
    (put key value l).Perm ((key, value) :: l.filter fun p => !(p.1 == key)) := by
  induction l with
  | nil => exact .refl _
  | cons p rest ih =>
      obtain ⟨k, v⟩ := p
      obtain ⟨hk, hrest⟩ := List.nodup_cons.mp h
      rw [put]
      by_cases hkey : (k == key) = true
      · have heq : k = key := eq_of_beq hkey
        have hother : rest.filter (fun p => !(p.1 == key)) = rest := by
          refine List.filter_eq_self.mpr fun p hp => ?_
          have hne : p.1 ≠ key := by
            intro he
            exact hk (List.mem_map.mpr ⟨p, hp, he.trans heq.symm⟩)
          simpa using hne
        rw [if_pos hkey, List.filter_cons_of_neg (by simp [hkey]), hother, heq]
      · rw [if_neg hkey, List.filter_cons_of_pos (by simpa using hkey)]
        exact ((ih hrest).cons (k, v)).trans (.swap ..)

theorem put_perm_put (hperm : l.Perm m) (h : (l.map Prod.fst).Nodup) (key : α) (value : β) :
    (put key value l).Perm (put key value m) := by
  have hm : (m.map Prod.fst).Nodup := (hperm.map Prod.fst).nodup_iff.mp h
  exact (put_perm_cons_filter h key value).trans
    (((hperm.filter _).cons _).trans (put_perm_cons_filter hm key value).symm)

end Perm

end DocComment.Table
