import Mathlib.Data.List.Forall2

/-!
Lists that can be told from what is made of them, and read back from it. A list without what comes
again holds each element once, where it first comes.
-/

namespace DocComment

variable {α β γ : Type}

/-- What stands before a separator is known from the whole, if it does not hold the separator. -/
theorem append_cons_inj {a : α} {l m r s : List α} (hl : a ∉ l) (hm : a ∉ m)
    (h : l ++ a :: r = m ++ a :: s) : l = m ∧ r = s := by
  induction l generalizing m with
  | nil =>
      cases m with
      | nil => exact ⟨rfl, List.tail_eq_of_cons_eq h⟩
      | cons b m =>
          have hab : a = b := List.head_eq_of_cons_eq h
          exact absurd (hab ▸ List.mem_cons_self ..) hm
  | cons b l ih =>
      cases m with
      | nil =>
          have hba : b = a := List.head_eq_of_cons_eq h
          exact absurd (hba ▸ List.mem_cons_self ..) hl
      | cons c m =>
          have hbc : b = c := List.head_eq_of_cons_eq h
          obtain ⟨hlm, hrs⟩ := ih (fun ha => hl (List.mem_cons_of_mem b ha))
            (fun ha => hm (List.mem_cons_of_mem c ha)) (List.tail_eq_of_cons_eq h)
          exact ⟨by rw [hbc, hlm], hrs⟩

/-- So is what stands behind the last separator. -/
theorem append_cons_inj_right {a : α} {l m r s : List α} (hr : a ∉ r) (hs : a ∉ s)
    (h : l ++ a :: r = m ++ a :: s) : l = m ∧ r = s := by
  have hreverse : r.reverse ++ a :: l.reverse = s.reverse ++ a :: m.reverse := by
    simpa using congrArg List.reverse h
  obtain ⟨hrs, hlm⟩ := append_cons_inj (by simpa using hr) (by simpa using hs) hreverse
  exact ⟨List.reverse_injective hlm, List.reverse_injective hrs⟩

theorem forall₂_of_map_eq {R : α → β → Prop} {f : α → γ} {g : β → γ} {xs : List α} {ys : List β}
    (hR : ∀ x ∈ xs, ∀ y ∈ ys, f x = g y → R x y) (h : xs.map f = ys.map g) :
    List.Forall₂ R xs ys := by
  induction xs generalizing ys with
  | nil =>
      rw [List.map_eq_nil_iff.mp h.symm]
      exact .nil
  | cons x xs ih =>
      cases ys with
      | nil => cases h
      | cons y ys =>
          have hxy := hR x (List.mem_cons_self ..) y (List.mem_cons_self ..)
            (List.head_eq_of_cons_eq h)
          exact .cons hxy (ih (fun x' hx y' hy => hR x' (List.mem_cons_of_mem x hx) y'
            (List.mem_cons_of_mem y hy)) (List.tail_eq_of_cons_eq h))

theorem eq_of_map_eq {f : α → γ} {xs ys : List α}
    (hf : ∀ x ∈ xs, ∀ y ∈ ys, f x = f y → x = y) (h : xs.map f = ys.map f) : xs = ys := by
  have hforall := forall₂_of_map_eq (R := Eq) hf h
  rwa [List.forall₂_eq_eq_eq] at hforall

theorem mapM_map_eq_some {read : β → Option α} {write : α → β} {xs : List α}
    (h : ∀ x ∈ xs, read (write x) = some x) : (xs.map write).mapM read = some xs := by
  induction xs with
  | nil => rfl
  | cons x xs ih =>
      have hx := h x (List.mem_cons_self ..)
      have hxs := ih fun y hy => h y (List.mem_cons_of_mem x hy)
      rw [List.map_cons, List.mapM_cons, hx, hxs]
      rfl

/-- An element that comes again adds nothing, a new one comes last. -/
theorem eraseDups_concat [BEq α] [LawfulBEq α] (l : List α) (a : α) :
    (l ++ [a]).eraseDups = if a ∈ l then l.eraseDups else l.eraseDups ++ [a] := by
  rw [List.eraseDups_append]
  split
  · next h =>
      have hagain : [a].removeAll l = [] := by simp [List.removeAll, h]
      rw [hagain, List.eraseDups_nil, List.append_nil]
  · next h =>
      have hnew : [a].removeAll l = [a] := by simp [List.removeAll, h]
      rw [hnew, List.eraseDups_cons, List.filter_nil, List.eraseDups_nil]

end DocComment
