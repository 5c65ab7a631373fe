import DocComment.Command.Inputs
import DocComment.Proofs.Path
import Mathlib.Data.List.Pairwise
import Mathlib.Data.List.Sort

/-!
The paths that a run reads. They come in the order of paths, no two of them are the same, and each
candidate is among them, in the spelling in which it comes first. This determines them, so that it
can be read off which candidates two runs have to share.
-/

namespace DocComment

section Repetitions

variable {α : Type} {r le : α → α → Bool}

theorem eraseRepsBy_loop (a : α) (l acc : List α) :
    List.eraseRepsBy.loop r a l acc = acc.reverse ++ List.eraseRepsBy.loop r a l [] := by
  induction l generalizing a acc with
  | nil => simp [List.eraseRepsBy.loop]
  | cons b l ih =>
      rw [List.eraseRepsBy.loop, List.eraseRepsBy.loop]
      split
      · exact ih a acc
      · rw [ih b (a :: acc), ih b [a], List.reverse_cons, List.append_assoc, List.reverse_singleton]

theorem eraseRepsBy_cons_cons (a b : α) (l : List α) :
    (a :: b :: l).eraseRepsBy r =
      if r a b then (a :: l).eraseRepsBy r else a :: (b :: l).eraseRepsBy r := by
  rw [List.eraseRepsBy, List.eraseRepsBy.loop]
  cases r a b with
  | true => rfl
  | false => exact eraseRepsBy_loop b l [a]

theorem head_mem_eraseRepsBy (a : α) (l : List α) : a ∈ (a :: l).eraseRepsBy r := by
  induction l with
  | nil => exact List.mem_singleton_self a
  | cons b l ih =>
      rw [eraseRepsBy_cons_cons]
      split
      · exact ih
      · exact List.mem_cons_self ..

theorem eraseRepsBy_sublist (l : List α) : (l.eraseRepsBy r).Sublist l := by
  cases l with
  | nil => exact .slnil
  | cons a l =>
      induction l generalizing a with
      | nil => exact List.Sublist.refl [a]
      | cons b l ih =>
          rw [eraseRepsBy_cons_cons]
          split
          · exact (ih a).trans ((List.sublist_cons_self b l).cons_cons a)
          · exact (ih b).cons_cons a

/-- Every element is represented by the first one of its run. -/
theorem exists_mem_eraseRepsBy (hrefl : ∀ a, r a a = true) {a : α} {l : List α} (ha : a ∈ l) :
    ∃ b ∈ l.eraseRepsBy r, r b a = true := by
  cases l with
  | nil => cases ha
  | cons first l =>
      induction l generalizing first with
      | nil =>
          rw [List.mem_singleton.mp ha]
          exact ⟨first, List.mem_singleton_self first, hrefl first⟩
      | cons next l ih =>
          rw [eraseRepsBy_cons_cons]
          split
          · next hnext =>
              rcases List.mem_cons.mp ha with rfl | ha
              · exact ih a (List.mem_cons_self ..)
              · rcases List.mem_cons.mp ha with rfl | ha
                · exact ⟨first, head_mem_eraseRepsBy first l, hnext⟩
                · exact ih first (List.mem_cons_of_mem first ha)
          · rcases List.mem_cons.mp ha with rfl | ha
            · exact ⟨a, List.mem_cons_self .., hrefl a⟩
            · obtain ⟨b, hb, hba⟩ := ih next ha
              exact ⟨b, List.mem_cons_of_mem first hb, hba⟩

/-- In a sorted list equal elements stand side by side, so that no two are left. -/
theorem pairwise_eraseRepsBy (hbetween : ∀ {a b c}, le a b = true → le b c = true →
      r a c = true → r a b = true) {l : List α} (hl : l.Pairwise fun a b => le a b = true) :
    (l.eraseRepsBy r).Pairwise fun a b => r a b = false := by
  cases l with
  | nil => exact .nil
  | cons a l =>
      induction l generalizing a with
      | nil => exact List.pairwise_singleton ..
      | cons b l ih =>
          obtain ⟨ha, hbl⟩ := List.pairwise_cons.mp hl
          rw [eraseRepsBy_cons_cons]
          split
          · exact ih a (hl.sublist ((List.sublist_cons_self b l).cons_cons a))
          · next hab =>
              refine List.pairwise_cons.mpr ⟨?_, ih b hbl⟩
              intro c hc
              refine eq_false_of_ne_true fun hac => hab ?_
              rcases List.mem_cons.mp ((eraseRepsBy_sublist _).subset hc) with rfl | hc
              · exact hac
              · have hbc := (List.pairwise_cons.mp hbl).1 c hc
                exact hbetween (ha b (List.mem_cons_self ..)) hbc hac

/-- The first of the elements that are the same as `p` is the one that is left. -/
theorem mem_eraseRepsBy_iff (hrefl : ∀ a, r a a = true)
    (hsame : ∀ {a b p}, r a b = true → r p a = r p b)
    (hbetween : ∀ {a b c}, le a b = true → le b c = true → r a c = true → r a b = true)
    {l : List α} (hl : l.Pairwise fun a b => le a b = true) {p : α} :
    p ∈ l.eraseRepsBy r ↔ l.find? (r p) = some p := by
  cases l with
  | nil => exact ⟨nofun, nofun⟩
  | cons a l =>
      induction l generalizing a with
      | nil =>
          rw [List.find?_singleton]
          constructor
          · intro h
            rw [List.mem_singleton.mp h, if_pos (hrefl a)]
          · intro h
            rw [← Option.mem_def, Option.mem_ite_none_right, Option.mem_some_iff] at h
            exact List.mem_singleton.mpr h.2.symm
      | cons b l ih =>
          obtain ⟨ha, hbl⟩ := List.pairwise_cons.mp hl
          rw [eraseRepsBy_cons_cons]
          split
          · next hab =>
              rw [ih a (hl.sublist ((List.sublist_cons_self b l).cons_cons a)), List.find?_cons,
                List.find?_cons, List.find?_cons, hsame hab]
              cases r p b <;> rfl
          · next hab =>
              have hfirst (hp : (b :: l).find? (r p) = some p) : r p a = false := by
                refine eq_false_of_ne_true fun hpa => hab ?_
                have hap : r a p = true := by rw [hsame hpa, hrefl]
                rcases List.mem_cons.mp (List.mem_of_find?_eq_some hp) with rfl | hmem
                · exact hap
                · exact hbetween (ha b (List.mem_cons_self ..))
                    ((List.pairwise_cons.mp hbl).1 p hmem) hap
              rw [List.mem_cons, ih b hbl, List.find?_cons_eq_some (a := a), Bool.not_eq_true']
              constructor
              · rintro (rfl | hp)
                · exact .inl ⟨hrefl p, rfl⟩
                · exact .inr ⟨hfirst hp, hp⟩
              · rintro (⟨-, rfl⟩ | ⟨-, hp⟩)
                · exact .inl rfl
                · exact .inr hp

end Repetitions

namespace Inputs

variable {paths : List Text} {p : Text}

theorem pairwise_mergeSort_le (paths : List Text) :
    (paths.mergeSort Path.le).Pairwise fun p q => Path.le p q = true := by
  refine List.pairwise_mergeSort ?_ Path.le_total paths
  intro p q s hpq hqs
  exact Path.le_trans hpq hqs

theorem mem_of_mem_sortedOnce (h : p ∈ sortedOnce paths) : p ∈ paths :=
  List.mem_mergeSort.mp ((eraseRepsBy_sublist _).subset h)

theorem exists_mem_sortedOnce (h : p ∈ paths) : ∃ q ∈ sortedOnce paths, Path.same q p = true :=
  exists_mem_eraseRepsBy Path.same_refl (List.mem_mergeSort.mpr h)

theorem pairwise_sortedOnce (paths : List Text) :
    (sortedOnce paths).Pairwise fun p q => Path.le p q = true ∧ Path.same p q = false := by
  have hsorted := pairwise_mergeSort_le paths
  refine (hsorted.sublist (eraseRepsBy_sublist _)).and (pairwise_eraseRepsBy ?_ hsorted)
  intro p q s hpq hqs hps
  exact Path.same_of_le_of_le hpq (Path.le_trans hqs (Path.le_of_same hps))

/-- Sorting leaves paths that are the same in the order in which they come. -/
theorem find?_mergeSort (paths : List Text) (p : Text) :
    (paths.mergeSort Path.le).find? (Path.same p) = paths.find? (Path.same p) := by
  have hsame : (paths.filter (Path.same p)).Pairwise fun q s => Path.le q s = true := by
    refine List.pairwise_filter.mpr (List.pairwise_of_forall ?_)
    intro q s hq hs
    exact Path.le_of_same (Path.same_congr_right hq ▸ Path.same_symm hs)
  have htrans : ∀ q s t, Path.le q s = true → Path.le s t = true → Path.le q t = true :=
    fun _ _ _ hqs hst => Path.le_trans hqs hst
  have hkept : (paths.filter (Path.same p)).Sublist (paths.mergeSort Path.le) :=
    List.sublist_mergeSort htrans Path.le_total hsame List.filter_sublist
  have hsub : (paths.filter (Path.same p)).Sublist
      ((paths.mergeSort Path.le).filter (Path.same p)) := by
    simpa only [List.filter_filter, Bool.and_self] using hkept.filter (Path.same p)
  have hlength : (paths.filter (Path.same p)).length =
      ((paths.mergeSort Path.le).filter (Path.same p)).length :=
    ((List.mergeSort_perm paths Path.le).filter _).length_eq.symm
  rw [← List.head?_filter, ← List.head?_filter, hsub.eq_of_length hlength]

/-- A candidate is left if no candidate before it is the same. -/
theorem mem_sortedOnce_iff : p ∈ sortedOnce paths ↔ paths.find? (Path.same p) = some p := by
  rw [sortedOnce, mem_eraseRepsBy_iff Path.same_refl Path.same_congr_right ?_
    (pairwise_mergeSort_le paths), find?_mergeSort]
  intro q s t hqs hst hqt
  exact Path.same_of_le_of_le hqs (Path.le_trans hst (Path.le_of_same hqt))

/-- The order and the choice of spellings determine the paths. -/
theorem eq_of_pairwise {ps qs : List Text}
    (hps : ps.Pairwise fun p q => Path.le p q = true ∧ Path.same p q = false)
    (hqs : qs.Pairwise fun p q => Path.le p q = true ∧ Path.same p q = false)
    (h : ∀ p, p ∈ ps ↔ p ∈ qs) : ps = qs := by
  have : Std.Irrefl fun p q => Path.le p q = true ∧ Path.same p q = false := by
    refine ⟨fun p hp => ?_⟩
    rw [Path.same_refl] at hp
    cases hp.2
  have : Std.Antisymm fun p q => Path.le p q = true ∧ Path.same p q = false := by
    refine ⟨fun p q hpq hqp => ?_⟩
    rw [Path.same_of_le_of_le hpq.1 hqp.1] at hpq
    cases hpq.2
  exact hps.eq_of_mem_iff hqs h

/-- Of candidates that are spelled alike where they are the same, each one is left. -/
theorem mem_sortedOnce_iff_mem
    (hspelled : ∀ p ∈ paths, ∀ q ∈ paths, Path.same p q = true → p = q) :
    p ∈ sortedOnce paths ↔ p ∈ paths := by
  refine ⟨mem_of_mem_sortedOnce, ?_⟩
  intro hp
  obtain ⟨q, hq, hqp⟩ := exists_mem_sortedOnce hp
  rwa [← hspelled q (mem_of_mem_sortedOnce hq) p hp hqp]

/-- Candidates that come in order, no two of them the same, stay what they are. -/
theorem sortedOnce_eq_self
    (h : paths.Pairwise fun p q => Path.le p q = true ∧ Path.same p q = false) :
    sortedOnce paths = paths := by
  refine eq_of_pairwise (pairwise_sortedOnce paths) h ?_
  intro p
  refine mem_sortedOnce_iff_mem ?_
  intro p hp q hq hsame
  have : Std.Symm fun p q => Path.same p q = false := by
    refine ⟨fun p q hpq => eq_false_of_ne_true fun hqp => ?_⟩
    rw [Path.same_symm hqp] at hpq
    cases hpq
  by_contra hne
  rw [(h.imp And.right).forall hp hq hne] at hsame
  cases hsame

/-- How often and in which order candidates come does not count, if those that are the same are
spelled alike. -/
theorem sortedOnce_eq_of_mem_iff {ps qs : List Text} (h : ∀ p, p ∈ ps ↔ p ∈ qs)
    (hspelled : ∀ p ∈ ps, ∀ q ∈ ps, Path.same p q = true → p = q) :
    sortedOnce ps = sortedOnce qs := by
  have hspelled' : ∀ p ∈ qs, ∀ q ∈ qs, Path.same p q = true → p = q :=
    fun p hp q hq => hspelled p ((h p).mpr hp) q ((h q).mpr hq)
  refine eq_of_pairwise (pairwise_sortedOnce ps) (pairwise_sortedOnce qs) ?_
  intro p
  rw [mem_sortedOnce_iff_mem hspelled, mem_sortedOnce_iff_mem hspelled', h]

/-- Candidates can be left out before or after sorting, if none is the same as one that stays. -/
theorem filter_sortedOnce {keep : Text → Bool}
    (hkeep : ∀ p ∈ paths, ∀ q ∈ paths, Path.same p q = true → keep p = keep q) :
    (sortedOnce paths).filter keep = sortedOnce (paths.filter keep) := by
  refine eq_of_pairwise ((pairwise_sortedOnce paths).sublist List.filter_sublist)
    (pairwise_sortedOnce _) ?_
  intro p
  have hfind (hp : p ∈ paths) (hkept : keep p = true) :
      (paths.filter keep).find? (Path.same p) = paths.find? (Path.same p) := by
    rw [← List.head?_filter, ← List.head?_filter, List.filter_filter]
    congr 1
    refine List.filter_congr fun q hq => ?_
    cases hpq : Path.same p q with
    | false => rfl
    | true => rw [← hkeep p hp q hq hpq, hkept, Bool.and_true]
  rw [List.mem_filter, mem_sortedOnce_iff, mem_sortedOnce_iff]
  constructor
  · rintro ⟨hp, hkept⟩
    rwa [hfind (List.mem_of_find?_eq_some hp) hkept]
  · intro hp
    obtain ⟨hmem, hkept⟩ := List.mem_filter.mp (List.mem_of_find?_eq_some hp)
    rw [hfind hmem hkept] at hp
    exact ⟨hp, hkept⟩

end Inputs

end DocComment
