import DocComment.Json.Value
import DocComment.Proofs.Json.Reader
import DocComment.Proofs.Lists

/-!
Written JSON is JSON. What the printer writes at any depth spells the value that it was given,
with its layout in the gaps of the grammar, so two values are never written alike.
-/

namespace DocComment.Json

/-- Values by their containers: a statement about all of them may assume it of what they hold. -/
theorem induction {P : Json → Prop} (null : P .null) (number : ∀ n, P (.number n))
    (text : ∀ t, P (.text t)) (array : ∀ items, (∀ v ∈ items, P v) → P (.array items))
    (object : ∀ members, (∀ m ∈ members, P m.2) → P (.object members)) : ∀ v, P v
  | .null => null
  | .number n => number n
  | .text t => text t
  | .array items => array items fun v _ => induction null number text array object v
  | .object members => object members fun m _ => induction null number text array object m.2
termination_by v => sizeOf v
decreasing_by
  · rename_i h
    have := List.sizeOf_lt_of_mem h
    simp only [Json.array.sizeOf_spec]
    omega
  · rename_i h
    have hm := List.sizeOf_lt_of_mem h
    obtain ⟨name, v⟩ := m
    simp only [Json.object.sizeOf_spec, Prod.mk.sizeOf_spec] at hm ⊢
    omega

mutual

/-- The value as it can be read. -/
def tree : Json → Tree
  | null => .null
  | number n => .number (Nat.toDigits 10 n)
  | text t => .text t
  | array items => .array (treeItems items)
  | object members => .object (treeMembers members)

def treeItems : List Json → List Tree
  | [] => []
  | item :: rest => tree item :: treeItems rest

def treeMembers : List (Text × Json) → List (Text × Tree)
  | [] => []
  | (name, value) :: rest => (name, tree value) :: treeMembers rest

end

theorem treeItems_eq_map (items : List Json) : treeItems items = items.map tree := by
  induction items with
  | nil => rfl
  | cons item items ih => rw [treeItems, ih, List.map_cons]

theorem treeMembers_eq_map (members : List (Text × Json)) :
    treeMembers members = members.map fun m => (m.1, m.2.tree) := by
  induction members with
  | nil => rfl
  | cons m members ih => rw [treeMembers, ih, List.map_cons]

theorem prettyItems_eq_map (depth : Nat) (items : List Json) :
    prettyItems depth items = items.map (pretty depth) := by
  induction items with
  | nil => rfl
  | cons item items ih => rw [prettyItems, ih, List.map_cons]

/-- A member without the indentation in front of it. -/
def prettyMember (depth : Nat) (m : Text × Json) : Text :=
  string m.1 ++ ": ".toList ++ m.2.pretty depth

theorem prettyMembers_eq_map (depth : Nat) (members : List (Text × Json)) :
    prettyMembers depth members = members.map (prettyMember depth) := by
  induction members with
  | nil => rfl
  | cons m members ih => rw [prettyMembers, ih, List.map_cons, prettyMember]

theorem tree_array (items : List Json) : tree (.array items) = .array (items.map tree) := by
  rw [tree, treeItems_eq_map]

theorem tree_object (members : List (Text × Json)) :
    tree (.object members) = .object (members.map fun m => (m.1, m.2.tree)) := by
  rw [tree, treeMembers_eq_map]

/-! Characters and numbers. -/

theorem codeUnit?_digitChar {n : Nat} (hn : n < 32) :
    codeUnit? '0' '0' (Nat.digitChar (n / 16)) (Nat.digitChar (n % 16)) = some n := by
  revert n
  decide

theorem spellsChar_escapeChar (c : Char) : SpellsChar c (escapeChar c) := by
  unfold escapeChar
  iterate 7
    split
    · next h => rw [h]; exact .letter (by decide)
  split
  · next h =>
      have hunit := SpellsChar.unit (codeUnit?_digitChar h) (by simp [isHighSurrogate]; omega)
        (by simp [isLowSurrogate]; omega)
      rwa [Char.ofNat_toNat] at hunit
  · next hquote hslash _ _ _ _ _ h => exact .plain (by omega) hquote hslash

theorem spellsText_flatMap (t : Text) : SpellsText t (t.flatMap escapeChar) := by
  induction t with
  | nil => exact .nil
  | cons c t ih => exact .cons (spellsChar_escapeChar c) ih

/-- Only the number zero is written with a zero in front. -/
theorem head?_toDigits {n : Nat} (hn : 0 < n) : (Nat.toDigits 10 n).head? ≠ some '0' := by
  induction n using Nat.strong_induction_on with
  | _ n ih =>
      rw [Nat.toDigits_eq_if (by decide)]
      split
      · next h =>
          have hdigit : ∀ m < 10, 0 < m → [Nat.digitChar m].head? ≠ some '0' := by decide
          exact hdigit n h hn
      · have hrest := ih (n / 10) (by omega) (by omega)
        rwa [List.head?_append_of_ne_nil _ Nat.toDigits_ne_nil]

theorem isInteger_toDigits (n : Nat) : isInteger (Nat.toDigits 10 n) = true := by
  have hdigits : isDigits (Nat.toDigits 10 n) = true := by
    rw [isDigits, Bool.and_eq_true, List.all_eq_true]
    exact ⟨by simp, fun c hc => Nat.isDigit_of_mem_toDigits (by decide) (by decide) hc⟩
  rw [isInteger, hdigits, Bool.true_and, Bool.or_eq_true, decide_eq_true_eq, decide_eq_true_eq]
  rcases Nat.eq_zero_or_pos n with rfl | hn
  · exact .inl (Nat.toDigits_zero 10)
  · exact .inr (head?_toDigits hn)

theorem isNumber_toDigits (n : Nat) : isNumber (Nat.toDigits 10 n) = true := by
  have hdigit : ∀ c ∈ Nat.toDigits 10 n, c.isDigit = true :=
    fun c hc => Nat.isDigit_of_mem_toDigits (by decide) (by decide) hc
  have hunsigned : unsigned ['-'] (Nat.toDigits 10 n) = Nat.toDigits 10 n := by
    obtain ⟨c, t, ht⟩ := List.exists_cons_of_ne_nil (Nat.toDigits_ne_nil (n := n) (b := 10))
    have hc := hdigit c (ht ▸ List.mem_cons_self ..)
    have hminus : c ∉ ['-'] := by
      intro h
      rw [List.mem_singleton.mp h] at hc
      cases hc
    rw [ht, unsigned, if_neg hminus]
  rw [isNumber, hunsigned, List.takeWhile_eq_self_iff.mpr hdigit,
    List.dropWhile_eq_nil_iff.mpr hdigit, isInteger_toDigits]
  rfl

/-! Layout. -/

theorem isGap_indentation (depth : Nat) : IsGap (indentation depth) := by
  intro c hc
  rw [List.eq_of_mem_replicate hc]
  rfl

theorem isGap_line (depth : Nat) : IsGap ('\n' :: indentation depth) := by
  intro c hc
  rcases List.mem_cons.mp hc with rfl | hc
  · rfl
  · exact isGap_indentation depth c hc

section Layout

variable {α β : Type} {spells : β → Text → Prop} {write : α → Text} {value : α → β}

/-- The lines of a container are its elements, with line feeds and indentations in the gaps. -/
theorem spellsList_lines {xs : List α} (hne : xs ≠ [])
    (hxs : ∀ x ∈ xs, spells (value x) (write x)) (inner outer : Nat) :
    SpellsList spells (xs.map value) ('\n' :: ",\n".toList.intercalate
      (xs.map fun x => indentation inner ++ write x) ++ '\n' :: indentation outer) := by
  induction xs with
  | nil => exact absurd rfl hne
  | cons x xs ih =>
      have hx := hxs x (List.mem_cons_self ..)
      cases xs with
      | nil =>
          have hlast := SpellsList.last (isGap_line inner) hx (isGap_line outer)
          simpa using hlast
      | cons y ys =>
          have hrest := ih (List.cons_ne_nil y ys) fun z hz => hxs z (List.mem_cons_of_mem x hz)
          have hmore := SpellsList.more (isGap_line inner) hx (w := []) nofun hrest
          simpa [List.intercalate_cons_cons] using hmore

theorem block_eq {items : List α} (hne : items ≠ []) (opener closer : Char) (depth : Nat) :
    block opener closer depth (items.map write) =
      opener :: (('\n' :: ",\n".toList.intercalate
        (items.map fun x => indentation (depth + 1) ++ write x) ++ '\n' :: indentation depth)
          ++ [closer]) := by
  have hempty : (items.map write).isEmpty = false := by simpa using hne
  rw [block, hempty, List.map_map]
  simp [Function.comp_def]

end Layout

theorem spellsMember_prettyMember {depth : Nat} {m : Text × Json}
    (hm : Spells m.2.tree (m.2.pretty depth)) :
    SpellsMember Spells (m.1, m.2.tree) (prettyMember depth m) := by
  have hmember := SpellsMember.mk (spellsText_flatMap m.1) (v := []) (w := [' ']) nofun
    (fun c hc => by rw [List.mem_singleton.mp hc]; rfl) hm
  simpa [prettyMember, string] using hmember

theorem spells_pretty (v : Json) : ∀ depth, Spells v.tree (v.pretty depth) := by
  induction v using Json.induction with
  | null => exact fun _ => .null
  | number n => exact fun _ => .number (isNumber_toDigits n)
  | text t => exact fun _ => .text (spellsText_flatMap t)
  | array items ih =>
      intro depth
      rw [tree_array, pretty, prettyItems_eq_map]
      by_cases hne : items = []
      · subst hne
        exact .emptyArray (w := []) nofun
      · rw [block_eq hne]
        exact .array (spellsList_lines hne (fun v hv => ih v hv (depth + 1)) (depth + 1) depth)
  | object members ih =>
      intro depth
      rw [tree_object, pretty, prettyMembers_eq_map]
      by_cases hne : members = []
      · subst hne
        exact .emptyObject (w := []) nofun
      · rw [block_eq hne]
        exact .object (spellsList_lines hne
          (fun m hm => spellsMember_prettyMember (ih m hm (depth + 1))) (depth + 1) depth)

/-! Values can be told from what is read. -/

theorem toDigits_inj {m n : Nat} (h : Nat.toDigits 10 m = Nat.toDigits 10 n) : m = n := by
  rw [← Nat.ofDigitChars_ten_toDigits (n := m), h, Nat.ofDigitChars_ten_toDigits]

theorem tree_inj (v : Json) : ∀ w : Json, v.tree = w.tree → v = w := by
  induction v using Json.induction with
  | null =>
      intro w h
      cases w <;> simp_all [tree]
  | number m =>
      intro w h
      cases w with
      | number n =>
          rw [tree, tree, Tree.number.injEq] at h
          rw [toDigits_inj h]
      | _ => simp [tree] at h
  | text t =>
      intro w h
      cases w <;> simp_all [tree]
  | array items ih =>
      intro w h
      cases w with
      | array items' =>
          rw [tree_array, tree_array, Tree.array.injEq] at h
          rw [eq_of_map_eq (fun v hv w _ => ih v hv w) h]
      | _ => simp [tree] at h
  | object members ih =>
      intro w h
      cases w with
      | object members' =>
          rw [tree_object, tree_object, Tree.object.injEq] at h
          have hmember : ∀ m ∈ members, ∀ n ∈ members',
              (m.1, m.2.tree) = (n.1, n.2.tree) → m = n := by
            intro m hm n _ hmn
            obtain ⟨hname, hvalue⟩ := Prod.mk.injEq .. ▸ hmn
            exact Prod.ext hname (ih m hm n.2 hvalue)
          rw [eq_of_map_eq hmember h]
      | _ => simp [tree] at h

theorem pretty_inj {v w : Json} {depth : Nat} (h : v.pretty depth = w.pretty depth) : v = w :=
  tree_inj v w ((h ▸ spells_pretty v depth).unique (spells_pretty w depth))

end DocComment.Json
