import DocComment.Entries
import DocComment.Proofs.Lists
import Mathlib.Data.Finset.Card
import Mathlib.Data.List.Induction

/-!
Entries as what comes of the insertions that built them. The names stand in the order in which they
first came, each has the description that came last, and there is nothing else to them.
-/

namespace DocComment.Entries

variable {pairs : List (Text × Text)} {e e' : Entries}

/-- The pairs have gone into the entries one after the other, or at once up to some point. -/
inductive BuiltFrom : List (Text × Text) → Entries → Prop
  | new : BuiltFrom [] ∅
  | collected (pairs : List (Text × Text)) : BuiltFrom pairs (ofList pairs)
  | insert {pairs : List (Text × Text)} {e : Entries} (name description : Text) :
      BuiltFrom pairs e → BuiltFrom (pairs ++ [(name, description)]) (e.insert name description)

theorem ofList_concat (pairs : List (Text × Text)) (name description : Text) :
    ofList (pairs ++ [(name, description)]) = (ofList pairs).insert name description := by
  rw [ofList, List.foldl_append]
  rfl

theorem BuiltFrom.eq_ofList (h : BuiltFrom pairs e) : e = ofList pairs := by
  induction h with
  | new => rfl
  | collected pairs => rfl
  | insert name description h ih => rw [ofList_concat, ih]

theorem keys_ofList (pairs : List (Text × Text)) :
    (ofList pairs).keys = (pairs.map Prod.fst).eraseDups := by
  induction pairs using List.reverseRecOn with
  | nil => rfl
  | append_singleton pairs p ih =>
      rw [ofList_concat, keys_insert, ih, List.map_append, List.map_singleton, eraseDups_concat]
      simp only [List.mem_eraseDups]

theorem get?_ofList (pairs : List (Text × Text)) (n : Text) :
    (ofList pairs).get? n = (pairs.filter fun p => p.1 = n).getLast?.map Prod.snd := by
  induction pairs using List.reverseRecOn with
  | nil => rfl
  | append_singleton pairs p ih =>
      rw [ofList_concat, get?_insert, List.filter_append]
      by_cases h : p.1 = n
      · have hlast : [p].filter (fun p => p.1 = n) = [p] := by simp [h]
        rw [if_pos h.symm, hlast, List.getLast?_concat, Option.map_some]
      · have hnone : [p].filter (fun p => p.1 = n) = [] := by simp [h]
        rw [if_neg fun hn => h hn.symm, hnone, List.append_nil, ih]

theorem length_keys (e : Entries) : e.keys.length = e.size := List.length_map _

/-- The names with what is found under them are all that is there. -/
theorem toList_eq_map_keys (e : Entries) :
    e.toList = e.keys.map fun k => (k, (e.get? k).getD []) := by
  have hfound : ∀ p ∈ e.toList, (p.1, (e.get? p.1).getD []) = p := by
    intro p hp
    have hlookup : e.get? p.1 = some p.2 :=
      (Table.lookup_eq_some_iff_mem e.nodup_keys).mpr hp
    rw [hlookup, Option.getD_some]
  rw [keys, List.map_map]
  exact ((List.map_congr_left hfound).trans (List.map_id _)).symm

theorem eq_iff : e = e' ↔ e.keys = e'.keys ∧ ∀ n, e.get? n = e'.get? n := by
  constructor
  · rintro rfl
    exact ⟨rfl, fun _ => rfl⟩
  · rintro ⟨hkeys, hget⟩
    apply eq_of_toList_eq
    rw [toList_eq_map_keys e, toList_eq_map_keys e', hkeys]
    simp only [hget]

theorem size_ofList (pairs : List (Text × Text)) :
    (ofList pairs).size = (pairs.map Prod.fst).toFinset.card := by
  have hnames : (ofList pairs).keys.toFinset = (pairs.map Prod.fst).toFinset := by
    ext n
    rw [List.mem_toFinset, List.mem_toFinset, keys_ofList, List.mem_eraseDups]
  have hnodup : (ofList pairs).keys.Nodup := (ofList pairs).nodup_keys
  rw [← length_keys, ← hnames, List.toFinset_card_of_nodup hnodup]

/-- However entries are built, they are the map of the pairs in the order in which its names came,
and no two maps have the same names in the same order and the same look-ups. -/
theorem BuiltFrom.isOrderedMap (h : BuiltFrom pairs e) :
    e.keys = (pairs.map Prod.fst).eraseDups ∧ e.keys.Nodup ∧
      (∀ n, e.get? n = (pairs.filter fun p => p.1 = n).getLast?.map Prod.snd) ∧
      e.size = (pairs.map Prod.fst).toFinset.card ∧ ofList e.toList = e ∧
      ∀ e' : Entries, e = e' ↔ e.keys = e'.keys ∧ ∀ n, e.get? n = e'.get? n := by
  obtain rfl := h.eq_ofList
  refine ⟨keys_ofList pairs, (ofList pairs).nodup_keys, get?_ofList pairs, size_ofList pairs,
    ofList_toList _, ?_⟩
  intro e'
  exact eq_iff

/-- A name that comes again keeps its place and takes the new description. -/
theorem BuiltFrom.isOrderedMap_again :
    let pairs := [(['a'], ['1']), (['b'], ['2']), (['a'], ['3']), (['c'], [])]
    let e := ((ofList [(['a'], ['1']), (['b'], ['2'])]).insert ['a'] ['3']).insert ['c'] []
    BuiltFrom pairs e ∧ e.keys = (pairs.map Prod.fst).eraseDups ∧
      e.keys = [['a'], ['b'], ['c']] ∧ e.get? ['a'] = some ['3'] ∧ e.size = 3 := by
  intro pairs e
  have h : BuiltFrom pairs e :=
    .insert ['c'] [] (.insert ['a'] ['3'] (.collected [(['a'], ['1']), (['b'], ['2'])]))
  obtain ⟨hkeys, -, hget, hsize, -⟩ := h.isOrderedMap
  exact ⟨h, hkeys, by rw [hkeys]; decide, by rw [hget]; decide, by rw [hsize]; decide⟩

end DocComment.Entries
