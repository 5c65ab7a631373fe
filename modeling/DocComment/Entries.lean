import DocComment.Table
import DocComment.Text.Basic

/-!
Named descriptions in the order in which the names first came.
-/

namespace DocComment

/-- Descriptions by name. A name has one slot, which it keeps when its description is replaced. -/
structure Entries where
  toList : List (Text × Text) := []
  nodup_keys : (toList.map Prod.fst).Nodup := by simp
deriving DecidableEq

namespace Entries

instance : EmptyCollection Entries := ⟨{}⟩

instance : Inhabited Entries := ⟨∅⟩

def keys (e : Entries) : List Text :=
  e.toList.map Prod.fst

def get? (e : Entries) (name : Text) : Option Text :=
  e.toList.lookup name

def size (e : Entries) : Nat :=
  e.toList.length

def isEmpty (e : Entries) : Bool :=
  e.toList.isEmpty

def insert (e : Entries) (name description : Text) : Entries where
  toList := Table.put name description e.toList
  nodup_keys := Table.nodup_map_fst_put e.nodup_keys name description

/-- Inserts the pairs one by one, so that of two pairs with one name the later one counts. -/
def ofList (pairs : List (Text × Text)) : Entries :=
  pairs.foldl (fun e p => e.insert p.1 p.2) ∅

theorem eq_of_toList_eq {e e' : Entries} (h : e.toList = e'.toList) : e = e' := by
  cases e
  cases e'
  cases h
  rfl

theorem keys_insert (e : Entries) (name description : Text) :
    (e.insert name description).keys =
      if name ∈ e.keys then e.keys else e.keys ++ [name] :=
  Table.map_fst_put name description e.toList

theorem get?_insert (e : Entries) (name description n : Text) :
    (e.insert name description).get? n = if n = name then some description else e.get? n := by
  simp [get?, insert, Table.lookup_put]

theorem toList_foldl_insert {pairs : List (Text × Text)} (e : Entries)
    (h : ((e.toList ++ pairs).map Prod.fst).Nodup) :
    (pairs.foldl (fun e p => e.insert p.1 p.2) e).toList = e.toList ++ pairs := by
  induction pairs generalizing e with
  | nil => rw [List.foldl_nil, List.append_nil]
  | cons p pairs ih =>
    have hp : p.1 ∉ e.toList.map Prod.fst := by
      rw [List.map_append, List.nodup_append] at h
      exact fun hmem => h.2.2 p.1 hmem p.1 (List.mem_cons_self ..) rfl
    have hinsert : (e.insert p.1 p.2).toList = e.toList ++ [p] := Table.put_of_not_mem hp p.2
    rw [List.append_cons, ← hinsert] at h
    rw [List.foldl_cons, ih _ h, hinsert, List.append_assoc, List.singleton_append]

/-- Pairs with different names come in as they are. -/
theorem ofList_toList (e : Entries) : ofList e.toList = e :=
  eq_of_toList_eq (toList_foldl_insert ∅ e.nodup_keys)

end Entries

end DocComment
