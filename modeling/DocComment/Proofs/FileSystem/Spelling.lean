import DocComment.Proofs.FileSystem.Frame
import DocComment.Proofs.Path
import DocComment.Source.Kind

/-!
Spellings of one path. Where two paths with the same components both lead somewhere, they lead to
the same place; so they stand for one file, and it is of one kind.
-/

namespace DocComment

namespace Path

variable {p q : Text}

theorem root_not_mem_filterMap (segments : List Text) :
    Component.root ∉ segments.filterMap Component.ofSegment? := by
  intro h
  obtain ⟨segment, -, hsegment⟩ := List.mem_filterMap.mp h
  rw [Component.ofSegment?] at hsegment
  split at hsegment
  · cases hsegment
  · split at hsegment <;> cases hsegment

theorem root_mem_components_iff : Component.root ∈ components p ↔ isAbsolute p = true := by
  rw [components, List.mem_append, or_iff_left (root_not_mem_filterMap _)]
  cases isAbsolute p with
  | true => exact iff_of_true (List.mem_singleton_self _) rfl
  | false =>
      refine iff_of_false ?_ Bool.false_ne_true
      split
      · next h => cases h
      · split <;> simp

theorem isAbsolute_eq_of_same (h : same p q = true) : isAbsolute p = isAbsolute q := by
  rw [Bool.eq_iff_iff, ← root_mem_components_iff, ← root_mem_components_iff, same_iff.mp h]

theorem fileName?_eq_of_same (h : same p q = true) : fileName? p = fileName? q := by
  rw [fileName?, fileName?, same_iff.mp h]

end Path

theorem Kind.ofPath?_eq_of_same {p q : Text} (h : Path.same p q = true) :
    ofPath? p = ofPath? q := by
  rw [ofPath?, ofPath?, Path.extension?, Path.extension?, Path.fileName?_eq_of_same h]

namespace FileSystem

variable {fs : FileSystem} {loc loc' start : Location} {p q path : Text} {segments : List Text}

/-- The location that a component leads to from a directory. -/
def advance (fs : FileSystem) (loc : Location) : Path.Component → Location
  | .root | .here => loc
  | .up => fs.resolve loc.dropLast
  | .name n => fs.resolve (loc ++ [n])

theorem resolve_follow (hloc : fs.resolve loc = loc) (segment : Text) :
    fs.resolve (follow loc segment) =
      ((Path.Component.ofSegment? segment).map (fs.advance loc)).getD loc := by
  rw [follow]
  cases Path.Component.ofSegment? segment with
  | none => exact hloc
  | some c =>
      cases c with
      | root | here => exact hloc
      | up | name => rfl

theorem foldl_follow (hstart : fs.resolve start = start) (segments : List Text) :
    segments.foldl (fun loc segment => fs.resolve (follow loc segment)) start =
      (segments.filterMap Path.Component.ofSegment?).foldl fs.advance start := by
  -- On the way every location is one that entries lead to, so that `.` stays there.
  induction segments generalizing start with
  | nil => rfl
  | cons segment segments ih =>
      rw [List.foldl_cons, ih (fs.resolve_resolve _), resolve_follow hstart]
      cases h : Path.Component.ofSegment? segment with
      | none => rw [List.filterMap_cons_none h, Option.map_none, Option.getD_none]
      | some c =>
          rw [List.filterMap_cons_some h, List.foldl_cons, Option.map_some, Option.getD_some]

/-- What a path starts with does not move. -/
theorem foldl_advance_components (hstart : fs.resolve start = start) (p : Text) :
    (Path.components p).foldl fs.advance start =
      (p.splitOn '/').foldl (fun loc segment => fs.resolve (follow loc segment)) start := by
  rw [Path.components, List.foldl_append, foldl_follow hstart]
  congr 1
  split
  · rfl
  · split <;> rfl

theorem eq_foldl_of_descend (h : fs.descend start segments = .ok loc) :
    loc = segments.foldl (fun loc segment => fs.resolve (follow loc segment)) start := by
  induction segments generalizing start with
  | nil => exact (directory_eq_ok_iff.mp h).2
  | cons segment segments ih =>
      obtain ⟨entry, hentry, hrest⟩ := descend_cons_eq_ok_iff.mp h
      obtain ⟨-, -, rfl⟩ := enter_eq_ok_iff.mp hentry
      exact ih hrest

theorem eq_foldl_of_reach (h : fs.reach path = .ok loc) :
    loc = (Path.components path).foldl fs.advance (fs.origin path) := by
  rw [foldl_advance_components (fs.resolve_origin path)]
  obtain ⟨entry, hentry, rfl⟩ := reach_eq_ok_iff.mp h
  obtain ⟨front, last, hsegments⟩ := exists_splitOn_eq_concat path
  rw [hsegments]
  by_cases hlast : ∃ n, Path.Component.ofSegment? last = some (.name n)
  · obtain ⟨n, hn⟩ := hlast
    obtain rfl := ofSegment?_eq_name hn
    obtain ⟨-, -, d, hd, -, rfl⟩ := (locate_eq_ok_iff_of_name hsegments hn).mp hentry
    rw [List.foldl_append, ← eq_foldl_of_descend hd, List.foldl_cons, List.foldl_nil,
      follow_of_name hn]
  · rw [not_exists] at hlast
    obtain ⟨-, -, hd⟩ := (locate_eq_ok_iff_of_not_name hsegments hlast).mp hentry
    rw [resolve_of_locate_of_not_name hsegments hlast hentry]
    exact eq_foldl_of_descend hd

theorem reach_eq_of_same (h : Path.same p q = true) (hp : fs.reach p = .ok loc)
    (hq : fs.reach q = .ok loc') : loc = loc' := by
  rw [eq_foldl_of_reach hp, eq_foldl_of_reach hq, Path.same_iff.mp h, origin, origin,
    Path.isAbsolute_eq_of_same h]

theorem isFile_iff : fs.isFile p = true ↔ ∃ content, fs.find? p = some (.file content) := by
  rw [isFile]
  cases fs.find? p with
  | none => simp
  | some node => cases node <;> simp

theorem exists_reach_of_find? {node : Node} (h : fs.find? p = some node) :
    ∃ loc, fs.reach p = .ok loc ∧ fs.node? loc = some node := by
  cases hpath : fs.reach p with
  | error e =>
      rw [find?, hpath] at h
      cases h
  | ok loc => exact ⟨loc, rfl, find?_of_reach hpath ▸ h⟩

/-- What can be read is what is there. -/
theorem find?_of_read {content : ByteArray} (h : fs.read p = .ok content) :
    fs.find? p = some (.file content) := by
  rw [read] at h
  cases hpath : fs.reach p with
  | error e =>
      rw [hpath] at h
      cases h
  | ok loc =>
      rw [hpath, Except.bind] at h
      rw [find?_of_reach hpath]
      split at h
      · cases h
      · cases h
      · cases h
      · next hnode _ =>
          cases h
          exact hnode

/-- Files whose paths have the same components are one file. -/
theorem read_eq_of_same (h : Path.same p q = true) (hp : fs.isFile p = true)
    (hq : fs.isFile q = true) : fs.read p = fs.read q := by
  obtain ⟨content, hp⟩ := isFile_iff.mp hp
  obtain ⟨content', hq⟩ := isFile_iff.mp hq
  obtain ⟨loc, hloc, -⟩ := exists_reach_of_find? hp
  obtain ⟨loc', hloc', -⟩ := exists_reach_of_find? hq
  rw [read, read, hloc, hloc', reach_eq_of_same h hloc hloc']

end FileSystem

end DocComment
