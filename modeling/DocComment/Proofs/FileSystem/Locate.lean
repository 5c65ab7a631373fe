import DocComment.FileSystem

/-!
Where paths lead. A path that ends in a name is that entry of a directory, and every directory on
the way is the one that its own entry leads to. What leads somewhere leads to the same place as long
as no directory goes away.
-/

namespace DocComment.FileSystem

variable {fs fs' : FileSystem} {loc loc' entry start : Location} {path segment last : Text}
variable {front segments : List Text}

/-- Directories stay, and entries lead to the same places. -/
structure Keeps (fs fs' : FileSystem) : Prop where
  setting_eq : fs'.toSetting = fs.toSetting
  node?_eq : ∀ loc, fs.node? loc = some .directory → fs'.node? loc = some .directory

theorem directory_eq_ok_iff :
    fs.directory loc = .ok loc' ↔ fs.node? loc = some .directory ∧ loc' = loc := by
  rw [directory]
  constructor
  · intro h
    split at h
    · next hnode =>
        cases h
        exact ⟨hnode, rfl⟩
    · cases h
    · cases h
  · rintro ⟨hnode, rfl⟩
    rw [hnode]

theorem enter_eq_ok_iff :
    fs.enter loc segment = .ok loc' ↔
      fs.node? loc = some .directory ∧ segment.toBytes.size ≤ nameLimit ∧
        loc' = follow loc segment := by
  rw [enter]
  constructor
  · intro h
    cases hd : fs.directory loc with
    | error e =>
        rw [hd] at h
        cases h
    | ok l =>
        obtain ⟨hnode, rfl⟩ := directory_eq_ok_iff.mp hd
        rw [hd, Except.bind] at h
        split at h
        · cases h
        · next hlimit =>
            cases h
            exact ⟨hnode, Nat.le_of_not_lt hlimit, rfl⟩
  · rintro ⟨hnode, hlimit, rfl⟩
    rw [directory_eq_ok_iff.mpr ⟨hnode, rfl⟩, Except.bind, if_neg (Nat.not_lt.mpr hlimit)]

theorem descend_cons_eq_ok_iff :
    fs.descend start (segment :: segments) = .ok loc ↔
      ∃ entry, fs.enter start segment = .ok entry ∧
        fs.descend (fs.resolve entry) segments = .ok loc := by
  rw [descend]
  cases h : fs.enter start segment with
  | error e => simp [Except.bind]
  | ok entry => simp [Except.bind]

/-- Segments end at a directory. -/
theorem node?_of_descend (h : fs.descend start segments = .ok loc) :
    fs.node? loc = some .directory := by
  induction segments generalizing start with
  | nil =>
      obtain ⟨hnode, rfl⟩ := directory_eq_ok_iff.mp h
      exact hnode
  | cons segment segments ih =>
      obtain ⟨next, -, hrest⟩ := descend_cons_eq_ok_iff.mp h
      exact ih hrest

theorem resolve_of_descend (hstart : fs.resolve start = start)
    (h : fs.descend start segments = .ok loc) : fs.resolve loc = loc := by
  induction segments generalizing start with
  | nil =>
      obtain ⟨-, rfl⟩ := directory_eq_ok_iff.mp h
      exact hstart
  | cons segment segments ih =>
      obtain ⟨entry, -, hrest⟩ := descend_cons_eq_ok_iff.mp h
      exact ih (fs.resolve_resolve entry) hrest

theorem descend_append (h : fs.descend start front = .ok loc) (segments : List Text) :
    fs.descend start (front ++ segments) = fs.descend loc segments := by
  induction front generalizing start with
  | nil =>
      obtain ⟨-, rfl⟩ := directory_eq_ok_iff.mp h
      rfl
  | cons segment front ih =>
      obtain ⟨next, hnext, hrest⟩ := descend_cons_eq_ok_iff.mp h
      rw [List.cons_append, descend, hnext]
      exact ih hrest

theorem follow_nil (loc : Location) : follow loc [] = loc := rfl

theorem descend_replicate_nil (h : fs.node? loc = some .directory) (hloc : fs.resolve loc = loc)
    (n : Nat) :
    fs.descend loc (List.replicate n []) = .ok loc := by
  induction n with
  | zero => exact directory_eq_ok_iff.mpr ⟨h, rfl⟩
  | succ n ih =>
      rw [List.replicate_succ, descend_cons_eq_ok_iff]
      exact ⟨loc, enter_eq_ok_iff.mpr ⟨h, Nat.zero_le _, (follow_nil loc).symm⟩, hloc.symm ▸ ih⟩

/-- Where a path starts from. -/
def origin (fs : FileSystem) (path : Text) : Location :=
  fs.resolve (if Path.isAbsolute path then [] else fs.workingDirectory)

theorem resolve_origin (fs : FileSystem) (path : Text) :
    fs.resolve (fs.origin path) = fs.origin path :=
  fs.resolve_resolve _

theorem ofSegment?_eq_name {n : Text} (h : Path.Component.ofSegment? segment = some (.name n)) :
    n = segment := by
  rw [Path.Component.ofSegment?] at h
  split at h
  · cases h
  · split at h <;> cases h
    rfl

theorem follow_of_name (h : Path.Component.ofSegment? segment = some (.name segment)) :
    follow loc segment = loc ++ [segment] := by
  rw [follow, h]

theorem exists_splitOn_eq_concat (path : Text) :
    ∃ front last, path.splitOn '/' = front ++ [last] :=
  ⟨_, _, (List.dropLast_concat_getLast (List.splitOn_ne_nil '/' path)).symm⟩

theorem locate_eq_ok_iff (hsegments : path.splitOn '/' = front ++ [last]) :
    fs.locate path = .ok loc ↔ path ≠ [] ∧ path.toBytes.size ≤ pathLimit ∧
      (match Path.Component.ofSegment? last with
        | some (.name n) => (fs.descend (fs.origin path) front).bind fun loc => fs.enter loc n
        | _ => fs.descend (fs.origin path) (front ++ [last])) = .ok loc := by
  have hlast : (front ++ [last]).getLast?.bind Path.Component.ofSegment? =
      Path.Component.ofSegment? last := by
    rw [List.getLast?_concat, Option.bind_some]
  rw [locate, hsegments, hlast, List.dropLast_concat]
  by_cases hnil : path = []
  · simp [hnil]
  · by_cases hlimit : pathLimit < path.toBytes.size
    · simp [hnil, hlimit, Nat.not_le.mpr hlimit]
    · simp only [List.isEmpty_iff, hnil, hlimit, if_false, ne_eq, not_false_eq_true,
        Nat.le_of_not_lt hlimit, true_and]
      rfl

/-- A path whose last segment is a name is that entry of the directory before. -/
theorem locate_eq_ok_iff_of_name (hsegments : path.splitOn '/' = front ++ [last])
    (hlast : Path.Component.ofSegment? last = some (.name last)) :
    fs.locate path = .ok loc ↔ path ≠ [] ∧ path.toBytes.size ≤ pathLimit ∧
      ∃ d, fs.descend (fs.origin path) front = .ok d ∧ last.toBytes.size ≤ nameLimit ∧
        loc = d ++ [last] := by
  rw [locate_eq_ok_iff hsegments, hlast]
  cases hd : fs.descend (fs.origin path) front with
  | error e => simp [Except.bind]
  | ok d => simp [Except.bind, enter_eq_ok_iff, node?_of_descend hd, follow_of_name hlast]

/-- Every other path leads to a directory. -/
theorem locate_eq_ok_iff_of_not_name (hsegments : path.splitOn '/' = front ++ [last])
    (hlast : ∀ n, Path.Component.ofSegment? last ≠ some (.name n)) :
    fs.locate path = .ok loc ↔ path ≠ [] ∧ path.toBytes.size ≤ pathLimit ∧
      fs.descend (fs.origin path) (front ++ [last]) = .ok loc := by
  rw [locate_eq_ok_iff hsegments]
  split
  · next n h => exact absurd h (hlast n)
  · rfl

/-- So what it leads to is no entry that leads elsewhere. -/
theorem resolve_of_locate_of_not_name (hsegments : path.splitOn '/' = front ++ [last])
    (hlast : ∀ n, Path.Component.ofSegment? last ≠ some (.name n)) (h : fs.locate path = .ok loc) :
    fs.resolve loc = loc :=
  resolve_of_descend (fs.resolve_origin path)
    ((locate_eq_ok_iff_of_not_name hsegments hlast).mp h).2.2

theorem reach_eq_ok_iff :
    fs.reach path = .ok loc ↔ ∃ entry, fs.locate path = .ok entry ∧ loc = fs.resolve entry := by
  rw [reach]
  cases fs.locate path with
  | error e => simp [Except.map]
  | ok entry => simp [Except.map, eq_comm]

theorem reach_of_locate (h : fs.locate path = .ok entry) :
    fs.reach path = .ok (fs.resolve entry) :=
  reach_eq_ok_iff.mpr ⟨entry, h, rfl⟩

theorem resolve_of_reach (h : fs.reach path = .ok loc) : fs.resolve loc = loc := by
  obtain ⟨entry, -, rfl⟩ := reach_eq_ok_iff.mp h
  exact fs.resolve_resolve entry

theorem find?_of_reach (h : fs.reach path = .ok loc) : fs.find? path = fs.node? loc := by
  rw [find?, h]
  rfl

namespace Keeps

theorem resolve_eq (h : fs.Keeps fs') : fs'.resolve = fs.resolve :=
  congrArg Setting.resolve h.setting_eq

theorem descend (h : fs.Keeps fs') (hd : fs.descend start segments = .ok loc) :
    fs'.descend start segments = .ok loc := by
  induction segments generalizing start with
  | nil =>
      obtain ⟨hnode, rfl⟩ := directory_eq_ok_iff.mp hd
      exact directory_eq_ok_iff.mpr ⟨h.node?_eq _ hnode, rfl⟩
  | cons segment segments ih =>
      obtain ⟨next, hnext, hrest⟩ := descend_cons_eq_ok_iff.mp hd
      obtain ⟨hnode, hlimit, rfl⟩ := enter_eq_ok_iff.mp hnext
      exact descend_cons_eq_ok_iff.mpr
        ⟨_, enter_eq_ok_iff.mpr ⟨h.node?_eq _ hnode, hlimit, rfl⟩, h.resolve_eq ▸ ih hrest⟩

theorem origin_eq (h : fs.Keeps fs') (path : Text) : fs'.origin path = fs.origin path := by
  rw [origin, origin, h.setting_eq]

theorem locate (h : fs.Keeps fs') (hpath : fs.locate path = .ok loc) :
    fs'.locate path = .ok loc := by
  obtain ⟨front, last, hsegments⟩ := exists_splitOn_eq_concat path
  by_cases hlast : ∃ n, Path.Component.ofSegment? last = some (.name n)
  · obtain ⟨n, hn⟩ := hlast
    obtain rfl := ofSegment?_eq_name hn
    obtain ⟨hnil, hlimit, d, hd, hrest⟩ := (locate_eq_ok_iff_of_name hsegments hn).mp hpath
    exact (locate_eq_ok_iff_of_name hsegments hn).mpr
      ⟨hnil, hlimit, d, h.origin_eq path ▸ h.descend hd, hrest⟩
  · rw [not_exists] at hlast
    obtain ⟨hnil, hlimit, hd⟩ := (locate_eq_ok_iff_of_not_name hsegments hlast).mp hpath
    exact (locate_eq_ok_iff_of_not_name hsegments hlast).mpr
      ⟨hnil, hlimit, h.origin_eq path ▸ h.descend hd⟩

theorem reach (h : fs.Keeps fs') (hpath : fs.reach path = .ok loc) : fs'.reach path = .ok loc := by
  obtain ⟨entry, hentry, rfl⟩ := reach_eq_ok_iff.mp hpath
  exact reach_eq_ok_iff.mpr ⟨entry, h.locate hentry, h.resolve_eq ▸ rfl⟩

end Keeps

/-! Slashes at the end of the path of a directory change nothing. -/

theorem descend_of_reach (hpath : fs.reach path = .ok loc)
    (hloc : fs.node? loc = some .directory) :
    fs.descend (fs.origin path) (path.splitOn '/') = .ok loc := by
  obtain ⟨entry, hentry, rfl⟩ := reach_eq_ok_iff.mp hpath
  obtain ⟨front, last, hsegments⟩ := exists_splitOn_eq_concat path
  rw [hsegments]
  by_cases hlast : ∃ n, Path.Component.ofSegment? last = some (.name n)
  · obtain ⟨n, hn⟩ := hlast
    obtain rfl := ofSegment?_eq_name hn
    obtain ⟨-, -, d, hd, hlimit, rfl⟩ := (locate_eq_ok_iff_of_name hsegments hn).mp hentry
    rw [descend_append hd]
    exact descend_cons_eq_ok_iff.mpr ⟨d ++ [n],
      enter_eq_ok_iff.mpr ⟨node?_of_descend hd, hlimit, (follow_of_name hn).symm⟩,
      directory_eq_ok_iff.mpr ⟨hloc, rfl⟩⟩
  · rw [not_exists] at hlast
    rw [resolve_of_locate_of_not_name hsegments hlast hentry]
    exact ((locate_eq_ok_iff_of_not_name hsegments hlast).mp hentry).2.2

theorem splitOn_replicate_slash (n : Nat) :
    (List.replicate n '/').splitOn '/' = List.replicate (n + 1) [] := by
  induction n with
  | zero => rfl
  | succ n ih => rw [List.replicate_succ, List.splitOn_cons_eq_if_modifyHead, ih]; rfl

theorem reach_append_slashes (hpath : fs.reach path = .ok loc)
    (hloc : fs.node? loc = some .directory) {n : Nat}
    (hlimit : (Text.toBytes (path ++ List.replicate n '/')).size ≤ pathLimit) :
    fs.reach (path ++ List.replicate n '/') = .ok loc := by
  cases n with
  | zero => rwa [List.replicate_zero, List.append_nil]
  | succ n =>
      have hnil : path ≠ [] := by
        rintro rfl
        cases hpath
      have hresolve : fs.resolve loc = loc := resolve_of_reach hpath
      have horigin : fs.origin (path ++ List.replicate (n + 1) '/') = fs.origin path := by
        obtain ⟨c, t, rfl⟩ := List.exists_cons_of_ne_nil hnil
        rfl
      have hsegments : (path ++ List.replicate (n + 1) '/').splitOn '/' =
          (path.splitOn '/' ++ List.replicate n []) ++ [[]] := by
        rw [List.replicate_succ, List.splitOn_append_cons_self, splitOn_replicate_slash,
          List.replicate_succ', List.append_assoc]
      refine reach_eq_ok_iff.mpr ⟨loc, ?_, hresolve.symm⟩
      rw [locate_eq_ok_iff_of_not_name hsegments nofun, horigin, List.append_assoc,
        ← List.replicate_succ', descend_append (descend_of_reach hpath hloc)]
      exact ⟨List.append_ne_nil_of_left_ne_nil hnil _, hlimit,
        descend_replicate_nil hloc hresolve (n + 1)⟩

/-- Where entries lead if there is one link. -/
def redirect (link target loc : Location) : Location :=
  if loc = link then target else loc

theorem redirect_redirect (link target loc : Location) :
    redirect link target (redirect link target loc) = redirect link target loc := by
  unfold redirect
  split
  · exact ite_self _
  · rfl

end DocComment.FileSystem
