import DocComment.Proofs.FileSystem.Locate
import Mathlib.Data.List.DropRight

/-!
What the operations on files leave alone. Creating directories adds directories at the paths it is
given and touches nothing that is there; writing replaces or adds one file. Several paths may lead
to one file, which then holds what was written to it last.
-/

namespace DocComment.FileSystem

variable {fs fs' fs'' : FileSystem} {loc : Location} {path : Text} {content : ByteArray}

/-- Whether the path leads to the location. -/
def leadsTo (fs : FileSystem) (loc : Location) (path : Text) : Bool :=
  fs.reach path = .ok loc

/-- What comes to stand in a file, and the path by which it does. -/
structure Writing where
  path : Text
  content : ByteArray

/-- What comes to stand at the location last, if anything does. -/
def lastTo (fs : FileSystem) (loc : Location) (written : List Writing) : Option ByteArray :=
  ((written.filter fun w => fs.leadsTo loc w.path).getLast?).map (·.content)

/-- What differs between two states of the files: directories, each at one of the paths `made` and
where nothing was, and files, which hold what was written last. -/
structure Frame (made : List Text) (written : List Writing) (fs fs' : FileSystem) : Prop where
  setting_eq : fs'.toSetting = fs.toSetting
  links_eq : fs'.links = fs.links
  /-- Every path that is written leads somewhere. -/
  exists_reach : ∀ w ∈ written, ∃ loc, fs'.reach w.path = .ok loc
  /-- A file that is written holds what was written to it last, and was no directory. -/
  node?_of_lastTo : ∀ loc content, fs'.lastTo loc written = some content →
    fs.node? loc ≠ some .directory ∧ fs'.node? loc = some (.file content)
  /-- Everything else is as it was, or a directory where nothing was. -/
  node?_cases : ∀ loc, fs'.lastTo loc written = none → fs'.node? loc = fs.node? loc ∨
    (fs.node? loc = none ∧ fs'.node? loc = some .directory ∧ ∃ p ∈ made, fs'.reach p = .ok loc)

variable {made made' : List Text} {written written' front back : List Writing} {w : Writing}

theorem leadsTo_iff : fs.leadsTo loc path = true ↔ fs.reach path = .ok loc :=
  decide_eq_true_iff

/-! The last of several writings. -/

theorem lastTo_append (fs : FileSystem) (loc : Location) (written written' : List Writing) :
    fs.lastTo loc (written ++ written') =
      (fs.lastTo loc written').or (fs.lastTo loc written) := by
  rw [lastTo, List.filter_append, List.getLast?_append, Option.map_or, lastTo, lastTo]

theorem lastTo_singleton (fs : FileSystem) (loc : Location) (w : Writing) :
    fs.lastTo loc [w] = if fs.leadsTo loc w.path then some w.content else none := by
  rw [lastTo, List.filter_singleton]
  cases fs.leadsTo loc w.path <;> rfl

theorem lastTo_congr (h : ∀ w ∈ written, fs'.reach w.path = fs.reach w.path) (loc : Location) :
    fs'.lastTo loc written = fs.lastTo loc written := by
  rw [lastTo, lastTo]
  congr 2
  refine List.filter_congr fun w hw => ?_
  rw [leadsTo, leadsTo, h w hw]

theorem lastTo_eq_none_iff :
    fs.lastTo loc written = none ↔ ∀ w ∈ written, fs.reach w.path ≠ .ok loc := by
  rw [lastTo, Option.map_eq_none_iff, List.getLast?_eq_none_iff, List.filter_eq_nil_iff]
  simp only [leadsTo_iff, ne_eq]

theorem lastTo_of_split (hpath : fs.reach w.path = .ok loc)
    (hback : ∀ v ∈ back, fs.reach v.path ≠ .ok loc) :
    fs.lastTo loc (front ++ w :: back) = some w.content := by
  have hlast : fs.lastTo loc (w :: back) = some w.content := by
    rw [← List.singleton_append, lastTo_append, lastTo_eq_none_iff.mpr hback, Option.none_or,
      lastTo_singleton, if_pos (leadsTo_iff.mpr hpath)]
  rw [lastTo_append, hlast, Option.some_or]

theorem exists_mem_of_lastTo (h : fs.lastTo loc written = some content) :
    ∃ w ∈ written, fs.reach w.path = .ok loc ∧ w.content = content := by
  obtain ⟨w, hlast, hcontent⟩ := Option.map_eq_some_iff.mp h
  obtain ⟨hw, hpath⟩ := List.mem_filter.mp (List.mem_of_getLast? hlast)
  exact ⟨w, hw, leadsTo_iff.mp hpath, hcontent⟩

namespace Frame

theorem refl (made : List Text) (fs : FileSystem) : Frame made [] fs fs :=
  ⟨rfl, rfl, nofun, nofun, fun _ _ => .inl rfl⟩

theorem keeps (h : Frame made written fs fs') : fs.Keeps fs' := by
  refine ⟨h.setting_eq, ?_⟩
  intro loc hloc
  cases hlast : fs'.lastTo loc written with
  | some content => exact absurd hloc (h.node?_of_lastTo loc content hlast).1
  | none =>
      rcases h.node?_cases loc hlast with heq | ⟨hnone, -, -⟩
      · rw [heq, hloc]
      · rw [hnone] at hloc
        cases hloc

theorem mono (h : Frame made written fs fs') (hmade : made ⊆ made') :
    Frame made' written fs fs' := by
  refine ⟨h.setting_eq, h.links_eq, h.exists_reach, h.node?_of_lastTo, ?_⟩
  intro loc hlast
  rcases h.node?_cases loc hlast with heq | ⟨hnone, hdir, p, hp, hloc⟩
  · exact .inl heq
  · exact .inr ⟨hnone, hdir, p, hmade hp, hloc⟩

/-- What comes later decides where it reaches, and leaves the rest to what came before. -/
theorem lastTo_append (h : Frame made written fs fs') (h' : Frame made' written' fs' fs'')
    (loc : Location) : fs''.lastTo loc (written ++ written') =
      (fs''.lastTo loc written').or (fs'.lastTo loc written) := by
  have hreach : ∀ w ∈ written, fs''.reach w.path = fs'.reach w.path := by
    intro w hw
    obtain ⟨loc, hloc⟩ := h.exists_reach w hw
    rw [hloc, h'.keeps.reach hloc]
  rw [FileSystem.lastTo_append, lastTo_congr hreach]

theorem trans (h : Frame made written fs fs') (h' : Frame made written' fs' fs'') :
    Frame made (written ++ written') fs fs'' := by
  refine ⟨h'.setting_eq.trans h.setting_eq, h'.links_eq.trans h.links_eq, ?_, ?_, ?_⟩
  · intro w hw
    rcases List.mem_append.mp hw with hw | hw
    · obtain ⟨loc, hloc⟩ := h.exists_reach w hw
      exact ⟨loc, h'.keeps.reach hloc⟩
    · exact h'.exists_reach w hw
  · intro loc content hlast
    rw [h.lastTo_append h'] at hlast
    -- What is written later hides what is written before; elsewhere that stays.
    cases hlater : fs''.lastTo loc written' with
    | some content' =>
        obtain ⟨hdir, hfile⟩ := h'.node?_of_lastTo loc content' hlater
        rw [hlater] at hlast
        cases hlast
        exact ⟨fun hloc => hdir (h.keeps.node?_eq loc hloc), hfile⟩
    | none =>
        rw [hlater, Option.none_or] at hlast
        obtain ⟨hdir, hfile⟩ := h.node?_of_lastTo loc content hlast
        refine ⟨hdir, ?_⟩
        rcases h'.node?_cases loc hlater with heq | ⟨hnone, -, -⟩
        · rw [heq, hfile]
        · rw [hfile] at hnone
          cases hnone
  · intro loc hlast
    rw [h.lastTo_append h', Option.or_eq_none_iff] at hlast
    rcases h'.node?_cases loc hlast.1 with heq | ⟨hnone, hdir, hp⟩
    · rw [heq]
      rcases h.node?_cases loc hlast.2 with heq | ⟨hnone, hdir, p, hp, hloc⟩
      · exact .inl heq
      · exact .inr ⟨hnone, hdir, p, hp, h'.keeps.reach hloc⟩
    -- Where the second change finds nothing, the first one has left nothing.
    · rcases h.node?_cases loc hlast.2 with heq | ⟨-, hdir', -⟩
      · exact .inr ⟨heq ▸ hnone, hdir, hp⟩
      · rw [hnone] at hdir'
        cases hdir'

/-- Where nothing is written, files stay what they are. -/
theorem file_iff (h : Frame made written fs fs') (hloc : ∀ w ∈ written, fs'.reach w.path ≠ .ok loc)
    (content : ByteArray) :
    fs'.node? loc = some (.file content) ↔ fs.node? loc = some (.file content) := by
  rcases h.node?_cases loc (lastTo_eq_none_iff.mpr hloc) with heq | ⟨hnone, hdir, -⟩
  · rw [heq]
  · simp [hnone, hdir]

/-- A content stands in its file, unless one that comes later goes to the same file. -/
theorem find?_eq (h : Frame made (front ++ w :: back) fs fs')
    (hback : ∀ v ∈ back, fs'.reach v.path ≠ fs'.reach w.path) :
    fs'.find? w.path = some (.file w.content) := by
  obtain ⟨loc, hloc⟩ := h.exists_reach w (List.mem_append_right _ (List.mem_cons_self ..))
  rw [find?_of_reach hloc]
  exact (h.node?_of_lastTo loc w.content
    (lastTo_of_split hloc fun v hv => hloc ▸ hback v hv)).2

end Frame

theorem ne_nil_of_node?_ne (h : fs.node? loc ≠ some .directory) : loc ≠ [] := by
  rintro rfl
  exact h rfl

theorem node?_put_self (h : loc ≠ []) (node : Node) : (fs.put loc node).node? loc = some node := by
  rw [node?_put h, if_pos rfl]

theorem keeps_put (hloc : fs.node? loc ≠ some .directory) (node : Node) :
    fs.Keeps (fs.put loc node) := by
  refine ⟨rfl, ?_⟩
  intro l hl
  have hne : l ≠ loc := by
    rintro rfl
    exact hloc hl
  rw [node?_put (ne_nil_of_node?_ne hloc), if_neg hne, hl]

/-! Writing a file. -/

theorem openFile_eq_ok (h : fs.openFile path = .ok loc) :
    fs.reach path = .ok loc ∧ fs.node? loc ≠ some .directory := by
  rw [openFile] at h
  cases hpath : fs.reach path with
  | error e =>
      rw [hpath] at h
      cases h
  | ok l =>
      rw [hpath, Except.bind] at h
      split at h
      · cases h
      · next hnode =>
          cases h
          exact ⟨rfl, by simp [hnode]⟩
      · next hnode =>
          cases hparent : fs.directory l.dropLast with
          | error e =>
              rw [hparent] at h
              cases h
          | ok d =>
              rw [hparent] at h
              cases h
              exact ⟨rfl, by simp [hnode]⟩

theorem frame_put_file (hpath : fs.reach path = .ok loc) (hloc : fs.node? loc ≠ some .directory)
    (content : ByteArray) : Frame [] [⟨path, content⟩] fs (fs.put loc (.file content)) := by
  have hpath' : (fs.put loc (.file content)).reach path = .ok loc :=
    (keeps_put hloc _).reach hpath
  refine ⟨rfl, rfl, ?_, ?_, ?_⟩
  · intro w hw
    obtain rfl := List.mem_singleton.mp hw
    exact ⟨loc, hpath'⟩
  · intro l c hlast
    obtain ⟨w, hw, hl, rfl⟩ := exists_mem_of_lastTo hlast
    obtain rfl := List.mem_singleton.mp hw
    rw [hpath'] at hl
    cases hl
    exact ⟨hloc, node?_put_self (ne_nil_of_node?_ne hloc) _⟩
  · intro l hlast
    have hne : l ≠ loc := by
      rintro rfl
      exact lastTo_eq_none_iff.mp hlast _ (List.mem_singleton_self _) hpath'
    rw [node?_put (ne_nil_of_node?_ne hloc), if_neg hne]
    exact .inl rfl

/-- All that can become of a write: the content stands in the file, the file could not be opened,
or only a beginning of the content stands in it. -/
inductive WriteOutcome (fs : FileSystem) (path : Text) (content : ByteArray) : Change → Prop
  | done {fs' : FileSystem} (h : Frame [] [⟨path, content⟩] fs fs') :
      WriteOutcome fs path content ⟨fs', none⟩
  | refused (e : OsError) : WriteOutcome fs path content ⟨fs, some e⟩
  | cut (size : Nat) (e : OsError) {fs' : FileSystem}
      (h : Frame [] [⟨path, content.extract 0 size⟩] fs fs') :
      WriteOutcome fs path content ⟨fs', some e⟩

theorem outcome_write (fs : FileSystem) (path : Text) (content : ByteArray) :
    WriteOutcome fs path content (fs.write path content) := by
  rw [write]
  cases hopen : fs.openFile path with
  | error e => exact .refused e
  | ok loc =>
      obtain ⟨hpath, hloc⟩ := openFile_eq_ok hopen
      dsimp only
      cases fs.faults.write loc content with
      | none => exact .done (frame_put_file hpath hloc content)
      | some fault =>
          cases fault with
          | refused e => exact .refused e
          | cut size e => exact .cut size e (frame_put_file hpath hloc _)

/-! Creating directories. -/

/-- A directory is created where nothing was. -/
theorem createEntry_eq_ok {entry : Location} (h : fs.createEntry entry = .ok fs') :
    fs.node? (fs.resolve entry) = none ∧ fs' = fs.put (fs.resolve entry) .directory := by
  unfold createEntry at h
  dsimp only at h
  split at h
  · cases h
  · next hnode =>
      rw [not_or, Option.not_isSome_iff_eq_none] at hnode
      cases hparent : fs.directory (fs.resolve entry).dropLast with
      | error e =>
          rw [hparent] at h
          cases h
      | ok d =>
          rw [hparent, Except.bind] at h
          split at h
          · cases h
          · cases h
            exact ⟨hnode.2, rfl⟩

/-- Then the path leads there. -/
theorem createDirectory_eq_ok (h : fs.createDirectory path = .ok fs') :
    ∃ loc, fs.node? loc = none ∧ fs' = fs.put loc .directory ∧ fs'.reach path = .ok loc := by
  obtain ⟨n, hslashes⟩ : ∃ n, path.rtakeWhile (· = '/') = List.replicate n '/' :=
    ⟨_, List.eq_replicate_of_mem fun c hc => by simpa using List.mem_rtakeWhile_imp hc⟩
  have hpath : path.rdropWhile (· = '/') ++ List.replicate n '/' = path := by
    rw [← hslashes, List.rdropWhile_append_rtakeWhile]
  unfold createDirectory at h
  change (if _ then _ else if (path.rdropWhile (· = '/')).isEmpty then _ else
    (fs.locate (path.rdropWhile (· = '/'))).bind _) = _ at h
  split at h
  · cases h
  · next hlimit =>
      split at h
      · cases h
      · cases hbare : fs.locate (path.rdropWhile (· = '/')) with
        | error e =>
            rw [hbare] at h
            cases h
        | ok entry =>
            rw [hbare, Except.bind] at h
            obtain ⟨hnone, rfl⟩ := createEntry_eq_ok h
            have hne : fs.node? (fs.resolve entry) ≠ some .directory := by simp [hnone]
            refine ⟨fs.resolve entry, hnone, rfl, ?_⟩
            rw [← hpath]
            refine reach_append_slashes ((keeps_put hne _).reach (reach_of_locate hbare))
              (node?_put_self (ne_nil_of_node?_ne hne) _) ?_
            rw [hpath]
            exact Nat.le_of_not_lt hlimit

theorem frame_createDirectory (h : fs.createDirectory path = .ok fs') :
    Frame [path] [] fs fs' := by
  obtain ⟨loc, hnone, rfl, hpath⟩ := createDirectory_eq_ok h
  have hdir : fs.node? loc ≠ some .directory := by simp [hnone]
  have hne : loc ≠ [] := ne_nil_of_node?_ne hdir
  refine ⟨rfl, rfl, nofun, nofun, ?_⟩
  intro l _
  by_cases hl : l = loc
  · subst hl
    exact .inr ⟨hnone, node?_put_self hne _, path, List.mem_singleton_self path, hpath⟩
  · rw [node?_put hne, if_neg hl]
    exact .inl rfl

theorem frame_ensureDirectory (fs : FileSystem) (path : Text) :
    Frame [path] [] fs (fs.ensureDirectory path).files := by
  rw [ensureDirectory]
  cases h : fs.createDirectory path with
  | error e => exact Frame.refl ..
  | ok fs' => exact frame_createDirectory h

theorem createWithParents_nil (fs : FileSystem) (path : Text) :
    fs.createWithParents path [] = fs.ensureDirectory path := by
  unfold createWithParents
  split
  · next heq => cases heq
  · rfl

theorem createWithParents_of_ne (h : fs.createDirectory path ≠ .error .notFound)
    (parents : List Text) : fs.createWithParents path parents = fs.ensureDirectory path := by
  unfold createWithParents
  split
  · next heq => exact absurd heq h
  · rfl

theorem createWithParents_cons {parent : Text} {parents : List Text}
    (h : fs.createDirectory path = .error .notFound) :
    fs.createWithParents path (parent :: parents) =
      match (fs.createWithParents parent parents).error with
      | none => (fs.createWithParents parent parents).files.ensureDirectory path
      | some _ => fs.createWithParents parent parents := by
  rw [createWithParents]
  · rcases fs.createWithParents parent parents with ⟨made, _ | e⟩ <;> rfl
  · exact h

theorem frame_createWithParents (parents : List Text) (fs : FileSystem) (path : Text) :
    Frame (path :: parents) [] fs (fs.createWithParents path parents).files := by
  induction parents generalizing fs path with
  | nil =>
      rw [createWithParents_nil]
      exact frame_ensureDirectory fs path
  | cons parent parents ih =>
      have hself (fs : FileSystem) :
          Frame (path :: parent :: parents) [] fs (fs.ensureDirectory path).files :=
        (frame_ensureDirectory fs path).mono
          (List.cons_subset_cons path (List.nil_subset _))
      have hparents : Frame (path :: parent :: parents) [] fs
          (fs.createWithParents parent parents).files :=
        (ih fs parent).mono (List.subset_cons_self ..)
      by_cases hmissing : fs.createDirectory path = .error .notFound
      · rw [createWithParents_cons hmissing]
        split
        · exact hparents.trans (hself _)
        · exact hparents
      · rw [createWithParents_of_ne hmissing]
        exact hself fs

theorem frame_createDirectories (fs : FileSystem) (path : Text) :
    Frame (path :: Path.parents path) [] fs (fs.createDirectories path).files := by
  rw [createDirectories]
  split
  · exact Frame.refl ..
  · exact frame_createWithParents ..

end DocComment.FileSystem
