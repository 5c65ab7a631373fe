import DocComment.Command.Inputs
import DocComment.Proofs.FileSystem.Frame
import DocComment.Proofs.Path

/-!
The same files listed in another order. Where a path leads and what stands there does not depend on
the order, and neither does what a pattern stands for, since its matches are sorted; writing and
creating directories leave files that are the same again.
-/

namespace DocComment

namespace FileSystem

variable {fs fs' : FileSystem}

/-- The same files and directories, listed in any order. -/
structure Relisted (fs fs' : FileSystem) : Prop where
  setting_eq : fs'.toSetting = fs.toSetting
  nodes_perm : fs.nodes.Perm fs'.nodes
  links_perm : fs.links.Perm fs'.links

namespace Relisted

theorem symm (h : fs.Relisted fs') : fs'.Relisted fs :=
  ⟨h.setting_eq.symm, h.nodes_perm.symm, h.links_perm.symm⟩

/-! Where paths lead. -/

theorem node?_eq (h : fs.Relisted fs') : fs'.node? = fs.node? := by
  funext loc
  rw [node?, node?, Table.lookup_eq_of_perm h.nodes_perm fs.nodup_locations]

theorem directory_eq (h : fs.Relisted fs') : fs'.directory = fs.directory := by
  funext loc
  rw [directory, directory, h.node?_eq]

theorem enter_eq (h : fs.Relisted fs') : fs'.enter = fs.enter := by
  funext loc segment
  rw [enter, enter, h.directory_eq]

theorem descend_eq (h : fs.Relisted fs') : fs'.descend = fs.descend := by
  funext start segments
  induction segments generalizing start with
  | nil => rw [descend, descend, h.directory_eq]
  | cons segment segments ih =>
      rw [descend, descend, h.enter_eq, h.setting_eq]
      congr 1
      funext entry
      exact ih (fs.resolve entry)

theorem locate_eq (h : fs.Relisted fs') : fs'.locate = fs.locate := by
  funext path
  unfold locate
  rw [h.descend_eq, h.enter_eq, h.setting_eq]

theorem reach_eq (h : fs.Relisted fs') : fs'.reach = fs.reach := by
  funext path
  rw [reach, reach, h.locate_eq, h.setting_eq]

theorem find?_eq (h : fs.Relisted fs') : fs'.find? = fs.find? := by
  funext path
  rw [find?, find?, h.reach_eq, h.node?_eq]

theorem isFile_eq (h : fs.Relisted fs') : fs'.isFile = fs.isFile := by
  funext path
  rw [isFile, isFile, h.find?_eq]

theorem isDirectory_eq (h : fs.Relisted fs') : fs'.isDirectory = fs.isDirectory := by
  funext path
  rw [isDirectory, isDirectory, h.find?_eq]

theorem readText_eq (h : fs.Relisted fs') : fs'.readText = fs.readText := by
  funext path
  rw [readText, readText, read, read, h.reach_eq, h.node?_eq, h.setting_eq]

/-! What directories hold. -/

theorem names_perm (h : fs.Relisted fs') (loc : Location) :
    (fs.names loc).Perm (fs'.names loc) := by
  unfold names
  rw [h.setting_eq]
  split
  · exact .refl []
  · exact ((h.nodes_perm.map Prod.fst).append h.links_perm).filterMap _

theorem sorted_names_eq (h : fs.Relisted fs') (loc : Location) :
    (fs'.names loc).mergeSort Text.le = (fs.names loc).mergeSort Text.le :=
  mergeSort_eq_of_perm isRow_toNat (h.names_perm loc).symm

theorem below_eq (h : fs.Relisted fs') : fs'.below = fs.below := by
  funext loc depth
  induction depth generalizing loc with
  | zero => rfl
  | succ depth ih =>
      rw [below, below, h.sorted_names_eq, h.setting_eq]
      congr 1
      funext name
      rw [ih]

theorem locationOf_eq (h : fs.Relisted fs') : Glob.locationOf fs' = Glob.locationOf fs := by
  funext path
  rw [Glob.locationOf, Glob.locationOf, h.reach_eq]

theorem sortedNames_eq (h : fs.Relisted fs') : Glob.sortedNames fs' = Glob.sortedNames fs := by
  funext path
  rw [Glob.sortedNames, Glob.sortedNames, h.locationOf_eq, h.sorted_names_eq]

theorem descendants_eq (h : fs.Relisted fs') : Glob.descendants fs' = Glob.descendants fs := by
  funext path
  rw [Glob.descendants, Glob.descendants, h.locationOf_eq, h.below_eq]

theorem expand_eq (h : fs.Relisted fs') : Glob.expand fs' = Glob.expand fs := by
  funext directoriesOnly path components
  fun_induction Glob.expand fs directoriesOnly path components with
  | case3 path p rest name hname next hnext ih =>
      rw [Glob.expand.eq_def]
      simp only [hname, h.isDirectory_eq, h.find?_eq]
      rw [if_pos hnext, ih]
  | case4 path p rest name hname next hnext =>
      rw [Glob.expand.eq_def]
      simp only [hname, h.isDirectory_eq, h.find?_eq]
      rw [if_neg hnext]
  | _ =>
      rw [Glob.expand.eq_def]
      simp_all [h.isDirectory_eq, h.descendants_eq, h.sortedNames_eq]

theorem paths_eq (h : fs.Relisted fs') (g : Glob) : g.paths fs' = g.paths fs := by
  rw [Glob.paths, Glob.paths, h.expand_eq]

/-! What is put there. -/

theorem put (h : fs.Relisted fs') (loc : Location) (node : Node) :
    (fs.put loc node).Relisted (fs'.put loc node) :=
  ⟨h.setting_eq, Table.put_perm_put h.nodes_perm fs.nodup_locations loc node, h.links_perm⟩

theorem changes_perm {after after' : FileSystem} (h : fs.Relisted fs')
    (hafter : after.Relisted after') : (fs.changes after).Perm (fs'.changes after') := by
  unfold changes
  rw [h.node?_eq]
  exact hafter.nodes_perm.filter _

end Relisted

/-- Both fail with the same error, or both give the same files. -/
def AlikeResults (r r' : Except OsError FileSystem) : Prop :=
  (∃ e, r = .error e ∧ r' = .error e) ∨ ∃ fs fs', r = .ok fs ∧ r' = .ok fs' ∧ fs.Relisted fs'

/-- Both stop at the same error or at none, with the same files. -/
structure AlikeChanges (c c' : Change) : Prop where
  files_relisted : c.files.Relisted c'.files
  error_eq : c'.error = c.error

theorem AlikeChanges.cases {c c' : Change} (h : AlikeChanges c c') :
    (∃ fs fs', c = ⟨fs, none⟩ ∧ c' = ⟨fs', none⟩ ∧ fs.Relisted fs') ∨
      ∃ fs fs' e, c = ⟨fs, some e⟩ ∧ c' = ⟨fs', some e⟩ ∧ fs.Relisted fs' := by
  obtain ⟨fs, error⟩ := c
  obtain ⟨fs', error'⟩ := c'
  obtain ⟨hfiles, herror⟩ := h
  cases herror
  cases error with
  | none => exact .inl ⟨fs, fs', rfl, rfl, hfiles⟩
  | some e => exact .inr ⟨fs, fs', e, rfl, rfl, hfiles⟩

theorem AlikeResults.bind {r : Except OsError Location}
    {f f' : Location → Except OsError FileSystem}
    (h : ∀ loc, AlikeResults (f loc) (f' loc)) : AlikeResults (r.bind f) (r.bind f') := by
  cases r with
  | error e => exact .inl ⟨e, rfl, rfl⟩
  | ok loc => exact h loc

namespace Relisted

theorem openFile_eq (h : fs.Relisted fs') : fs'.openFile = fs.openFile := by
  funext path
  unfold openFile
  rw [h.reach_eq, h.node?_eq, h.directory_eq]

theorem alike_write (h : fs.Relisted fs') (path : Text) (content : ByteArray) :
    AlikeChanges (fs.write path content) (fs'.write path content) := by
  unfold write
  rw [h.openFile_eq, h.setting_eq]
  cases fs.openFile path with
  | error e => exact ⟨h, rfl⟩
  | ok loc =>
      dsimp only
      cases fs.faults.write loc content with
      | none => exact ⟨h.put loc _, rfl⟩
      | some fault =>
          cases fault with
          | refused e => exact ⟨h, rfl⟩
          | cut size e => exact ⟨h.put loc _, rfl⟩

theorem alike_createEntry (h : fs.Relisted fs') (entry : Location) :
    AlikeResults (fs.createEntry entry) (fs'.createEntry entry) := by
  unfold createEntry
  simp only [h.setting_eq, h.node?_eq, h.directory_eq, h.links_perm.mem_iff]
  split
  · exact .inl ⟨_, rfl, rfl⟩
  · apply AlikeResults.bind
    intro _
    split
    · exact .inl ⟨_, rfl, rfl⟩
    · exact .inr ⟨_, _, rfl, rfl, h.put _ .directory⟩

theorem alike_createDirectory (h : fs.Relisted fs') (path : Text) :
    AlikeResults (fs.createDirectory path) (fs'.createDirectory path) := by
  unfold createDirectory
  rw [h.locate_eq]
  dsimp only
  split
  · exact .inl ⟨_, rfl, rfl⟩
  · split
    · exact .inl ⟨_, rfl, rfl⟩
    · exact AlikeResults.bind h.alike_createEntry

theorem alike_ensureDirectory (h : fs.Relisted fs') (path : Text) :
    AlikeChanges (fs.ensureDirectory path) (fs'.ensureDirectory path) := by
  unfold ensureDirectory
  rcases h.alike_createDirectory path with ⟨e, he, he'⟩ | ⟨made, made', hmade, hmade', halike⟩
  · rw [he, he', h.isDirectory_eq]
    exact ⟨h, rfl⟩
  · rw [hmade, hmade']
    exact ⟨halike, rfl⟩

theorem alike_createWithParents (h : fs.Relisted fs') (path : Text) (parents : List Text) :
    AlikeChanges (fs.createWithParents path parents) (fs'.createWithParents path parents) := by
  induction parents generalizing fs fs' path with
  | nil =>
      rw [createWithParents_nil, createWithParents_nil]
      exact h.alike_ensureDirectory path
  | cons parent parents ih =>
      have hparents := ih h parent
      rcases h.alike_createDirectory path with ⟨e, he, he'⟩ | ⟨made, made', hmade, hmade', -⟩
      · by_cases hmissing : e = .notFound
        · subst hmissing
          rw [createWithParents_cons he, createWithParents_cons he', hparents.error_eq]
          split
          · exact hparents.files_relisted.alike_ensureDirectory path
          · exact hparents
        · rw [createWithParents_of_ne (by simp [he, hmissing]),
            createWithParents_of_ne (by simp [he', hmissing])]
          exact h.alike_ensureDirectory path
      · rw [createWithParents_of_ne (by simp [hmade]), createWithParents_of_ne (by simp [hmade'])]
        exact h.alike_ensureDirectory path

theorem alike_createDirectories (h : fs.Relisted fs') (path : Text) :
    AlikeChanges (fs.createDirectories path) (fs'.createDirectories path) := by
  unfold createDirectories
  split
  · exact ⟨h, rfl⟩
  · exact h.alike_createWithParents path (Path.parents path)

end Relisted

end FileSystem

end DocComment
