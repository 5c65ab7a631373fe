import DocComment.Proofs.Command.Candidates
import DocComment.Proofs.Command.Naming
import Mathlib.Data.List.Nodup

/-!
The paths that the inputs of a run come down to. Candidates are collected input by input; those with
the same components come down to one path, in the spelling that was collected first, and the paths
come in their order.
-/

namespace DocComment

namespace Inputs

/-- The path is one of those that the input stands for. -/
inductive StandsFor (fs : FileSystem) (input : Text) : Text → Prop
  /-- The input is a file. -/
  | file (hfile : fs.isFile input = true) : StandsFor fs input input
  /-- The input is the directory of a supported file. -/
  | entry {name : Text} (hdirectory : fs.isDirectory input = true)
      (hname : name ∈ fs.names (Glob.locationOf fs input))
      (hfile : fs.isFile (Path.join input name) = true)
      (hkind : (Kind.ofPath? (Path.join input name)).isSome = true) :
      StandsFor fs input (Path.join input name)
  /-- The input is neither, but a pattern for the path of a file. -/
  | matched {glob : Glob} {p : Text} (hnofile : fs.isFile input = false)
      (hnodirectory : fs.isDirectory input = false) (hglob : Glob.ofText input = .ok glob)
      (hmem : p ∈ glob.paths fs) (hfile : fs.isFile p = true) : StandsFor fs input p

/-- The results are in order, and of the candidates with the same components there is one among
them, the first that was collected. -/
structure AreRepresentatives (results collected : List Text) : Prop where
  pairwise_precedes : results.Pairwise Path.Precedes
  nodup_components : (results.map Path.components).Nodup
  existsUnique_of_mem : ∀ p ∈ collected,
    ∃! q, q ∈ results ∧ Path.components q = Path.components p
  first_of_mem : ∀ q ∈ results, ∃ earlier later, collected = earlier ++ q :: later ∧
    ∀ p ∈ earlier, Path.components p ≠ Path.components q

variable {fs : FileSystem} {input p q : Text} {inputs found collected : List Text}

/-! What is collected. -/

theorem isFile_eq_false_of_isDirectory (h : fs.isDirectory input = true) :
    fs.isFile input = false := by
  rw [FileSystem.isFile, of_decide_eq_true h]

theorem standsFor_iff_of_isFile (h : fs.isFile input = true) :
    StandsFor fs input p ↔ p = input := by
  constructor
  · intro hp
    cases hp with
    | file => rfl
    | entry hdirectory => simp [isFile_eq_false_of_isDirectory hdirectory] at h
    | matched hnofile => simp [hnofile] at h
  · rintro rfl
    exact .file h

theorem standsFor_iff_of_isDirectory (h : fs.isDirectory input = true) :
    StandsFor fs input p ↔ p ∈ supportedIn fs input := by
  rw [mem_supportedIn_iff, List.mem_map]
  constructor
  · intro hp
    cases hp with
    | file hfile => simp [isFile_eq_false_of_isDirectory h] at hfile
    | entry _ hname hfile hkind => exact ⟨⟨_, hname, rfl⟩, hfile, hkind⟩
    | matched _ hnodirectory => simp [hnodirectory] at h
  · rintro ⟨⟨name, hname, rfl⟩, hfile, hkind⟩
    exact .entry h hname hfile hkind

theorem standsFor_iff_of_glob {glob : Glob} (hnofile : fs.isFile input = false)
    (hnodirectory : fs.isDirectory input = false) (hglob : Glob.ofText input = .ok glob) :
    StandsFor fs input p ↔ p ∈ glob.paths fs ∧ fs.isFile p = true := by
  constructor
  · intro hp
    cases hp with
    | file hfile => simp [hnofile] at hfile
    | entry hdirectory => simp [hnodirectory] at hdirectory
    | matched _ _ hglob' hmem hfile =>
        rw [hglob] at hglob'
        cases hglob'
        exact ⟨hmem, hfile⟩
  · rintro ⟨hmem, hfile⟩
    exact .matched hnofile hnodirectory hglob hmem hfile

theorem mem_candidates_iff (h : candidates fs input = .ok found) :
    p ∈ found ↔ StandsFor fs input p := by
  unfold candidates matching at h
  split at h
  · next hfile =>
      cases h
      rw [List.mem_singleton, standsFor_iff_of_isFile hfile]
  · next hnofile =>
      split at h
      · next hdirectory =>
          split at h
          · cases h
          · cases h
            rw [standsFor_iff_of_isDirectory hdirectory]
      · next hnodirectory =>
          split at h
          · cases h
          · next hglob =>
              cases h
              rw [List.mem_filter, standsFor_iff_of_glob (Bool.not_eq_true _ ▸ hnofile)
                (Bool.not_eq_true _ ▸ hnodirectory) hglob]

theorem isCandidate_iff (hall : ∀ input ∈ inputs, ∃ found, candidates fs input = .ok found) :
    IsCandidate fs inputs p ↔ ∃ input ∈ inputs, StandsFor fs input p := by
  constructor
  · rintro ⟨input, hinput, found, hfound, hp⟩
    exact ⟨input, hinput, (mem_candidates_iff hfound).mp hp⟩
  · rintro ⟨input, hinput, hp⟩
    obtain ⟨found, hfound⟩ := hall input hinput
    exact ⟨input, hinput, found, hfound, (mem_candidates_iff hfound).mpr hp⟩

/-- The candidates are collected input by input, up to the first problem. -/
theorem collect_snd_eq (fs : FileSystem) (inputs : List Text) :
    (collect fs inputs).2 = (inputs.mapM (candidates fs)).map List.flatten := by
  induction inputs with
  | nil => rfl
  | cons input rest ih =>
      rw [List.mapM_cons]
      cases hinput : candidates fs input with
      | error e => exact collect_snd_cons_of_error hinput rest
      | ok found =>
          rw [collect_snd_cons_of_ok hinput, ih]
          cases rest.mapM (candidates fs) <;> rfl

/-! What it comes down to. -/

theorem nodup_components_sortedOnce (collected : List Text) :
    ((sortedOnce collected).map Path.components).Nodup := by
  apply List.pairwise_map.mpr
  refine (pairwise_sortedOnce collected).imp ?_
  rintro p q ⟨-, hsame⟩ hcomponents
  rw [Path.same_iff.mpr hcomponents] at hsame
  cases hsame

/-- A path is spelled as it was first collected. -/
theorem exists_split_of_mem_sortedOnce (h : q ∈ sortedOnce collected) :
    ∃ earlier later, collected = earlier ++ q :: later ∧
      ∀ p ∈ earlier, Path.components p ≠ Path.components q := by
  obtain ⟨-, earlier, later, hcollected, hearlier⟩ :=
    List.find?_eq_some_iff_append.mp (mem_sortedOnce_iff.mp h)
  refine ⟨earlier, later, hcollected, ?_⟩
  intro p hp hcomponents
  have hdiffers := hearlier p hp
  rw [Path.same_iff.mpr hcomponents.symm] at hdiffers
  cases hdiffers

theorem areRepresentatives_sortedOnce (collected : List Text) :
    AreRepresentatives (sortedOnce collected) collected where
  pairwise_precedes := (pairwise_sortedOnce collected).imp Path.precedes_iff.mpr
  nodup_components := nodup_components_sortedOnce collected
  existsUnique_of_mem := by
    intro p hp
    obtain ⟨q, hq, hqp⟩ := exists_mem_sortedOnce hp
    refine ⟨q, ⟨hq, Path.same_iff.mp hqp⟩, ?_⟩
    rintro q' ⟨hq', hcomponents⟩
    exact List.inj_on_of_nodup_map (nodup_components_sortedOnce collected) hq' hq
      (hcomponents.trans (Path.same_iff.mp hqp).symm)
  first_of_mem := fun _ hq => exists_split_of_mem_sortedOnce hq

/-- If every input can be read, what they stand for is collected in their order and comes down to
one path for each of the candidates that are the same. -/
theorem areRepresentatives_of_collect (h : (collect fs inputs).2 = .ok collected) :
    (∃ found, inputs.mapM (candidates fs) = .ok found ∧ collected = found.flatten) ∧
      (∀ p, p ∈ collected ↔ ∃ input ∈ inputs, StandsFor fs input p) ∧
      AreRepresentatives (sortedOnce collected) collected := by
  obtain ⟨hall, hmem⟩ := of_collect_eq_ok h
  refine ⟨?_, ?_, areRepresentatives_sortedOnce collected⟩
  · rw [collect_snd_eq] at h
    cases hfound : inputs.mapM (candidates fs) with
    | error e =>
        rw [hfound] at h
        cases h
    | ok found =>
        rw [hfound] at h
        cases h
        exact ⟨found, rfl, rfl⟩
  · intro p
    rw [hmem, isCandidate_iff hall]

/-- One file is reached by another spelling of its path, by its directory and by a pattern. -/
theorem areRepresentatives_of_collect_spellings :
    ∃ (fs : FileSystem) (inputs collected : List Text),
      inputs = ["d//b.py".toList, "d".toList, "d/b.p?".toList, "a.py".toList] ∧
        (collect fs inputs).2 = .ok collected ∧
        collected = ["d//b.py".toList, "d/b.py".toList, "d/b.py".toList, "a.py".toList] ∧
        (∃ input ∈ inputs, StandsFor fs input "d/b.py".toList) ∧
        AreRepresentatives (sortedOnce collected) collected ∧
        "d//b.py".toList ∈ sortedOnce collected ∧ "d/b.py".toList ∉ sortedOnce collected := by
  let fs : FileSystem :=
    { nodes := [(["d".toList], .directory), (["d".toList, "b.py".toList], .file .empty),
        (["a.py".toList], .file .empty)]
      nodup_locations := by decide }
  let inputs : List Text := ["d//b.py".toList, "d".toList, "d/b.p?".toList, "a.py".toList]
  let collected : List Text :=
    ["d//b.py".toList, "d/b.py".toList, "d/b.py".toList, "a.py".toList]
  have hcollect : (collect fs inputs).2 = .ok collected := by decide +kernel
  obtain ⟨-, hmem, hrepresentatives⟩ := areRepresentatives_of_collect hcollect
  refine ⟨fs, inputs, collected, rfl, hcollect, rfl, ?_, hrepresentatives, ?_, ?_⟩
  · apply (hmem "d/b.py".toList).mp
    simp [collected]
  · apply mem_sortedOnce_iff.mpr
    decide +kernel
  · intro hslash
    exact absurd (mem_sortedOnce_iff.mp hslash) (by decide +kernel)

end Inputs

end DocComment
