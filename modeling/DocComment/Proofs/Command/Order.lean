import DocComment.Proofs.Command.Candidates
import DocComment.Proofs.FileSystem.Relisted

/-!
Inputs in another order, or given twice, and files that are listed in another order. The candidates
are the same but for their order, which sorting takes away, and nothing that comes later looks at a
listing.
-/

namespace DocComment

variable {fs fs' : FileSystem} {input p : Text} {inputs inputs' found paths paths' : List Text}

namespace FileSystem.Relisted

/-! The candidates of the inputs. -/

theorem supportedIn_perm (h : fs.Relisted fs') (directory : Text) :
    (Inputs.supportedIn fs directory).Perm (Inputs.supportedIn fs' directory) := by
  unfold Inputs.supportedIn
  rw [h.locationOf_eq, h.isFile_eq]
  exact ((h.names_perm _).map _).filter _

theorem matching_eq (h : fs.Relisted fs') : Inputs.matching fs' = Inputs.matching fs := by
  funext pattern
  unfold Inputs.matching
  simp only [h.paths_eq, h.isFile_eq]

theorem exists_candidates_perm (h : fs.Relisted fs')
    (hfound : Inputs.candidates fs input = .ok found) :
    ∃ found', Inputs.candidates fs' input = .ok found' ∧ found.Perm found' := by
  unfold Inputs.candidates at hfound ⊢
  rw [h.isFile_eq, h.isDirectory_eq, h.matching_eq, h.locationOf_eq, h.setting_eq]
  split at hfound
  · next hfile =>
      cases hfound
      exact ⟨[input], if_pos hfile, .refl _⟩
  · next hfile =>
      rw [if_neg hfile]
      split at hfound
      · next hdirectory =>
          rw [if_pos hdirectory]
          split at hfound
          · cases hfound
          · cases hfound
            exact ⟨_, rfl, h.supportedIn_perm input⟩
      · next hdirectory => exact ⟨found, (if_neg hdirectory).trans hfound, .refl _⟩

theorem exists_collect_subset (h : fs.Relisted fs') (hinputs : ∀ input ∈ inputs', input ∈ inputs)
    (hpaths : (Inputs.collect fs inputs).2 = .ok paths) :
    ∃ paths', (Inputs.collect fs' inputs').2 = .ok paths' ∧ ∀ p ∈ paths', p ∈ paths := by
  obtain ⟨hall, hmem⟩ := Inputs.of_collect_eq_ok hpaths
  have hall' : ∀ input ∈ inputs', ∃ found', Inputs.candidates fs' input = .ok found' := by
    intro input hinput
    obtain ⟨found, hfound⟩ := hall input (hinputs input hinput)
    obtain ⟨found', hfound', -⟩ := h.exists_candidates_perm hfound
    exact ⟨found', hfound'⟩
  obtain ⟨paths', hpaths'⟩ := Inputs.exists_collect_eq_ok_iff.mpr hall'
  refine ⟨paths', hpaths', ?_⟩
  intro p hp
  obtain ⟨input, hinput, found', hfound', hp'⟩ := ((Inputs.of_collect_eq_ok hpaths').2 p).mp hp
  obtain ⟨found, hfound⟩ := hall input (hinputs input hinput)
  obtain ⟨found'', hfound'', hperm⟩ := h.exists_candidates_perm hfound
  rw [hfound'] at hfound''
  cases hfound''
  exact (hmem p).mpr ⟨input, hinputs input hinput, found, hfound, hperm.mem_iff.mpr hp'⟩

/-! Their documents. -/

theorem documentOf?_eq (h : fs.Relisted fs') : documentOf? fs' = documentOf? fs := by
  funext path
  unfold documentOf?
  rw [h.readText_eq]

theorem documents?_eq (h : fs.Relisted fs') (hinputs : ∀ input, input ∈ inputs ↔ input ∈ inputs')
    (hspelled : ∀ paths, (Inputs.collect fs inputs).2 = .ok paths →
      ∀ p ∈ paths, ∀ q ∈ paths, Path.components p = Path.components q → p = q) :
    Inputs.documents? fs' inputs' = Inputs.documents? fs inputs := by
  have hto : ∀ input ∈ inputs', input ∈ inputs := fun input => (hinputs input).mpr
  have hback : ∀ input ∈ inputs, input ∈ inputs' := fun input => (hinputs input).mp
  unfold Inputs.documents?
  cases hpaths : (Inputs.collect fs inputs).2 with
  | error e =>
      cases hpaths' : (Inputs.collect fs' inputs').2 with
      | error e' => rfl
      | ok paths' =>
          obtain ⟨paths, hok, -⟩ := h.symm.exists_collect_subset hback hpaths'
          rw [hpaths] at hok
          cases hok
  | ok paths =>
      obtain ⟨paths', hpaths', hsub⟩ := h.exists_collect_subset hto hpaths
      obtain ⟨paths'', hok, hsub'⟩ := h.symm.exists_collect_subset hback hpaths'
      rw [hpaths] at hok
      cases hok
      have hsorted : Inputs.sortedOnce paths = Inputs.sortedOnce paths' := by
        apply Inputs.sortedOnce_eq_of_mem_iff
        · exact fun p => ⟨hsub' p, hsub p⟩
        · exact fun p hp q hq hsame => hspelled paths hpaths p hp q hq (Path.same_iff.mp hsame)
      have hdocuments : documentsOf fs' (Inputs.sortedOnce paths') =
          documentsOf fs (Inputs.sortedOnce paths) := by
        unfold documentsOf
        rw [h.documentOf?_eq, hsorted]
      rw [hpaths']
      exact congrArg some hdocuments

end FileSystem.Relisted

/-! The run as a whole. -/

/-- The same status, the same text printed and the same files, in whatever order. -/
structure AlikeOutcomes (r r' : Outcome) : Prop where
  status_eq : r'.status = r.status
  stdout_eq : r'.stdout = r.stdout
  files_relisted : r.files.Relisted r'.files

variable {o : Options}

namespace FileSystem.Relisted

theorem alike_writeGroups (h : fs.Relisted fs') (format : Format) (directory : Text)
    (gs : List Group) :
    AlikeOutcomes (writeGroups format directory fs gs) (writeGroups format directory fs' gs) := by
  induction gs generalizing fs fs' with
  | nil => exact ⟨rfl, rfl, h⟩
  | cons g gs ih =>
      by_cases hg : g.document.functions = []
      · rw [writeGroups_of_eq_nil hg, writeGroups_of_eq_nil hg]
        obtain ⟨hstatus, hstdout, hfiles⟩ := ih h
        exact ⟨hstatus, hstdout, hfiles⟩
      · have hwrite := h.alike_write (g.path format directory)
          (Text.toBytes (format.render g.document))
        rcases hwrite.cases with ⟨made, made', hmade, hmade', hfiles⟩ |
          ⟨made, made', e, hmade, hmade', hfiles⟩
        · rw [writeGroups_of_write_eq_none hg hmade, writeGroups_of_write_eq_none hg hmade']
          obtain ⟨hstatus, hstdout, hfiles⟩ := ih hfiles
          exact ⟨hstatus, hstdout, hfiles⟩
        · rw [writeGroups_of_write_eq_some hg hmade, writeGroups_of_write_eq_some hg hmade']
          exact ⟨rfl, rfl, hfiles⟩

theorem alike_report (h : fs.Relisted fs') (o : Options) (format : Format) (ds : List Document) :
    AlikeOutcomes (o.report format fs ds) (o.report format fs' ds) := by
  unfold Options.report
  split
  · exact ⟨rfl, rfl, h⟩
  · next directory _ =>
      rcases (h.alike_createDirectories directory).cases with
        ⟨made, made', hmade, hmade', hfiles⟩ | ⟨made, made', e, hmade, hmade', hfiles⟩
      · rw [hmade, hmade']
        obtain ⟨hstatus, hstdout, hfiles⟩ :=
          hfiles.alike_writeGroups format directory (Group.ofDocuments ds)
        exact ⟨hstatus, hstdout, hfiles⟩
      · rw [hmade, hmade']
        exact ⟨rfl, rfl, hfiles⟩

theorem alike_run (h : fs.Relisted fs') (stdin : ByteArray) (hinputs : o.inputs ≠ [])
    (hdocuments : Inputs.documents? fs' o.inputs = Inputs.documents? fs o.inputs) :
    AlikeOutcomes (o.run fs stdin) (o.run fs' stdin) := by
  have hsame : o.reported? fs' = o.reported? fs := by
    rw [Options.reported?, Options.reported?, hdocuments]
  cases hreported : o.reported? fs with
  | none =>
      obtain ⟨events, f, hrun⟩ := run_of_reported?_eq_none stdin hinputs hreported
      obtain ⟨events', f', hrun'⟩ :=
        run_of_reported?_eq_none stdin hinputs (hsame.trans hreported)
      rw [hrun, hrun']
      exact ⟨rfl, rfl, h⟩
  | some reported =>
      obtain ⟨events, hrun⟩ := run_of_reported?_eq_some stdin hinputs hreported
      obtain ⟨events', hrun'⟩ :=
        run_of_reported?_eq_some stdin hinputs (hsame.trans hreported)
      obtain ⟨hstatus, hstdout, hfiles⟩ := h.alike_report o reported.1 reported.2
      rw [hrun, hrun']
      exact ⟨hstatus, hstdout, hfiles⟩

end FileSystem.Relisted

/-- Neither the order of the inputs nor repeating them nor the order of the listings changes the
status, what is printed or what is written, if candidates that are the same path have one
spelling. -/
theorem run_of_reordered (o : Options) (stdin : ByteArray) (hfs : fs.Relisted fs')
    (hnil : inputs ≠ []) (hinputs : ∀ input, input ∈ inputs ↔ input ∈ inputs')
    (hspelled : ∀ paths, (Inputs.collect fs inputs).2 = .ok paths →
      ∀ p ∈ paths, ∀ q ∈ paths, Path.components p = Path.components q → p = q) :
    AlikeOutcomes ({ o with inputs }.run fs stdin) ({ o with inputs := inputs' }.run fs' stdin) ∧
      (fs.changes ({ o with inputs }.run fs stdin).files).Perm
        (fs'.changes ({ o with inputs := inputs' }.run fs' stdin).files) := by
  have hnil' : inputs' ≠ [] := by
    obtain ⟨input, hinput⟩ := List.exists_mem_of_ne_nil inputs hnil
    exact List.ne_nil_of_mem ((hinputs input).mp hinput)
  have hlisted := hfs.documents?_eq (fun _ => Iff.rfl) hspelled
  have halike : AlikeOutcomes ({ o with inputs }.run fs stdin)
      ({ o with inputs := inputs' }.run fs' stdin) := by
    obtain ⟨hstatus, hstdout, hfiles⟩ := hfs.alike_run (o := { o with inputs }) stdin hnil hlisted
    obtain ⟨hstatus', hstdout', hfiles'⟩ := run_of_documents?_eq o stdin hnil hnil'
      (hlisted.trans (hfs.documents?_eq hinputs hspelled).symm)
    exact ⟨hstatus'.symm.trans hstatus, hstdout'.symm.trans hstdout, hfiles' ▸ hfiles⟩
  exact ⟨halike, hfs.changes_perm halike.files_relisted⟩

theorem run_of_reordered_directory_and_file :
    let a : Location × Node := (["src".toList, "a.md".toList], .file (Text.toBytes "A.".toList))
    let b : Location × Node := (["src".toList, "b.md".toList], .file (Text.toBytes "B.".toList))
    let fs : FileSystem :=
      { nodes := [(["src".toList], .directory), b, a], nodup_locations := by decide }
    let fs' : FileSystem :=
      { nodes := [a, (["src".toList], .directory), b], nodup_locations := by decide }
    let o : Options := { inputs := ["src".toList, "src/a.md".toList], output := some "out".toList }
    let inputs' := ["src/a.md".toList, "src".toList, "src".toList]
    (Inputs.collect fs o.inputs).2 =
        .ok ["src/b.md".toList, "src/a.md".toList, "src/a.md".toList] ∧
      AlikeOutcomes (o.run fs .empty) ({ o with inputs := inputs' }.run fs' .empty) ∧
      (fs.changes (o.run fs .empty).files).Perm
        (fs'.changes ({ o with inputs := inputs' }.run fs' .empty).files) := by
  intro a b fs fs' o inputs'
  have hpaths : (Inputs.collect fs o.inputs).2 =
      .ok ["src/b.md".toList, "src/a.md".toList, "src/a.md".toList] := by decide +kernel
  have hfs : fs.Relisted fs' := ⟨rfl, by decide, .refl _⟩
  have hinputs : ∀ input, input ∈ o.inputs ↔ input ∈ inputs' := by
    intro input
    simp [o, inputs', or_comm]
  refine ⟨hpaths, run_of_reordered o .empty hfs (List.cons_ne_nil _ _) hinputs ?_⟩
  intro paths hok
  rw [hpaths] at hok
  cases hok
  decide

end DocComment
