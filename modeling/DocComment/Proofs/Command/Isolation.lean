import DocComment.Proofs.Command.Candidates
import DocComment.Proofs.FileSystem.Spelling

/-!
Files that a run skips. A file that is no text or of no supported kind gives no document, and it
takes the place of no other file, since only its own spellings are the same as it. So a run is what
it would be without it.
-/

namespace DocComment

variable {fs : FileSystem} {p q input : Text} {inputs more paths : List Text}

/-- The path is that of a file which is no text or has no supported extension. -/
def IsSkipped (fs : FileSystem) (p : Text) : Prop :=
  ∃ content, fs.find? p = some (.file content) ∧
    (Text.ofBytes? content = none ∨ Kind.ofPath? p = none)

/-- `more` is `inputs` with skipped files anywhere between them. -/
inductive WithSkipped (fs : FileSystem) : List Text → List Text → Prop where
  | nil : WithSkipped fs [] []
  | keep (input : Text) {inputs more : List Text} (h : WithSkipped fs inputs more) :
      WithSkipped fs (input :: inputs) (input :: more)
  | skip {input : Text} (hinput : IsSkipped fs input) {inputs more : List Text}
      (h : WithSkipped fs inputs more) : WithSkipped fs inputs (input :: more)

/-- Whether the file gives a document. -/
def isDocumented (fs : FileSystem) (p : Text) : Bool :=
  (documentOf? fs p).isSome

theorem isDocumented_iff :
    isDocumented fs p = true ↔ ∃ content, fs.read p = .ok content ∧
      (Text.ofBytes? content).isSome = true ∧ (Kind.ofPath? p).isSome = true := by
  rw [isDocumented, documentOf?, FileSystem.readText]
  cases fs.read p with
  | error e => simp [Except.toOption]
  | ok content =>
      cases htext : Text.ofBytes? content with
      | none => simp [Except.toOption, htext]
      | some text =>
          cases hkind : Kind.ofPath? p <;>
            simp [Except.toOption, Document.ofFile, htext, hkind]

theorem IsSkipped.isFile (h : IsSkipped fs p) : fs.isFile p = true := by
  obtain ⟨content, hfile, -⟩ := h
  exact FileSystem.isFile_iff.mpr ⟨content, hfile⟩

theorem IsSkipped.isDocumented_eq (h : IsSkipped fs p) : isDocumented fs p = false := by
  obtain ⟨content, hfile, hskip⟩ := h
  refine eq_false_of_ne_true fun hdoc => ?_
  obtain ⟨content', hread, htext, hkind⟩ := isDocumented_iff.mp hdoc
  rw [FileSystem.find?_of_read hread] at hfile
  cases hfile
  rcases hskip with hnone | hnone
  · rw [hnone] at htext
    cases htext
  · rw [hnone] at hkind
    cases hkind

/-- All spellings of a file give a document or none does. -/
theorem isDocumented_eq_of_same (h : Path.same p q = true) (hp : fs.isFile p = true)
    (hq : fs.isFile q = true) : isDocumented fs p = isDocumented fs q := by
  rw [Bool.eq_iff_iff, isDocumented_iff, isDocumented_iff, FileSystem.read_eq_of_same h hp hq,
    Kind.ofPath?_eq_of_same h]

theorem documentsOf_filter (fs : FileSystem) (paths : List Text) :
    documentsOf fs (paths.filter (isDocumented fs)) = documentsOf fs paths := by
  rw [documentsOf, documentsOf, List.filterMap_filter]
  refine List.filterMap_congr fun p _ => ?_
  cases h : documentOf? fs p <;> simp [isDocumented, h]

/-- The documents are those of the files that give one. -/
theorem documentsOf_sortedOnce (hfiles : ∀ p ∈ paths, fs.isFile p = true) :
    documentsOf fs (Inputs.sortedOnce paths) =
      documentsOf fs (Inputs.sortedOnce (paths.filter (isDocumented fs))) := by
  rw [← documentsOf_filter, Inputs.filter_sortedOnce]
  intro p hp q hq h
  exact isDocumented_eq_of_same h (hfiles p hp) (hfiles q hq)

theorem collect_of_withSkipped (h : WithSkipped fs inputs more) :
    (∀ e, (Inputs.collect fs inputs).2 = .error e → (Inputs.collect fs more).2 = .error e) ∧
      ∀ ps, (Inputs.collect fs inputs).2 = .ok ps → ∃ qs, (Inputs.collect fs more).2 = .ok qs ∧
        qs.filter (isDocumented fs) = ps.filter (isDocumented fs) := by
  induction h with
  | nil => exact ⟨fun _ h => h, fun ps h => ⟨ps, h, rfl⟩⟩
  | @keep input inputs more _ ih =>
      cases hinput : Inputs.candidates fs input with
      | error e =>
          rw [Inputs.collect_snd_cons_of_error hinput, Inputs.collect_snd_cons_of_error hinput]
          exact ⟨fun _ h => h, nofun⟩
      | ok found =>
          rw [Inputs.collect_snd_cons_of_ok hinput, Inputs.collect_snd_cons_of_ok hinput]
          obtain ⟨herror, hok⟩ := ih
          cases hrest : (Inputs.collect fs inputs).2 with
          | error e =>
              rw [herror e hrest]
              exact ⟨fun _ h => h, nofun⟩
          | ok ps =>
              obtain ⟨qs, hqs, heq⟩ := hok ps hrest
              rw [hqs]
              refine ⟨nofun, ?_⟩
              intro ps' hps'
              cases hps'
              exact ⟨found ++ qs, rfl, by rw [List.filter_append, heq, List.filter_append]⟩
  | @skip input hinput inputs more _ ih =>
      rw [Inputs.collect_snd_cons_of_ok (Inputs.candidates_of_isFile hinput.isFile)]
      obtain ⟨herror, hok⟩ := ih
      refine ⟨?_, ?_⟩
      · intro e he
        rw [herror e he]
        rfl
      · intro ps hps
        obtain ⟨qs, hqs, heq⟩ := hok ps hps
        rw [hqs]
        refine ⟨input :: qs, rfl, ?_⟩
        rw [List.filter_cons_of_neg (by simp [hinput.isDocumented_eq]), heq]

theorem documents?_of_withSkipped (h : WithSkipped fs inputs more) :
    Inputs.documents? fs more = Inputs.documents? fs inputs := by
  obtain ⟨herror, hok⟩ := collect_of_withSkipped h
  rw [Inputs.documents?, Inputs.documents?]
  cases hps : (Inputs.collect fs inputs).2 with
  | error e => rw [herror e hps]
  | ok ps =>
      obtain ⟨qs, hqs, heq⟩ := hok ps hps
      have hdocuments : documentsOf fs (Inputs.sortedOnce qs) =
          documentsOf fs (Inputs.sortedOnce ps) := by
        rw [documentsOf_sortedOnce fun p hp => Inputs.isFile_of_mem_collect hps hp,
          documentsOf_sortedOnce fun p hp => Inputs.isFile_of_mem_collect hqs hp, heq]
      rw [hqs]
      exact congrArg some hdocuments

theorem WithSkipped.ne_nil (h : WithSkipped fs inputs more) (hinputs : inputs ≠ []) :
    more ≠ [] := by
  cases h with
  | nil => exact absurd rfl hinputs
  | keep => exact List.cons_ne_nil _ _
  | skip => exact List.cons_ne_nil _ _

/-- Skipped files among the inputs change neither the status nor what is printed nor the files. -/
theorem run_of_withSkipped (o : Options) (stdin : ByteArray) (hinputs : inputs ≠ [])
    (h : WithSkipped fs inputs more) :
    ({ o with inputs := more }.run fs stdin).status = ({ o with inputs }.run fs stdin).status ∧
      ({ o with inputs := more }.run fs stdin).stdout = ({ o with inputs }.run fs stdin).stdout ∧
      ({ o with inputs := more }.run fs stdin).files = ({ o with inputs }.run fs stdin).files :=
  run_of_documents?_eq o stdin (h.ne_nil hinputs) hinputs (documents?_of_withSkipped h)

theorem run_of_withSkipped_around_document :
    let fs : FileSystem :=
      { nodes := [("a.md".toList :: [], .file (Text.toBytes "A.".toList)),
          ("b.py".toList :: [], .file ⟨#[255]⟩), ("run.sh".toList :: [], .file ⟨#[35]⟩)]
        nodup_locations := by decide }
    let o : Options := { inputs := ["a.md".toList] }
    let more := ["run.sh".toList, "a.md".toList, "./b.py".toList]
    WithSkipped fs o.inputs more ∧
      ({ o with inputs := more }.run fs .empty).status = (o.run fs .empty).status ∧
      ({ o with inputs := more }.run fs .empty).stdout = (o.run fs .empty).stdout ∧
      ({ o with inputs := more }.run fs .empty).files = (o.run fs .empty).files := by
  intro fs o more
  have hpadded : WithSkipped fs o.inputs more :=
    .skip ⟨⟨#[35]⟩, by decide +kernel, .inr (by decide)⟩
      (.keep _ (.skip ⟨⟨#[255]⟩, by decide +kernel, .inl (by decide +kernel)⟩ .nil))
  exact ⟨hpadded, run_of_withSkipped o .empty (List.cons_ne_nil _ _) hpadded⟩

end DocComment
