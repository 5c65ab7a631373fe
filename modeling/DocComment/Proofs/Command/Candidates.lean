import DocComment.Proofs.Command.Outputs

/-!
What the inputs of a run give. There are candidates if each input has some reading, and then they
are those of the single inputs; otherwise the run is refused before it has read a file. The
documents of the candidates are all that what a run prints and writes depends on.
-/

namespace DocComment

namespace Inputs

variable {fs : FileSystem} {input p : Text} {inputs rest found paths : List Text} {e : Problem}

/-- The path is one of those that an input of the list stands for. -/
def IsCandidate (fs : FileSystem) (inputs : List Text) (p : Text) : Prop :=
  ∃ input ∈ inputs, ∃ found, candidates fs input = .ok found ∧ p ∈ found

theorem isFile_of_mem_candidates (h : candidates fs input = .ok found) (hp : p ∈ found) :
    fs.isFile p = true := by
  rw [candidates] at h
  split at h
  · next hfile =>
      cases h
      rwa [List.mem_singleton.mp hp]
  · split at h
    · split at h
      · cases h
      · cases h
        have hkept := (List.mem_filter.mp hp).2
        rw [Bool.and_eq_true] at hkept
        exact hkept.1
    · rw [matching] at h
      split at h
      · cases h
      · cases h
        exact (List.mem_filter.mp hp).2

theorem candidates_of_isFile (h : fs.isFile input = true) : candidates fs input = .ok [input] := by
  rw [candidates, if_pos h]

theorem collect_snd_cons_of_ok (h : candidates fs input = .ok found) (rest : List Text) :
    (collect fs (input :: rest)).2 = (collect fs rest).2.map (found ++ ·) := by
  rw [collect, h]

theorem collect_snd_cons_of_error (h : candidates fs input = .error e) (rest : List Text) :
    (collect fs (input :: rest)).2 = .error e := by
  rw [collect, h]

/-- The first problem is the one that is reported. -/
theorem exists_of_collect_eq_error (h : (collect fs inputs).2 = .error e) :
    ∃ input ∈ inputs, candidates fs input = .error e := by
  induction inputs with
  | nil => cases h
  | cons input rest ih =>
      cases hinput : candidates fs input with
      | error e' =>
          rw [collect_snd_cons_of_error hinput] at h
          exact ⟨input, List.mem_cons_self .., h ▸ hinput⟩
      | ok found =>
          rw [collect_snd_cons_of_ok hinput] at h
          cases hrest : (collect fs rest).2 with
          | error e' =>
              rw [hrest] at h
              cases h
              obtain ⟨i, hi, he⟩ := ih hrest
              exact ⟨i, List.mem_cons_of_mem input hi, he⟩
          | ok paths =>
              rw [hrest] at h
              cases h

/-- The candidates of the list are those of its inputs, each of which has some. -/
theorem of_collect_eq_ok (h : (collect fs inputs).2 = .ok paths) :
    (∀ input ∈ inputs, ∃ found, candidates fs input = .ok found) ∧
      ∀ p, p ∈ paths ↔ IsCandidate fs inputs p := by
  induction inputs generalizing paths with
  | nil =>
      cases h
      simp [IsCandidate]
  | cons input rest ih =>
      cases hinput : candidates fs input with
      | error e =>
          rw [collect_snd_cons_of_error hinput] at h
          cases h
      | ok found =>
          rw [collect_snd_cons_of_ok hinput] at h
          cases hrest : (collect fs rest).2 with
          | error e =>
              rw [hrest] at h
              cases h
          | ok others =>
              rw [hrest] at h
              cases h
              obtain ⟨hall, hmem⟩ := ih hrest
              refine ⟨List.forall_mem_cons.mpr ⟨⟨found, hinput⟩, hall⟩, ?_⟩
              intro p
              rw [List.mem_append, hmem]
              simp [IsCandidate, hinput]

theorem exists_collect_eq_ok_iff :
    (∃ paths, (collect fs inputs).2 = .ok paths) ↔
      ∀ input ∈ inputs, ∃ found, candidates fs input = .ok found := by
  constructor
  · rintro ⟨paths, h⟩
    exact (of_collect_eq_ok h).1
  · intro hall
    cases h : (collect fs inputs).2 with
    | ok paths => exact ⟨paths, rfl⟩
    | error e =>
        obtain ⟨input, hinput, he⟩ := exists_of_collect_eq_error h
        obtain ⟨found, hfound⟩ := hall input hinput
        rw [hfound] at he
        cases he

theorem isFile_of_mem_collect (h : (collect fs inputs).2 = .ok paths) (hp : p ∈ paths) :
    fs.isFile p = true := by
  obtain ⟨input, -, found, hfound, hmem⟩ := ((of_collect_eq_ok h).2 p).mp hp
  exact isFile_of_mem_candidates hfound hmem

end Inputs

/-! What decides a run over files. -/

variable {o : Options} {fs : FileSystem}

theorem run_of_unknown_format {e : Error} (stdin : ByteArray) (hinputs : o.inputs ≠ [])
    (hformat : o.formatOrDefault = .error e) :
    o.run fs stdin = { files := fs, failure := some (.request e) } := by
  rw [Options.run, if_neg (by simpa using hinputs), Options.runOnInputs, hformat]

theorem run_of_problem {format : Format} {warnings : List Event} {p : Inputs.Problem}
    (stdin : ByteArray) (hinputs : o.inputs ≠ []) (hformat : o.formatOrDefault = .ok format)
    (hcollect : Inputs.collect fs o.inputs = (warnings, .error p)) :
    o.run fs stdin = { files := fs, events := warnings, failure := some (.input p) } := by
  rw [Options.run, if_neg (by simpa using hinputs), Options.runOnInputs, hformat, hcollect]

/-- The documents of the inputs, unless the files of one of these cannot be told. -/
def Inputs.documents? (fs : FileSystem) (inputs : List Text) : Option (List Document) :=
  (collect fs inputs).2.toOption.map fun paths => documentsOf fs (sortedOnce paths)

/-- What a run over files has to report and in which format, unless it is refused. -/
def Options.reported? (o : Options) (fs : FileSystem) : Option (Format × List Document) :=
  o.formatOrDefault.toOption.bind fun format => (Inputs.documents? fs o.inputs).map (format, ·)

theorem run_of_reported?_eq_some {format : Format} {ds : List Document} (stdin : ByteArray)
    (hinputs : o.inputs ≠ []) (h : o.reported? fs = some (format, ds)) :
    ∃ events, o.run fs stdin = { o.report format fs ds with events } := by
  cases hformat : o.formatOrDefault with
  | error e =>
      rw [Options.reported?, hformat] at h
      cases h
  | ok format' =>
      rcases hcollect : Inputs.collect fs o.inputs with ⟨warnings, p | paths⟩ <;>
        rw [Options.reported?, hformat, Inputs.documents?, hcollect] at h
      · cases h
      · cases h
        exact run_of_collect stdin hinputs hformat hcollect

theorem run_of_reported?_eq_none (stdin : ByteArray) (hinputs : o.inputs ≠ [])
    (h : o.reported? fs = none) :
    ∃ events f, o.run fs stdin = { files := fs, events, failure := some f } := by
  cases hformat : o.formatOrDefault with
  | error e => exact ⟨[], .request e, run_of_unknown_format stdin hinputs hformat⟩
  | ok format =>
      rcases hcollect : Inputs.collect fs o.inputs with ⟨warnings, p | paths⟩
      · exact ⟨warnings, .input p, run_of_problem stdin hinputs hformat hcollect⟩
      · rw [Options.reported?, hformat, Inputs.documents?, hcollect] at h
        cases h

/-- The documents of the inputs decide what a run prints and writes. -/
theorem run_of_documents?_eq {inputs inputs' : List Text} (o : Options) (stdin : ByteArray)
    (hinputs : inputs ≠ []) (hinputs' : inputs' ≠ [])
    (h : Inputs.documents? fs inputs = Inputs.documents? fs inputs') :
    ({ o with inputs }.run fs stdin).status =
        ({ o with inputs := inputs' }.run fs stdin).status ∧
      ({ o with inputs }.run fs stdin).stdout =
        ({ o with inputs := inputs' }.run fs stdin).stdout ∧
      ({ o with inputs }.run fs stdin).files =
        ({ o with inputs := inputs' }.run fs stdin).files := by
  have hsame : { o with inputs := inputs' }.reported? fs = { o with inputs }.reported? fs := by
    rw [Options.reported?, Options.reported?, h]
    rfl
  cases hreported : { o with inputs }.reported? fs with
  | none =>
      obtain ⟨events, f, hrun⟩ :=
        run_of_reported?_eq_none (o := { o with inputs }) stdin hinputs hreported
      obtain ⟨events', f', hrun'⟩ := run_of_reported?_eq_none
        (o := { o with inputs := inputs' }) stdin hinputs' (hsame.trans hreported)
      rw [hrun, hrun']
      exact ⟨rfl, rfl, rfl⟩
  | some reported =>
      obtain ⟨events, hrun⟩ :=
        run_of_reported?_eq_some (o := { o with inputs }) stdin hinputs hreported
      obtain ⟨events', hrun'⟩ := run_of_reported?_eq_some
        (o := { o with inputs := inputs' }) stdin hinputs' (hsame.trans hreported)
      rw [hrun, hrun']
      exact ⟨rfl, rfl, rfl⟩

end DocComment
