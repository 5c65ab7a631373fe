import DocComment.Proofs.Command.Candidates

/-!
What a run that fails leaves behind. A refusal comes before anything is printed or written. When
the output of a group cannot be written, the groups before it are in their files, its own file is
untouched or holds its first bytes, and the files of the others are untouched.
-/

namespace DocComment

open FileSystem (Frame)

variable {format : Format} {directory : Text} {fs made fs' : FileSystem} {o : Options}
variable {gs before after : List Group} {g : Group} {ds : List Document} {stdin : ByteArray}

/-! The loop over the groups. -/

/-- A loop that fails has gone through the groups before the one that cannot be written. -/
theorem exists_split_of_writeGroups {f : Failure}
    (h : (writeGroups format directory fs gs).failure = some f) :
    ∃ before g after e, gs = before ++ g :: after ∧ g.document.functions ≠ [] ∧
      f = .output (g.path format directory) e ∧
      (writeGroups format directory fs before).failure = none ∧
      (writeGroups format directory fs before).files.write (g.path format directory)
        (Text.toBytes (format.render g.document)) =
          ⟨(writeGroups format directory fs gs).files, some e⟩ := by
  induction gs generalizing fs with
  | nil => cases h
  | cons g gs ih =>
      by_cases hg : g.document.functions = []
      · rw [writeGroups_of_eq_nil hg] at h ⊢
        obtain ⟨before, k, after, e, rfl, hk, hf, hnone, hwrite⟩ := ih h
        refine ⟨g :: before, k, after, e, rfl, hk, hf, ?_⟩
        rw [writeGroups_of_eq_nil hg]
        exact ⟨hnone, hwrite⟩
      · rcases hwrite : fs.write (g.path format directory)
            (Text.toBytes (format.render g.document)) with ⟨fs', _ | e⟩
        · rw [writeGroups_of_write_eq_none hg hwrite] at h ⊢
          obtain ⟨before, k, after, e, rfl, hk, hf, hnone, hwritek⟩ := ih h
          refine ⟨g :: before, k, after, e, rfl, hk, hf, ?_⟩
          rw [writeGroups_of_write_eq_none hg hwrite]
          exact ⟨hnone, hwritek⟩
        · rw [writeGroups_of_write_eq_some hg hwrite] at h ⊢
          cases h
          exact ⟨[], g, gs, e, rfl, hg, rfl, rfl, hwrite⟩

/-- What a run leaves behind that could not write the group behind `before`. If that write was cut
off, `cut` is the number of bytes that it got to. -/
structure Group.AreWrittenUntil (format : Format) (directory : Text) (before : List Group)
    (g : Group) (after : List Group) (cut : Option Nat) (fs fs' : FileSystem) : Prop extends
    AreLeft format directory (withFunctions before) (cut.map (g, ·)) fs fs' where
  /-- Where the path of a group leads that is not written, there is a file just if there was, and
  it holds what it held, unless it is the file of a group that is written. -/
  file_iff : ∀ k ∈ g :: after, ∀ loc, fs'.reach (k.path format directory) = .ok loc →
    (∀ k' ∈ withFunctions before ++ (cut.map fun _ => g).toList,
      fs'.reach (k'.path format directory) ≠ .ok loc) →
    ∀ content, fs'.node? loc = some (.file content) ↔ fs.node? loc = some (.file content)

theorem Group.areWrittenUntil_of_frame {cut : Option Nat}
    (h : Frame (directory :: Path.parents directory)
      (writings format directory (withFunctions before) (cut.map (g, ·))) fs fs') :
    AreWrittenUntil format directory before g after cut fs fs' := by
  refine ⟨areLeft_of_frame h, ?_⟩
  intro k _ loc _ hwritten content
  refine h.file_iff ?_ content
  intro w hw
  rcases List.mem_append.mp hw with hw | hw
  · obtain ⟨k', hk', rfl⟩ := List.mem_map.mp hw
    exact hwritten k' (List.mem_append_left _ hk')
  · cases cut with
    | none => cases hw
    | some size =>
        obtain rfl := List.mem_singleton.mp hw
        exact hwritten g (List.mem_append_right _ (List.mem_singleton_self g))

/-- The write that fails adds nothing to what the loop has written, or the first bytes. -/
theorem areWrittenUntil_of_write {e : OsError}
    (hmade : Frame (directory :: Path.parents directory) [] fs made)
    (hnone : (writeGroups format directory made before).failure = none)
    (hwrite : (writeGroups format directory made before).files.write (g.path format directory)
      (Text.toBytes (format.render g.document)) = ⟨fs', some e⟩) :
    Group.AreLeft format directory (Group.withFunctions before) none fs
        (writeGroups format directory made before).files ∧
      ∃ cut, Group.AreWrittenUntil format directory before g after cut fs fs' := by
  have hbefore : Frame (directory :: Path.parents directory)
      (Group.writings format directory (Group.withFunctions before) none) fs
      (writeGroups format directory made before).files := by
    rw [Group.writings, Option.toList_none, List.map_nil, List.append_nil]
    exact frame_writeGroups_of_made hmade hnone
  refine ⟨Group.areLeft_of_frame hbefore, ?_⟩
  have houtcome := FileSystem.outcome_write (writeGroups format directory made before).files
    (g.path format directory) (Text.toBytes (format.render g.document))
  rw [hwrite] at houtcome
  cases houtcome with
  | refused => exact ⟨none, Group.areWrittenUntil_of_frame hbefore⟩
  | cut size _ hcut =>
      refine ⟨some size, Group.areWrittenUntil_of_frame ?_⟩
      have hall := hbefore.trans (hcut.mono (List.nil_subset _))
      rwa [Group.writings, Option.toList_none, List.map_nil, List.append_nil] at hall

theorem areWrittenUntil_report {path : Text} {e : OsError}
    (h : (o.report format fs ds).failure = some (.output path e)) :
    ∃ directory before g after, ∃ made : FileSystem, ∃ cut, o.output = some directory ∧
      Group.ofDocuments ds = before ++ g :: after ∧ g.document.functions ≠ [] ∧
      path = g.path format directory ∧
      Group.AreLeft format directory (Group.withFunctions before) none fs made ∧
      made.write path (Text.toBytes (format.render g.document)) =
        ⟨(o.report format fs ds).files, some e⟩ ∧
      Group.AreWrittenUntil format directory before g after cut fs
        (o.report format fs ds).files := by
  rw [Options.report] at h ⊢
  cases houtput : o.output with
  | none =>
      rw [houtput] at h
      cases h
  | some directory =>
      have hmade := FileSystem.frame_createDirectories fs directory
      rw [houtput] at h
      dsimp only at h ⊢
      split at h
      · cases h
      · next made hcreate =>
          rw [hcreate] at hmade
          obtain ⟨before, g, after, e', hsplit, hg, hf, hnone, hwrite⟩ :=
            exists_split_of_writeGroups h
          cases hf
          obtain ⟨hleft, cut, huntil⟩ := areWrittenUntil_of_write hmade hnone hwrite
          exact ⟨directory, before, g, after, _, cut, rfl, hsplit, hg, rfl, hleft, hwrite, huntil⟩

theorem frame_report_of_outputDirectory {path : Text} {e : OsError}
    (h : (o.report format fs ds).failure = some (.outputDirectory path e))
    (houtput : o.output = some directory) :
    Frame (directory :: Path.parents directory) [] fs (o.report format fs ds).files := by
  have hmade := FileSystem.frame_createDirectories fs directory
  rw [Options.report, houtput] at h ⊢
  dsimp only at h ⊢
  split at h
  · next hcreate =>
      rw [hcreate] at hmade
      exact hmade
  · obtain ⟨before, g, after, e, -, -, hf, -⟩ := exists_split_of_writeGroups h
    cases hf

/-! The run as a whole. -/

/-- Failures from before the first file is written. -/
def Failure.IsRefusal : Failure → Prop
  | .standardInput | .request _ | .input _ => True
  | .outputDirectory .. | .output .. => False

/-- There is no such format, an input is a bad pattern or a directory that cannot be listed, or
standard input is no text. -/
inductive Options.IsRefused (o : Options) (fs : FileSystem) (stdin : ByteArray) : Prop where
  | format {e : Error} (h : o.formatOrDefault = .error e)
  | input {input : Text} (hinput : input ∈ o.inputs) {p : Inputs.Problem}
      (h : Inputs.candidates fs input = .error p)
  | stdin (hinputs : o.inputs = []) (h : Text.ofBytes? stdin = none)

theorem not_isRefusal_of_report {f : Failure} (h : (o.report format fs ds).failure = some f) :
    ¬ f.IsRefusal := by
  rw [Options.report] at h
  split at h
  · cases h
  · split at h
    · cases h
      exact not_false
    · obtain ⟨before, g, after, e, -, -, rfl, -⟩ := exists_split_of_writeGroups h
      exact not_false

/-- All that can become of a run. -/
inductive Options.RunsTo (o : Options) (fs : FileSystem) (stdin : ByteArray) : Outcome → Prop where
  | refused (events : List Event) {f : Failure} (h : o.IsRefused fs stdin) (hf : f.IsRefusal) :
      RunsTo o fs stdin { files := fs, events, failure := some f }
  | printed (events : List Event) (stdout : Text) (h : ¬ o.IsRefused fs stdin) :
      RunsTo o fs stdin { files := fs, events, stdout }
  | reported (events : List Event) {format : Format} {warnings : List Event}
      {candidates : List Text} (h : ¬ o.IsRefused fs stdin)
      (hinputs : o.inputs ≠ []) (hformat : o.formatOrDefault = .ok format)
      (hcollect : Inputs.collect fs o.inputs = (warnings, .ok candidates)) :
      RunsTo o fs stdin
        { o.report format fs (documentsOf fs (Inputs.sortedOnce candidates)) with events }

theorem Options.runsTo_run (o : Options) (fs : FileSystem) (stdin : ByteArray) :
    o.RunsTo fs stdin (o.run fs stdin) := by
  by_cases hinputs : o.inputs = []
  · rw [run, if_pos (List.isEmpty_iff.mpr hinputs), runOnStdin]
    cases hstdin : Text.ofBytes? stdin with
    | none => exact .refused [] (.stdin hinputs hstdin) trivial
    | some text =>
        cases hformat : o.formatOrDefault with
        | error e => exact .refused _ (.format hformat) trivial
        | ok format =>
            refine .printed _ _ ?_
            intro h
            cases h with
            | format h => rw [hformat] at h; cases h
            | input hinput h => rw [hinputs] at hinput; cases hinput
            | stdin _ h => rw [hstdin] at h; cases h
  · cases hformat : o.formatOrDefault with
    | error e =>
        rw [run_of_unknown_format stdin hinputs hformat]
        exact .refused [] (.format hformat) trivial
    | ok format =>
        cases hcollect : Inputs.collect fs o.inputs with
        | mk warnings result =>
            cases result with
            | error p =>
                rw [run_of_problem stdin hinputs hformat hcollect]
                obtain ⟨input, hinput, he⟩ :=
                  Inputs.exists_of_collect_eq_error (congrArg Prod.snd hcollect)
                exact .refused warnings (.input hinput he) trivial
            | ok candidates =>
                obtain ⟨events, hrun⟩ := run_of_collect stdin hinputs hformat hcollect
                rw [hrun]
                refine .reported events ?_ hinputs hformat hcollect
                intro h
                cases h with
                | format h => rw [hformat] at h; cases h
                | input hinput h =>
                    obtain ⟨found, hfound⟩ :=
                      (Inputs.of_collect_eq_ok (congrArg Prod.snd hcollect)).1 _ hinput
                    rw [hfound] at h
                    cases h
                | stdin hnil _ => exact hinputs hnil

theorem Outcome.exists_failure_of_status {outcome : Outcome} (h : outcome.status = 1) :
    ∃ f, outcome.failure = some f := by
  rw [status] at h
  cases hf : outcome.failure with
  | none =>
      rw [hf] at h
      cases h
  | some f => exact ⟨f, rfl⟩

theorem stdout_report_of_failure {f : Failure} (h : (o.report format fs ds).failure = some f) :
    (o.report format fs ds).stdout = [] := by
  cases houtput : o.output with
  | none =>
      rw [Options.report, houtput] at h
      cases h
  | some directory => exact stdout_report houtput

/-- A run that fails prints nothing. It is refused just if the name of the format is unknown, the
files of some input cannot be told or standard input is no text, and then it leaves the files as
they are. If it cannot write the output of a group, it has written the groups before that one and no
other, but for the first bytes of that one, if writing it was cut off. -/
theorem failed_run_leaves (o : Options) (fs : FileSystem) (stdin : ByteArray) :
    ((o.run fs stdin).status = 1 → (o.run fs stdin).stdout = []) ∧
      (o.IsRefused fs stdin ↔ ∃ f, (o.run fs stdin).failure = some f ∧ f.IsRefusal) ∧
      (o.IsRefused fs stdin → (o.run fs stdin).files = fs) ∧
      ∀ path e, (o.run fs stdin).failure = some (.output path e) →
        ∃ format directory warnings candidates before g after, ∃ made : FileSystem, ∃ cut,
          o.formatOrDefault = .ok format ∧ o.output = some directory ∧
          Inputs.collect fs o.inputs = (warnings, .ok candidates) ∧
          Group.ofDocuments (documentsOf fs (Inputs.sortedOnce candidates)) =
            before ++ g :: after ∧
          g.document.functions ≠ [] ∧ path = g.path format directory ∧
          Group.AreLeft format directory (Group.withFunctions before) none fs made ∧
          made.write path (Text.toBytes (format.render g.document)) =
            ⟨(o.run fs stdin).files, some e⟩ ∧
          Group.AreWrittenUntil format directory before g after cut fs
            (o.run fs stdin).files := by
  have hruns := o.runsTo_run fs stdin
  generalize o.run fs stdin = outcome at hruns ⊢
  cases hruns with
  | refused events hrefused hf =>
      refine ⟨fun _ => rfl, ⟨fun _ => ⟨_, rfl, hf⟩, fun _ => hrefused⟩, fun _ => rfl, ?_⟩
      intro path e heq
      cases heq
      exact hf.elim
  | printed events stdout hrefused =>
      refine ⟨nofun, ⟨fun h => absurd h hrefused, nofun⟩, fun _ => rfl, nofun⟩
  | reported events hrefused hinputs hformat hcollect =>
      refine ⟨?_, ⟨fun h => absurd h hrefused, ?_⟩, fun h => absurd h hrefused, ?_⟩
      · intro h
        obtain ⟨f, hf⟩ := Outcome.exists_failure_of_status h
        exact stdout_report_of_failure hf
      · rintro ⟨f, hf, hrefusal⟩
        exact absurd hrefusal (not_isRefusal_of_report hf)
      · intro path e hf
        obtain ⟨directory, before, g, after, made, cut, houtput, hsplit, hg, hpath, hleft, hwrite,
          huntil⟩ := areWrittenUntil_report hf
        exact ⟨_, directory, _, _, before, g, after, made, cut, hformat, houtput, hcollect, hsplit,
          hg, hpath, hleft, hwrite, huntil⟩

theorem failed_run_leaves_first_output :
    ∃ (o : Options) (fs : FileSystem) (before : List Group) (g : Group) (after : List Group)
      (cut : Option Nat),
      o.inputs = ["b.md".toList, "a.md".toList, "c.md".toList] ∧
      fs.isDirectory "out/b.json".toList = true ∧
      (o.run fs .empty).status = 1 ∧ (o.run fs .empty).stdout = [] ∧
      (o.run fs .empty).failure = some (.output "out/b.json".toList .isDirectory) ∧
      before.map (·.name) = ["a".toList] ∧ g.name = "b".toList ∧
      after.map (·.name) = ["c".toList] ∧
      Group.AreWrittenUntil .json "out".toList before g after cut fs (o.run fs .empty).files := by
  let paths := ["a.md".toList, "b.md".toList, "c.md".toList]
  let inputs := ["b.md".toList, "a.md".toList, "c.md".toList]
  let o : Options := { inputs, output := some "out".toList }
  let fs : FileSystem :=
    { nodes := [(["a.md".toList], .file (Text.toBytes "A.".toList)),
        (["b.md".toList], .file (Text.toBytes "B.".toList)),
        (["c.md".toList], .file (Text.toBytes "C.".toList)),
        (["out".toList], .directory), (["out".toList, "b.json".toList], .directory)]
      nodup_locations := by decide }
  have hinputs : o.inputs ≠ [] := by decide
  have hformat : o.formatOrDefault = .ok .json := rfl
  have hcollect : Inputs.collect fs o.inputs = ([], .ok inputs) := by decide +kernel
  have hpaths : Inputs.sortedOnce inputs = paths := by
    have hsorted : Inputs.sortedOnce paths = paths := Inputs.sortedOnce_eq_self (by decide)
    rw [← hsorted]
    exact Inputs.sortedOnce_eq_of_mem_iff
      (fun _ => (List.Perm.swap "a.md".toList "b.md".toList ["c.md".toList]).mem_iff) (by decide)
  have hreport : (o.report .json fs (documentsOf fs paths)).failure =
      some (.output "out/b.json".toList .isDirectory) := by decide +kernel
  have hgroups : (Group.ofDocuments (documentsOf fs paths)).map (·.name) =
      ["a".toList, "b".toList, "c".toList] := by decide +kernel
  have hfailure : (o.run fs .empty).failure =
      some (.output "out/b.json".toList .isDirectory) :=
    (run_of_sorted .empty hinputs hformat hcollect hpaths).1.trans hreport
  have hstatus : (o.run fs .empty).status = 1 := by
    rw [Outcome.status, hfailure]
    rfl
  obtain ⟨hstdout, -, -, houtput⟩ := failed_run_leaves o fs .empty
  obtain ⟨format, directory, warnings, candidates, before, g, after, made, cut, hformat',
    hdirectory, hcandidates, hsplit, -, hpath, -, -, huntil⟩ := houtput _ _ hfailure
  rw [hcollect] at hcandidates
  cases hcandidates
  cases hformat'
  cases hdirectory
  rw [hpaths] at hsplit
  rw [hsplit, List.map_append, List.map_cons] at hgroups
  have hname : g.name = "b".toList := by
    have hmem : g.name ∈ ["a".toList, "b".toList, "c".toList] :=
      hgroups ▸ List.mem_append_right _ (List.mem_cons_self ..)
    simp only [List.mem_cons, List.not_mem_nil, or_false] at hmem
    rw [Group.path] at hpath
    rcases hmem with ha | hb | hc
    · rw [ha] at hpath
      exact absurd hpath (by decide)
    · exact hb
    · rw [hc] at hpath
      exact absurd hpath (by decide)
  have hnodup : (before.map (·.name) ++ g.name :: after.map (·.name)).Nodup := hgroups ▸ by decide
  have hbefore : g.name ∉ before.map (·.name) :=
    fun h => List.disjoint_of_nodup_append hnodup h (List.mem_cons_self ..)
  rw [hname] at hgroups hbefore
  obtain ⟨hnames, hnames'⟩ := append_cons_inj (m := ["a".toList]) (s := ["c".toList]) hbefore
    (by decide) hgroups
  exact ⟨o, fs, before, g, after, cut, rfl, by decide, hstatus, hstdout hstatus, hfailure, hnames,
    hname, hnames', huntil⟩

/-- A file that held another output is empty, since the device was full; and a directory that is new
by the run stands where the output that cannot be written would be. -/
theorem failed_run_changes_output :
    (∃ (o : Options) (fs : FileSystem) (g : Group) (content : ByteArray),
      o.inputs = ["a.md".toList] ∧
      Group.ofDocuments (documentsOf fs o.inputs) = [g] ∧
      (o.run fs .empty).failure = some (.output (g.path .json "out".toList)
        (.other "No space left on device".toList 28)) ∧
      fs.find? (g.path .json "out".toList) = some (.file content) ∧
      (o.run fs .empty).files.find? (g.path .json "out".toList) = some (.file .empty) ∧
      content ≠ .empty) ∧
    ∃ (o : Options) (fs : FileSystem) (g g' : Group),
      o.inputs = ["a.md".toList, "b.md".toList] ∧ o.output = some "x/b.json/..".toList ∧
      Group.ofDocuments (documentsOf fs o.inputs) = [g, g'] ∧
      (o.run fs .empty).failure =
        some (.output (g'.path .json "x/b.json/..".toList) .isDirectory) ∧
      fs.find? "x/b.json".toList = none ∧
      (o.run fs .empty).files.locate (g'.path .json "x/b.json/..".toList) =
        .ok ["x".toList, "b.json".toList] ∧
      (o.run fs .empty).files.node? ["x".toList, "b.json".toList] = some .directory := by
  refine ⟨?_, ?_⟩
  · let o : Options := { inputs := ["a.md".toList], output := some "out".toList }
    let fs : FileSystem :=
      { nodes := [(["a.md".toList], .file (Text.toBytes "A.".toList)),
          (["out".toList], .directory),
          (["out".toList, "a.json".toList], .file (Text.toBytes "[]".toList))]
        nodup_locations := by decide
        faults :=
          { write := fun _ _ => some (.cut 0 (.other "No space left on device".toList 28)) } }
    have hcollect : Inputs.collect fs o.inputs = ([], .ok o.inputs) := by decide +kernel
    obtain ⟨hfailure, hfiles⟩ := run_of_sorted .empty (by decide)
      (rfl : o.formatOrDefault = .ok .json) hcollect (Inputs.sortedOnce_eq_self (by decide))
    refine ⟨o, fs, ⟨"a".toList, .merged (documentsOf fs o.inputs)⟩, Text.toBytes "[]".toList, rfl,
      by decide +kernel, ?_, by decide +kernel, ?_, by decide +kernel⟩
    · rw [hfailure]
      decide +kernel
    · rw [hfiles]
      decide +kernel
  · let o : Options :=
      { inputs := ["a.md".toList, "b.md".toList], output := some "x/b.json/..".toList }
    let fs : FileSystem :=
      { nodes := [(["a.md".toList], .file (Text.toBytes "A.".toList)),
          (["b.md".toList], .file (Text.toBytes "B.".toList))]
        nodup_locations := by decide }
    have hcollect : Inputs.collect fs o.inputs = ([], .ok o.inputs) := by decide +kernel
    obtain ⟨hfailure, hfiles⟩ := run_of_sorted .empty (by decide)
      (rfl : o.formatOrDefault = .ok .json) hcollect (Inputs.sortedOnce_eq_self (by decide))
    let g : Group := ⟨"a".toList, .merged (documentsOf fs ["a.md".toList])⟩
    let g' : Group := ⟨"b".toList, .merged (documentsOf fs ["b.md".toList])⟩
    refine ⟨o, fs, g, g', rfl, rfl, by decide +kernel, ?_, by decide +kernel, ?_, ?_⟩
    · rw [hfailure]
      decide +kernel
    · rw [hfiles]
      decide +kernel
    · rw [hfiles]
      decide +kernel

end DocComment
