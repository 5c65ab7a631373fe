import DocComment.Command.Run
import DocComment.Proofs.Command.Inputs
import DocComment.Proofs.FileSystem.Frame
import DocComment.Proofs.Group

/-!
What a run leaves in its output directory. The loop over the groups writes one file after the
other, each to an entry of its own, since groups differ in their names. What the entries lead to may
be one file for several groups, which holds the last of them in the end; nothing beside these files
has changed.
-/

namespace DocComment

open FileSystem (Frame Writing)

variable {format : Format} {directory : Text} {fs fs' : FileSystem} {loc : Location}
variable {gs : List Group} {g g' : Group} {ds : List Document} {o : Options}

namespace Group

/-- The path of the file for a group. -/
def path (format : Format) (directory : Text) (g : Group) : Text :=
  Path.join directory (g.name ++ '.' :: format.extension)

/-- What is written of a group. -/
def writing (format : Format) (directory : Text) (g : Group) : Writing :=
  ⟨g.path format directory, Text.toBytes (format.render g.document)⟩

/-- What is written of groups, one after the other, and at last so many bytes of one more. -/
def writings (format : Format) (directory : Text) (gs : List Group) (cut : Option (Group × Nat)) :
    List Writing :=
  gs.map (writing format directory) ++ cut.toList.map fun (g, size) =>
    ⟨g.path format directory, (Text.toBytes (format.render g.document)).extract 0 size⟩

/-- The groups that have functions. -/
def withFunctions (gs : List Group) : List Group :=
  gs.filter fun g => !g.document.functions.isEmpty

theorem getLast?_of_locate_path (hname : '/' ∉ g.name)
    (h : fs.locate (g.path format directory) = .ok loc) :
    loc.getLast? = some (g.name ++ '.' :: format.extension) := by
  have hextension : '/' ∉ format.extension ∧ 1 < format.extension.length := by
    cases format <;> decide
  have hslash : '/' ∉ g.name ++ '.' :: format.extension := by
    rw [List.mem_append, List.mem_cons]
    rintro (h | h | h)
    · exact hname h
    · cases h
    · exact hextension.1 h
  have hlength : 2 < (g.name ++ '.' :: format.extension).length := by
    rw [List.length_append, List.length_cons]
    omega
  have hne : g.name ++ '.' :: format.extension ≠ [] :=
    List.append_ne_nil_of_right_ne_nil _ (List.cons_ne_nil '.' _)
  obtain ⟨front, hsegments⟩ := Path.exists_splitOn_join directory hslash hne
  obtain ⟨-, -, d, -, -, rfl⟩ := (FileSystem.locate_eq_ok_iff_of_name hsegments
    (Path.ofSegment?_eq_name_of_length hlength)).mp h
  exact List.getLast?_concat

/-- Entries of different groups are different. -/
theorem name_eq_of_locate_path (hname : '/' ∉ g.name) (hname' : '/' ∉ g'.name)
    (h : fs.locate (g.path format directory) = .ok loc)
    (h' : fs.locate (g'.path format directory) = .ok loc) : g.name = g'.name := by
  have hlast := getLast?_of_locate_path hname h
  rw [getLast?_of_locate_path hname' h', Option.some.injEq] at hlast
  exact (List.append_cancel_right hlast).symm

theorem slash_not_mem_name (h : g ∈ ofDocuments ds) : '/' ∉ g.name := by
  obtain ⟨d, -, hname⟩ := mem_map_name_ofDocuments.mp (List.mem_map_of_mem h)
  exact hname ▸ slash_not_mem_outputName _

theorem withFunctions_cons_of_eq_nil (hg : g.document.functions = []) :
    withFunctions (g :: gs) = withFunctions gs := by
  rw [withFunctions, List.filter_cons, if_neg (by simpa using hg), withFunctions]

theorem withFunctions_cons_of_ne_nil (hg : g.document.functions ≠ []) :
    withFunctions (g :: gs) = g :: withFunctions gs := by
  rw [withFunctions, List.filter_cons, if_pos (by simpa using hg), withFunctions]

theorem withFunctions_append (gs gs' : List Group) :
    withFunctions (gs ++ gs') = withFunctions gs ++ withFunctions gs' :=
  List.filter_append ..

theorem flatMap_functions_withFunctions (gs : List Group) :
    (withFunctions gs).flatMap (·.document.functions) = gs.flatMap (·.document.functions) := by
  induction gs with
  | nil => rfl
  | cons g gs ih =>
      rw [List.flatMap_cons, ← ih]
      by_cases hg : g.document.functions = []
      · rw [withFunctions_cons_of_eq_nil hg, hg, List.nil_append]
      · rw [withFunctions_cons_of_ne_nil hg, List.flatMap_cons]

end Group

/-! The loop over the groups. -/

theorem writeGroups_of_eq_nil (hg : g.document.functions = []) :
    writeGroups format directory fs (g :: gs) =
      { writeGroups format directory fs gs with
        events := .emptyOutput g.name :: (writeGroups format directory fs gs).events } := by
  rw [writeGroups, hg]
  rfl

theorem writeGroups_of_write_eq_some {e : OsError} (hg : g.document.functions ≠ [])
    (hwrite : fs.write (g.path format directory) (Text.toBytes (format.render g.document)) =
      ⟨fs', some e⟩) :
    writeGroups format directory fs (g :: gs) =
      { files := fs', failure := some (.output (g.path format directory) e) } := by
  have hempty : ¬ g.document.functions.isEmpty = true := fun h => hg (List.isEmpty_iff.mp h)
  rw [Group.path] at hwrite
  simp only [writeGroups, if_neg hempty, hwrite]
  rfl

theorem writeGroups_of_write_eq_none (hg : g.document.functions ≠ [])
    (hwrite : fs.write (g.path format directory) (Text.toBytes (format.render g.document)) =
      ⟨fs', none⟩) :
    writeGroups format directory fs (g :: gs) =
      { writeGroups format directory fs' gs with
        events := .wrote (g.path format directory) ::
          (writeGroups format directory fs' gs).events } := by
  have hempty : ¬ g.document.functions.isEmpty = true := fun h => hg (List.isEmpty_iff.mp h)
  rw [Group.path] at hwrite
  simp only [writeGroups, if_neg hempty, hwrite]
  rfl

theorem stdout_writeGroups (gs : List Group) (fs : FileSystem) :
    (writeGroups format directory fs gs).stdout = [] := by
  induction gs generalizing fs with
  | nil => rfl
  | cons g gs ih =>
      by_cases hg : g.document.functions = []
      · rw [writeGroups_of_eq_nil hg]
        exact ih fs
      · rcases hwrite : fs.write (g.path format directory)
            (Text.toBytes (format.render g.document)) with ⟨fs', _ | e⟩
        · rw [writeGroups_of_write_eq_none hg hwrite]
          exact ih fs'
        · rw [writeGroups_of_write_eq_some hg hwrite]

theorem frame_of_write_eq_none (hwrite : fs.write (g.path format directory)
    (Text.toBytes (format.render g.document)) = ⟨fs', none⟩) :
    Frame [] [g.writing format directory] fs fs' := by
  have h := FileSystem.outcome_write fs (g.path format directory)
    (Text.toBytes (format.render g.document))
  rw [hwrite] at h
  cases h with
  | done h => exact h

theorem frame_writeGroups (h : (writeGroups format directory fs gs).failure = none) :
    Frame [] ((Group.withFunctions gs).map (Group.writing format directory)) fs
      (writeGroups format directory fs gs).files := by
  induction gs generalizing fs with
  | nil => exact Frame.refl ..
  | cons g gs ih =>
      by_cases hg : g.document.functions = []
      · rw [writeGroups_of_eq_nil hg] at h ⊢
        rw [Group.withFunctions_cons_of_eq_nil hg]
        exact ih h
      · rw [Group.withFunctions_cons_of_ne_nil hg]
        rcases hwrite : fs.write (g.path format directory)
            (Text.toBytes (format.render g.document)) with ⟨fs', _ | e⟩
        · rw [writeGroups_of_write_eq_none hg hwrite] at h ⊢
          exact (frame_of_write_eq_none hwrite).trans (ih h)
        · rw [writeGroups_of_write_eq_some hg hwrite] at h
          cases h

theorem frame_writeGroups_of_made {made : FileSystem} {directories : List Text}
    (hmade : Frame directories [] fs made)
    (h : (writeGroups format directory made gs).failure = none) :
    Frame directories ((Group.withFunctions gs).map (Group.writing format directory)) fs
      (writeGroups format directory made gs).files :=
  hmade.trans ((frame_writeGroups h).mono (List.nil_subset directories))

/-- The outputs that a run leaves in a directory: groups, one after the other, and at last so many
bytes of one more, if writing it was cut off. -/
structure Group.AreLeft (format : Format) (directory : Text) (gs : List Group)
    (cut : Option (Group × Nat)) (fs fs' : FileSystem) : Prop where
  /-- Nothing else has changed, but that the directory and those around it may be new. -/
  frame : Frame (directory :: Path.parents directory) (writings format directory gs cut) fs fs'
  /-- A group is the content of its file, unless one that comes later has the same file. -/
  find?_eq : ∀ before g after, gs = before ++ g :: after →
    (∀ k ∈ after ++ (cut.map Prod.fst).toList,
      fs'.reach (k.path format directory) ≠ fs'.reach (g.path format directory)) →
    fs'.find? (g.path format directory) = some (.file (Text.toBytes (format.render g.document)))
  /-- Of a group that is cut off, the file holds the first bytes. -/
  find?_cut : ∀ g size, cut = some (g, size) → fs'.find? (g.path format directory) =
    some (.file ((Text.toBytes (format.render g.document)).extract 0 size))

theorem Group.areLeft_of_frame {cut : Option (Group × Nat)}
    (h : Frame (directory :: Path.parents directory) (writings format directory gs cut) fs fs') :
    AreLeft format directory gs cut fs fs' := by
  refine ⟨h, ?_, ?_⟩
  · rintro before g after rfl hafter
    rw [writings, List.map_append, List.map_cons, List.append_assoc, List.cons_append] at h
    -- Behind the group come the later groups and the one that is cut off.
    refine h.find?_eq (w := g.writing format directory) ?_
    intro w hw
    rcases List.mem_append.mp hw with hw | hw
    · obtain ⟨k, hk, rfl⟩ := List.mem_map.mp hw
      exact hafter k (List.mem_append_left _ hk)
    · obtain ⟨⟨k, size⟩, hk, rfl⟩ := List.mem_map.mp hw
      refine hafter k (List.mem_append_right after ?_)
      rw [Option.mem_toList] at hk ⊢
      exact Option.mem_map_of_mem Prod.fst hk
  · rintro g size rfl
    have hlast : Frame (directory :: Path.parents directory)
        (gs.map (writing format directory) ++ [⟨g.path format directory,
          (Text.toBytes (format.render g.document)).extract 0 size⟩]) fs fs' := h
    exact hlast.find?_eq nofun

/-- The last group is the content of its file. -/
theorem Group.AreLeft.find?_last (h : AreLeft format directory gs none fs fs')
    (hlast : gs.getLast? = some g) : fs'.find? (g.path format directory) =
      some (.file (Text.toBytes (format.render g.document))) := by
  obtain ⟨before, rfl⟩ := List.getLast?_eq_some_iff.mp hlast
  refine h.find?_eq before g [] rfl ?_
  intro k hk
  exact absurd hk List.not_mem_nil

/-! The run as a whole. -/

/-- The document of a file that is a text of a supported type. -/
def documentOf? (fs : FileSystem) (path : Text) : Option Document :=
  (fs.readText path).toOption.bind fun text => (Document.ofFile path text).toOption

def documentsOf (fs : FileSystem) (paths : List Text) : List Document :=
  paths.filterMap (documentOf? fs)

/-- What a run leaves behind that reports documents into a directory: the groups of the documents
that have functions. -/
structure Document.AreReported (format : Format) (directory : Text) (ds : List Document)
    (fs fs' : FileSystem) : Prop extends
    Group.AreLeft format directory (Group.withFunctions (Group.ofDocuments ds)) none fs fs' where
  /-- Two groups never have one entry. -/
  eq_of_locate : ∀ g ∈ Group.ofDocuments ds, ∀ g' ∈ Group.ofDocuments ds, ∀ loc,
    fs'.locate (g.path format directory) = .ok loc →
      fs'.locate (g'.path format directory) = .ok loc → g = g'
  /-- A group holds the documents of its output, in order. -/
  document_eq : ∀ g ∈ Group.ofDocuments ds,
    g.document = .merged (ds.filter fun d => d.output = g.name)
  /-- The groups hold all functions, each of them once. -/
  functions_perm : ((Group.withFunctions (Group.ofDocuments ds)).flatMap
    (·.document.functions)).Perm (ds.flatMap (·.functions))

theorem readDocument_snd (fs : FileSystem) (path : Text) :
    (readDocument fs path).2 = documentOf? fs path := by
  rw [readDocument, documentOf?]
  cases fs.readText path with
  | error e => rfl
  | ok text => cases hfile : Document.ofFile path text <;> simp [Except.toOption, hfile]

theorem filterMap_readDocument (fs : FileSystem) (paths : List Text) :
    (paths.map (readDocument fs)).filterMap Prod.snd = documentsOf fs paths := by
  rw [List.filterMap_map, documentsOf]
  congr 1
  funext path
  exact readDocument_snd fs path

theorem Document.source_ofFile {path text : Text} {d : Document} (h : ofFile path text = .ok d) :
    d.source = some path ∧ ∀ f ∈ d.functions, f.source = some path := by
  rw [ofFile] at h
  split at h
  · cases h
  · cases h
    refine ⟨rfl, ?_⟩
    intro f hf
    obtain ⟨f', -, rfl⟩ := List.mem_map.mp hf
    rfl

theorem source_documentOf? {path : Text} {d : Document} (h : documentOf? fs path = some d) :
    d.source = some path ∧ ∀ f ∈ d.functions, f.source = some path := by
  obtain ⟨text, -, hfile⟩ := Option.bind_eq_some_iff.mp h
  cases hd : Document.ofFile path text with
  | error e =>
      rw [hd] at hfile
      cases hfile
  | ok e =>
      rw [hd] at hfile
      cases hfile
      exact Document.source_ofFile hd

/-- Documents have the paths for sources, in their order. -/
theorem map_source_documentsOf (fs : FileSystem) (paths : List Text) :
    ((documentsOf fs paths).map (·.source)).Sublist (paths.map some) := by
  induction paths with
  | nil => exact .slnil
  | cons path paths ih =>
      rw [documentsOf]
      cases hd : documentOf? fs path with
      | none =>
          rw [List.filterMap_cons_none hd]
          exact ih.cons (some path)
      | some d =>
          rw [List.filterMap_cons_some hd, List.map_cons, (source_documentOf? hd).1]
          exact ih.cons_cons (some path)

theorem source_of_mem_documentsOf {paths : List Text} {d : Document}
    (hd : d ∈ documentsOf fs paths) : ∀ f ∈ d.functions, f.source = d.source := by
  obtain ⟨path, -, hpath⟩ := List.mem_filterMap.mp hd
  obtain ⟨hsource, hfunctions⟩ := source_documentOf? hpath
  intro f hf
  rw [hfunctions f hf, hsource]

theorem areReported_report (houtput : o.output = some directory)
    (h : (o.report format fs ds).failure = none) :
    Document.AreReported format directory ds fs (o.report format fs ds).files := by
  have hmade := FileSystem.frame_createDirectories fs directory
  rw [Options.report, houtput] at h ⊢
  dsimp only at h ⊢
  split at h
  · cases h
  · next fs' hcreate =>
      rw [hcreate] at hmade
      refine ⟨Group.areLeft_of_frame ?_, ?_, fun g hg => Group.document_of_mem_ofDocuments hg, ?_⟩
      · rw [Group.writings, Option.toList_none, List.map_nil, List.append_nil]
        exact frame_writeGroups_of_made hmade h
      · intro g hg g' hg' loc hloc hloc'
        exact Group.eq_of_name_eq hg hg' (Group.name_eq_of_locate_path
          (Group.slash_not_mem_name hg) (Group.slash_not_mem_name hg') hloc hloc')
      · rw [Group.flatMap_functions_withFunctions]
        exact Group.flatMap_functions_ofDocuments ds

theorem stdout_report (houtput : o.output = some directory) :
    (o.report format fs ds).stdout = [] := by
  rw [Options.report, houtput]
  dsimp only
  split
  · rfl
  · exact stdout_writeGroups ..

theorem Outcome.failure_of_status {outcome : Outcome} (h : outcome.status = 0) :
    outcome.failure = none := by
  rw [status] at h
  cases hf : outcome.failure with
  | none => rfl
  | some f =>
      rw [hf] at h
      cases h

/-- A run over files reports the documents of the sorted paths; only the events are more. -/
theorem run_of_collect {warnings : List Event} {candidates : List Text} (stdin : ByteArray)
    (hinputs : o.inputs ≠ []) (hformat : o.formatOrDefault = .ok format)
    (hcollect : Inputs.collect fs o.inputs = (warnings, .ok candidates)) :
    ∃ events, o.run fs stdin =
      { o.report format fs (documentsOf fs (Inputs.sortedOnce candidates)) with events } := by
  have hempty : ¬ o.inputs.isEmpty = true := fun hnil => hinputs (List.isEmpty_iff.mp hnil)
  rw [Options.run, if_neg hempty, Options.runOnInputs, hformat, hcollect]
  dsimp only
  rw [filterMap_readDocument]
  exact ⟨_, rfl⟩

theorem run_of_sorted {warnings : List Event} {candidates paths : List Text}
    (stdin : ByteArray) (hinputs : o.inputs ≠ []) (hformat : o.formatOrDefault = .ok format)
    (hcollect : Inputs.collect fs o.inputs = (warnings, .ok candidates))
    (hpaths : Inputs.sortedOnce candidates = paths) :
    (o.run fs stdin).failure = (o.report format fs (documentsOf fs paths)).failure ∧
      (o.run fs stdin).files = (o.report format fs (documentsOf fs paths)).files := by
  obtain ⟨events, hrun⟩ := run_of_collect stdin hinputs hformat hcollect
  rw [hrun, hpaths]
  exact ⟨rfl, rfl⟩

theorem exists_collect_of_run {stdin : ByteArray} (hinputs : o.inputs ≠ [])
    (h : (o.run fs stdin).failure = none) :
    ∃ format warnings candidates, o.formatOrDefault = .ok format ∧
      Inputs.collect fs o.inputs = (warnings, .ok candidates) := by
  have hempty : ¬ o.inputs.isEmpty = true := fun hnil => hinputs (List.isEmpty_iff.mp hnil)
  rw [Options.run, if_neg hempty, Options.runOnInputs] at h
  split at h
  · cases h
  · next format hformat =>
      split at h
      · cases h
      · next warnings candidates hcollect =>
          exact ⟨format, warnings, candidates, hformat, hcollect⟩

/-- A run over files that reports into a directory and succeeds prints nothing. It writes the
groups of the documents that the sorted paths give, and changes nothing else; the paths are the
candidates, each once in one spelling, and each document has the functions of one path. -/
theorem reported_of_run_into_directory {stdin : ByteArray} (hinputs : o.inputs ≠ [])
    (houtput : o.output = some directory) (h : (o.run fs stdin).status = 0) :
    (o.run fs stdin).stdout = [] ∧ ∃ format warnings candidates,
      o.formatOrDefault = .ok format ∧ Inputs.collect fs o.inputs = (warnings, .ok candidates) ∧
      let paths := Inputs.sortedOnce candidates
      let documents := documentsOf fs paths
      Document.AreReported format directory documents fs (o.run fs stdin).files ∧
      (paths.Pairwise fun p q => Path.le p q = true ∧ Path.same p q = false) ∧
      (∀ p ∈ paths, p ∈ candidates) ∧
      (∀ p ∈ candidates, ∃ q ∈ paths, Path.same q p = true) ∧
      (documents.map (·.source)).Sublist (paths.map some) ∧
      ∀ d ∈ documents, ∀ f ∈ d.functions, f.source = d.source := by
  have hfailure := Outcome.failure_of_status h
  obtain ⟨format, warnings, candidates, hformat, hcollect⟩ := exists_collect_of_run hinputs hfailure
  obtain ⟨events, hrun⟩ := run_of_collect stdin hinputs hformat hcollect
  rw [hrun] at hfailure ⊢
  refine ⟨stdout_report houtput, format, warnings, candidates, hformat, hcollect, ?_⟩
  intro paths documents
  exact ⟨areReported_report houtput hfailure, Inputs.pairwise_sortedOnce candidates,
    fun p hp => Inputs.mem_of_mem_sortedOnce hp, fun p hp => Inputs.exists_mem_sortedOnce hp,
    map_source_documentsOf fs paths, fun d hd => source_of_mem_documentsOf hd⟩

theorem reported_of_run_into_directory_shared :
    ∃ (o : Options) (fs : FileSystem) (documents : List Document),
      o.inputs = ["src/api.py".toList, "src/api.rs".toList] ∧ o.output = some "out".toList ∧
      (o.run fs .empty).status = 0 ∧ (o.run fs .empty).stdout = [] ∧
      Document.AreReported .json "out".toList documents fs (o.run fs .empty).files ∧
      documents.map (fun d => d.functions.map fun f => (f.name, f.source)) =
        [[("a".toList, some "src/api.py".toList)], [("b".toList, some "src/api.rs".toList)]] ∧
      (Group.withFunctions (Group.ofDocuments documents)).map (·.name) = ["api".toList] := by
  let paths := ["src/api.py".toList, "src/api.rs".toList]
  let o : Options := { inputs := paths, output := some "out".toList }
  let fs : FileSystem :=
    { nodes := [(["src".toList], .directory),
        (["src".toList, "api.py".toList],
          .file (Text.toBytes "def a():\n    \"\"\"A.\"\"\"\n".toList)),
        (["src".toList, "api.rs".toList], .file (Text.toBytes "/// B.\nfn b() {}\n".toList))]
      nodup_locations := by decide }
  have hinputs : o.inputs ≠ [] := by decide
  have hformat : o.formatOrDefault = .ok .json := rfl
  have hcollect : Inputs.collect fs o.inputs = ([], .ok paths) := by decide +kernel
  have hpaths : Inputs.sortedOnce paths = paths := Inputs.sortedOnce_eq_self (by decide)
  have hnone : (o.report .json fs (documentsOf fs paths)).failure = none := by decide +kernel
  have hstatus : (o.run fs .empty).status = 0 := by
    rw [Outcome.status, (run_of_sorted .empty hinputs hformat hcollect hpaths).1, hnone]
    rfl
  obtain ⟨hstdout, format, warnings, candidates, hformat', hcandidates, hreported, -⟩ :=
    reported_of_run_into_directory hinputs rfl hstatus
  rw [hcollect] at hcandidates
  cases hcandidates
  cases hformat'
  rw [hpaths] at hreported
  exact ⟨o, fs, documentsOf fs paths, rfl, rfl, hstatus, hstdout, hreported, by decide +kernel,
    by decide +kernel⟩

/-- The outputs of two groups are one file, which holds the second of them; and a directory is new
that is none around the output directory but one that its path passes through. -/
theorem run_overwrites_through_link :
    (∃ (o : Options) (fs : FileSystem) (g g' : Group),
      o.inputs = ["a.py".toList, "b.py".toList] ∧ o.output = some "out".toList ∧
      (o.run fs .empty).status = 0 ∧
      Group.withFunctions (Group.ofDocuments (documentsOf fs o.inputs)) = [g, g'] ∧
      Format.json.render g.document ≠ Format.json.render g'.document ∧
      (o.run fs .empty).files.find? (g.path .json "out".toList) =
        some (.file (Text.toBytes (Format.json.render g'.document)))) ∧
    ∃ (o : Options) (fs : FileSystem),
      o.inputs = ["a.py".toList] ∧ o.output = some "x/..".toList ∧
      (o.run fs .empty).status = 0 ∧ fs.isDirectory ".".toList = true ∧
      fs.find? "x".toList = none ∧ (o.run fs .empty).files.isDirectory "x".toList = true := by
  refine ⟨?_, ?_⟩
  · let paths := ["a.py".toList, "b.py".toList]
    let o : Options := { inputs := paths, output := some "out".toList }
    let fs : FileSystem :=
      { resolve :=
          FileSystem.redirect ["out".toList, "b.json".toList] ["out".toList, "a.json".toList]
        resolve_resolve := FileSystem.redirect_redirect _ _
        nodes := [(["a.py".toList], .file (Text.toBytes "def f():\n    \"\"\"A.\"\"\"\n".toList)),
          (["b.py".toList], .file (Text.toBytes "def g():\n    \"\"\"B.\"\"\"\n".toList)),
          (["out".toList], .directory)]
        nodup_locations := by decide
        links := [["out".toList, "b.json".toList]] }
    let g : Group := ⟨"a".toList, .merged (documentsOf fs ["a.py".toList])⟩
    let g' : Group := ⟨"b".toList, .merged (documentsOf fs ["b.py".toList])⟩
    have hgroups : Group.withFunctions (Group.ofDocuments (documentsOf fs paths)) = [g, g'] := by
      decide +kernel
    have hnone : (o.report .json fs (documentsOf fs paths)).failure = none := by decide +kernel
    have houtput : o.output = some "out".toList := rfl
    have hlast := (areReported_report houtput hnone).find?_last (g := g') (by rw [hgroups]; rfl)
    have hshared : (o.report .json fs (documentsOf fs paths)).files.reach
        (g.path .json "out".toList) =
          (o.report .json fs (documentsOf fs paths)).files.reach (g'.path .json "out".toList) := by
      decide +kernel
    have hcollect : Inputs.collect fs o.inputs = ([], .ok paths) := by decide +kernel
    obtain ⟨hfailure, hfiles⟩ := run_of_sorted .empty (by decide)
      (rfl : o.formatOrDefault = .ok .json) hcollect (Inputs.sortedOnce_eq_self (by decide))
    refine ⟨o, fs, g, g', rfl, rfl, ?_, hgroups, by decide +kernel, ?_⟩
    · rw [Outcome.status, hfailure, hnone]
      rfl
    · rw [hfiles, FileSystem.find?, hshared]
      exact hlast
  · let paths := ["a.py".toList]
    let o : Options := { inputs := paths, output := some "x/..".toList }
    let fs : FileSystem :=
      { nodes := [(["a.py".toList],
          .file (Text.toBytes "def f():\n    \"\"\"A.\"\"\"\n".toList))] }
    have hcollect : Inputs.collect fs o.inputs = ([], .ok paths) := by decide +kernel
    obtain ⟨hfailure, hfiles⟩ := run_of_sorted .empty (by decide)
      (rfl : o.formatOrDefault = .ok .json) hcollect (Inputs.sortedOnce_eq_self (by decide))
    have hnone : (o.report .json fs (documentsOf fs paths)).failure = none := by decide +kernel
    refine ⟨o, fs, rfl, rfl, ?_, by decide +kernel, by decide +kernel, ?_⟩
    · rw [Outcome.status, hfailure, hnone]
      rfl
    · rw [hfiles]
      decide +kernel

end DocComment
