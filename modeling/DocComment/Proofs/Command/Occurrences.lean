import DocComment.Proofs.Command.Failures
import DocComment.Proofs.FileSystem.Spelling
import Mathlib.Data.List.Flatten

/-!
How often the functions of a file are reported. Inputs are told apart by their paths, component by
component, and a file is read once for each path that leads to it. What is written of a file are
therefore its functions, each of them once for such a path with the path for its source; two
spellings with the same components count as one.
-/

namespace DocComment

open FileSystem (Frame)

def DocumentedFunction.withSource (f : DocumentedFunction) (path : Text) : DocumentedFunction :=
  { f with source := some path }

/-- The functions of the file at a location, by its content and the file name in the path, if it can
be read. -/
def functionsAt (fs : FileSystem) (loc : Location) (path : Text) : List DocumentedFunction :=
  match fs.node? loc, fs.faults.read loc with
  | some (.file content), none =>
    (((Text.ofBytes? content).bind fun text =>
      (Document.ofFile ((Path.fileName? path).getD []) text).toOption).map (·.functions)).getD []
  | _, _ => []

def functionsOf (fs : FileSystem) (path : Text) : List DocumentedFunction :=
  ((documentOf? fs path).map (·.functions)).getD []

/-- What stands in the groups with a path for its source that leads to the location. -/
def Group.functionsFrom (fs : FileSystem) (loc : Location) (gs : List Group) :
    List DocumentedFunction :=
  (gs.flatMap (·.document.functions)).filter fun f => f.source.any (fs.leadsTo loc)

variable {format : Format} {directory path p q : Text} {fs : FileSystem} {loc : Location}
variable {ds : List Document} {o : Options} {paths : List Text}

/-! The functions of one file. -/

/-- A path that leads to a file has a file name, which is a path of its own. -/
theorem FileSystem.exists_fileName?_of_reach {content : ByteArray}
    (hpath : fs.reach path = .ok loc) (hfile : fs.node? loc = some (.file content)) :
    ∃ name, Path.fileName? path = some name ∧ Path.fileName? name = some name := by
  obtain ⟨entry, hentry, rfl⟩ := reach_eq_ok_iff.mp hpath
  obtain ⟨front, last, hsegments⟩ := exists_splitOn_eq_concat path
  by_cases hlast : ∃ n, Path.Component.ofSegment? last = some (.name n)
  · obtain ⟨n, hn⟩ := hlast
    obtain rfl := ofSegment?_eq_name hn
    have hslash : '/' ∉ n := by
      refine Text.not_mem_of_mem_splitOn (t := path) ?_
      rw [hsegments]
      exact List.mem_append_right front (List.mem_singleton_self n)
    have hsingle : n.splitOn '/' = [] ++ [n] := List.splitOn_eq_singleton hslash
    exact ⟨n, Path.fileName?_of_splitOn hsegments hn, Path.fileName?_of_splitOn hsingle hn⟩
  · rw [not_exists] at hlast
    obtain ⟨-, -, hd⟩ := (locate_eq_ok_iff_of_not_name hsegments hlast).mp hentry
    rw [resolve_of_locate_of_not_name hsegments hlast hentry, node?_of_descend hd] at hfile
    cases hfile

/-- Which functions a text has is decided by the file name of its path. -/
theorem Document.functions_ofFile {name : Text} (h : Path.fileName? path = Path.fileName? name)
    (content : Text) :
    (ofFile path content).toOption.map (·.functions) =
      (ofFile name content).toOption.map fun d => d.functions.map (·.withSource path) := by
  have hkind : Kind.ofPath? path = Kind.ofPath? name := by
    rw [Kind.ofPath?, Kind.ofPath?, Path.extension?, Path.extension?, h]
  have hstem : Path.stem? path = Path.stem? name := by rw [Path.stem?, Path.stem?, h]
  rw [ofFile, ofFile, hkind, hstem]
  cases Kind.ofPath? name with
  | none => rfl
  | some kind =>
      simp only [Except.toOption, Option.map_some, withSource, List.map_map]
      rfl

/-- A path gives the functions of the file that it leads to. -/
theorem functionsOf_eq (hpath : fs.reach path = .ok loc) :
    functionsOf fs path = (functionsAt fs loc path).map (·.withSource path) := by
  rw [functionsOf, documentOf?, FileSystem.readText, FileSystem.read, hpath, Except.bind,
    functionsAt]
  cases hnode : fs.node? loc with
  | none => rfl
  | some node =>
      cases node with
      | directory => rfl
      | file content =>
          obtain ⟨name, hname, hself⟩ := FileSystem.exists_fileName?_of_reach hpath hnode
          rw [hname, Option.getD_some]
          cases fs.faults.read loc with
          | some e => rfl
          | none =>
              cases hbytes : Text.ofBytes? content with
              | none => simp [hbytes, Except.toOption]
              | some text =>
                  have hfunctions := Document.functions_ofFile (hname.trans hself.symm) text
                  simp only [hbytes, Option.bind_some]
                  change ((Document.ofFile path text).toOption.map _).getD [] = _
                  rw [hfunctions]
                  cases Document.ofFile name text <;> rfl

theorem source_of_mem_functionsOf {f : DocumentedFunction} (hf : f ∈ functionsOf fs path) :
    f.source = some path := by
  rw [functionsOf] at hf
  cases hd : documentOf? fs path with
  | none =>
      rw [hd] at hf
      cases hf
  | some d =>
      rw [hd] at hf
      exact (source_documentOf? hd).2 f hf

theorem flatMap_functions_documentsOf (fs : FileSystem) (paths : List Text) :
    (documentsOf fs paths).flatMap (·.functions) = paths.flatMap (functionsOf fs) := by
  induction paths with
  | nil => rfl
  | cons path paths ih =>
      rw [documentsOf, List.flatMap_cons, functionsOf]
      cases hd : documentOf? fs path with
      | none =>
          rw [List.filterMap_cons_none hd]
          exact ih
      | some d =>
          rw [List.filterMap_cons_some hd, List.flatMap_cons]
          exact congrArg (d.functions ++ ·) ih

/-- Of the functions of several paths, those with a source that leads to the file come from the
paths that do. -/
theorem filter_flatMap_functionsOf (fs : FileSystem) (loc : Location) (paths : List Text) :
    (paths.flatMap (functionsOf fs)).filter (fun f => f.source.any (fs.leadsTo loc)) =
      (paths.filter (fs.leadsTo loc)).flatMap fun path =>
        (functionsAt fs loc path).map (·.withSource path) := by
  induction paths with
  | nil => rfl
  | cons path paths ih =>
      rw [List.flatMap_cons, List.filter_append, ih]
      cases hpath : fs.leadsTo loc path with
      | true =>
          have hkept : ∀ f ∈ functionsOf fs path, f.source.any (fs.leadsTo loc) = true := by
            intro f hf
            rw [source_of_mem_functionsOf hf, Option.any_some, hpath]
          rw [List.filter_eq_self.mpr hkept, List.filter_cons_of_pos hpath, List.flatMap_cons,
            functionsOf_eq (FileSystem.leadsTo_iff.mp hpath)]
      | false =>
          have hdropped : ∀ f ∈ functionsOf fs path, ¬ f.source.any (fs.leadsTo loc) = true := by
            intro f hf
            rw [source_of_mem_functionsOf hf, Option.any_some, hpath]
            exact Bool.false_ne_true
          rw [List.filter_eq_nil_iff.mpr hdropped, List.filter_cons_of_neg (by simp [hpath]),
            List.nil_append]

/-! What is written of it. -/

/-- However a report into a directory ends, it leaves the first of the groups, each of them whole
but for the last one. -/
theorem exists_areLeft_report (format : Format) (fs : FileSystem) (ds : List Document)
    (houtput : o.output = some directory) :
    ∃ first written cut, first <+: Group.ofDocuments ds ∧
      Group.withFunctions first = written ++ (cut.map Prod.fst).toList ∧
      Group.AreLeft format directory written cut fs (o.report format fs ds).files := by
  cases hfailure : (o.report format fs ds).failure with
  | none =>
      exact ⟨_, _, none, List.prefix_rfl, (List.append_nil _).symm,
        (areReported_report houtput hfailure).toAreLeft⟩
  | some f =>
      cases f with
      | standardInput | request | input =>
          exact absurd trivial (not_isRefusal_of_report hfailure)
      | outputDirectory path e =>
          have hframe := frame_report_of_outputDirectory hfailure houtput
          exact ⟨[], [], none, List.nil_prefix, rfl, Group.areLeft_of_frame hframe⟩
      | output path e =>
          obtain ⟨directory', before, g, after, made, cut, houtput', hsplit, hg, -, -, -, huntil⟩ :=
            areWrittenUntil_report hfailure
          rw [houtput] at houtput'
          cases houtput'
          cases cut with
          | none =>
              exact ⟨before, _, none, ⟨g :: after, hsplit.symm⟩, (List.append_nil _).symm,
                huntil.toAreLeft⟩
          | some size =>
              refine ⟨before ++ [g], _, some (g, size), ⟨after, ?_⟩, ?_, huntil.toAreLeft⟩
              · rw [hsplit, List.append_assoc, List.singleton_append]
              · rw [Group.withFunctions_append, Group.withFunctions_cons_of_ne_nil hg]
                rfl

theorem subperm_functionsFrom {written : List Group} (h : written <+: Group.ofDocuments ds)
    (fs : FileSystem) (loc : Location) :
    (Group.functionsFrom fs loc (Group.withFunctions written)).Subperm
      ((ds.flatMap (·.functions)).filter fun f => f.source.any (fs.leadsTo loc)) := by
  rw [Group.functionsFrom, Group.flatMap_functions_withFunctions]
  obtain ⟨rest, hrest⟩ := h
  have hsub : (written.flatMap (·.document.functions)).Sublist
      ((Group.ofDocuments ds).flatMap (·.document.functions)) := by
    rw [← hrest, List.flatMap_append]
    exact List.sublist_append_left ..
  exact ((hsub.subperm).trans (Group.flatMap_functions_ofDocuments ds).subperm).filter _

/-- If no two of the paths are the same, but all that are kept are, one is kept at most. -/
theorem exists_filter_sublist_singleton {keep : Text → Bool}
    (hpaths : paths.Pairwise fun p q => Path.same p q = false)
    (h : ∀ p ∈ paths, ∀ q ∈ paths, keep p = true → keep q = true → Path.same p q = true) :
    ∃ p, (paths.filter keep).Sublist [p] := by
  cases hkept : paths.filter keep with
  | nil => exact ⟨[], List.nil_sublist _⟩
  | cons p rest =>
      cases rest with
      | nil => exact ⟨p, List.Sublist.refl [p]⟩
      | cons q rest =>
          have hp : p ∈ paths.filter keep := by rw [hkept]; simp
          have hq : q ∈ paths.filter keep := by rw [hkept]; simp
          have hdifferent : (p :: q :: rest).Pairwise fun p q => Path.same p q = false :=
            hkept ▸ hpaths.sublist List.filter_sublist
          obtain ⟨hp, hkeepp⟩ := List.mem_filter.mp hp
          obtain ⟨hq, hkeepq⟩ := List.mem_filter.mp hq
          have hsame := (List.pairwise_cons.mp hdifferent).1 q (List.mem_cons_self ..)
          rw [h p hp q hq hkeepp hkeepq] at hsame
          cases hsame

/-- The functions of a file stand in the outputs of a run at most once for each path that leads to
it, however the run ends. So they stand there at most once, if such paths have the same
components. -/
theorem functionsFrom_written_subperm (fs : FileSystem) (stdin : ByteArray)
    (houtput : o.output = some directory) :
    ∃ format paths written cut, (∀ f, o.formatOrDefault = .ok f → f = format) ∧
      (∀ p ∈ paths, Inputs.IsCandidate fs o.inputs p) ∧
      (paths.Pairwise fun p q => Path.same p q = false) ∧
      written ++ (cut.map Prod.fst).toList <+:
        Group.withFunctions (Group.ofDocuments (documentsOf fs paths)) ∧
      Group.AreLeft format directory written cut fs (o.run fs stdin).files ∧
      ∀ loc,
        (Group.functionsFrom fs loc (written ++ (cut.map Prod.fst).toList)).Subperm
          ((paths.filter (fs.leadsTo loc)).flatMap fun path =>
            (functionsAt fs loc path).map (·.withSource path)) ∧
        ((∀ p q, Inputs.IsCandidate fs o.inputs p → Inputs.IsCandidate fs o.inputs q →
            fs.leadsTo loc p = true → fs.leadsTo loc q = true → Path.same p q = true) →
          ∃ path, (Group.functionsFrom fs loc (written ++ (cut.map Prod.fst).toList)).Subperm
            ((functionsAt fs loc path).map (·.withSource path))) := by
  obtain ⟨format, hdefault⟩ : ∃ format, ∀ f, o.formatOrDefault = .ok f → f = format := by
    cases o.formatOrDefault with
    | error e => exact ⟨.json, nofun⟩
    | ok format => exact ⟨format, fun _ hf => (Except.ok.inj hf).symm⟩
  have hruns := o.runsTo_run fs stdin
  generalize o.run fs stdin = outcome at hruns ⊢
  cases hruns with
  | refused | printed =>
      refine ⟨format, [], [], none, hdefault, nofun, .nil, List.nil_prefix,
        Group.areLeft_of_frame (Frame.refl ..), ?_⟩
      exact fun loc => ⟨List.nil_subperm, fun _ => ⟨[], List.nil_subperm⟩⟩
  | @reported _ format' _ candidates _ _ hformat hcollect =>
      obtain rfl := hdefault _ hformat
      obtain ⟨first, written, cut, hfirst, hwritten, hleft⟩ := exists_areLeft_report format' fs
        (documentsOf fs (Inputs.sortedOnce candidates)) houtput
      have hmem := (Inputs.of_collect_eq_ok (congrArg Prod.snd hcollect)).2
      have hcandidate : ∀ p ∈ Inputs.sortedOnce candidates, Inputs.IsCandidate fs o.inputs p :=
        fun p hp => (hmem p).mp (Inputs.mem_of_mem_sortedOnce hp)
      have hpaths := (Inputs.pairwise_sortedOnce candidates).imp And.right
      refine ⟨format', _, written, cut, hdefault, hcandidate, hpaths,
        hwritten ▸ hfirst.filter _, hleft, ?_⟩
      intro loc
      have hsubperm := subperm_functionsFrom hfirst fs loc
      rw [hwritten, flatMap_functions_documentsOf, filter_flatMap_functionsOf] at hsubperm
      refine ⟨hsubperm, ?_⟩
      intro hsame
      obtain ⟨p, hp⟩ := exists_filter_sublist_singleton hpaths fun p hp q hq =>
        hsame p q (hcandidate p hp) (hcandidate q hq)
      have hone := hp.flatMap fun path => (functionsAt fs loc path).map (·.withSource path)
      rw [List.flatMap_singleton] at hone
      exact ⟨p, hsubperm.trans hone.subperm⟩

theorem functionsFrom_written_subperm_three :
    ∃ (o : Options) (fs : FileSystem) (format : Format) (written : List Group)
      (cut : Option (Group × Nat)) (path : Text),
      o.inputs = ["lib//a.py".toList, "lib".toList, "lib/a.py".toList] ∧
      o.output = some "out".toList ∧
      (functionsAt fs ["lib".toList, "a.py".toList] "a.py".toList).length = 1 ∧
      Group.AreLeft format "out".toList written cut fs (o.run fs .empty).files ∧
      (Group.functionsFrom fs ["lib".toList, "a.py".toList]
        (written ++ (cut.map Prod.fst).toList)).Subperm
          ((functionsAt fs ["lib".toList, "a.py".toList] path).map (·.withSource path)) := by
  let o : Options :=
    { inputs := ["lib//a.py".toList, "lib".toList, "lib/a.py".toList], output := some "out".toList }
  let fs : FileSystem :=
    { nodes := [(["lib".toList], .directory), (["lib".toList, "a.py".toList],
        .file (Text.toBytes "def f():\n    \"\"\"Doc.\"\"\"\n".toList))]
      nodup_locations := by decide }
  have hcollect : Inputs.collect fs o.inputs =
      ([], .ok ["lib//a.py".toList, "lib/a.py".toList, "lib/a.py".toList]) := by decide +kernel
  have hcandidates := (Inputs.of_collect_eq_ok (congrArg Prod.snd hcollect)).2
  have hsame : ∀ p q, Inputs.IsCandidate fs o.inputs p → Inputs.IsCandidate fs o.inputs q →
      Path.same p q = true := by
    intro p q hp hq
    rw [← hcandidates] at hp hq
    simp only [List.mem_cons, List.not_mem_nil, or_false] at hp hq
    rcases hp with rfl | rfl | rfl <;> rcases hq with rfl | rfl | rfl <;> decide
  obtain ⟨format, paths, written, cut, -, -, -, -, hleft, hloc⟩ :=
    functionsFrom_written_subperm (o := o) fs .empty rfl
  obtain ⟨path, hpath⟩ := (hloc ["lib".toList, "a.py".toList]).2
    fun p q hp hq _ _ => hsame p q hp hq
  exact ⟨o, fs, format, written, cut, path, rfl, rfl, by decide +kernel, hleft, hpath⟩

/-- A file with one function is reported twice, by its path and by its path behind a `.`. -/
theorem file_written_twice :
    ∃ (o : Options) (fs : FileSystem) (g : Group),
      o.inputs = ["./a.py".toList, "a.py".toList] ∧ o.output = some "out".toList ∧
      fs.leadsTo ["a.py".toList] "./a.py".toList = true ∧
      fs.leadsTo ["a.py".toList] "a.py".toList = true ∧
      (functionsAt fs ["a.py".toList] "a.py".toList).length = 1 ∧ (o.run fs .empty).status = 0 ∧
      (o.run fs .empty).files.find? "out/a.json".toList =
        some (.file (Text.toBytes (Format.json.render g.document))) ∧
      (g.document.functions = ["./a.py".toList, "a.py".toList].flatMap fun path =>
        (functionsAt fs ["a.py".toList] path).map (·.withSource path)) ∧
      ¬ ∃ path, (Group.functionsFrom fs ["a.py".toList] [g]).Subperm
        ((functionsAt fs ["a.py".toList] "a.py".toList).map (·.withSource path)) := by
  let paths := ["./a.py".toList, "a.py".toList]
  let o : Options := { inputs := paths, output := some "out".toList }
  let fs : FileSystem :=
    { nodes := [(["a.py".toList], .file (Text.toBytes "def f():\n    \"\"\"Doc.\"\"\"\n".toList))]
      nodup_locations := by decide }
  let g : Group := ⟨"a".toList, .merged (documentsOf fs paths)⟩
  have hcollect : Inputs.collect fs o.inputs = ([], .ok paths) := by decide +kernel
  have hgroups : Group.withFunctions (Group.ofDocuments (documentsOf fs paths)) = [g] := by
    decide +kernel
  obtain ⟨hfailure, hfiles⟩ := run_of_sorted .empty (by decide)
    (rfl : o.formatOrDefault = .ok .json) hcollect (Inputs.sortedOnce_eq_self (by decide))
  have hnone : (o.report .json fs (documentsOf fs paths)).failure = none := by decide +kernel
  have houtput : o.output = some "out".toList := rfl
  have hreported := areReported_report houtput hnone
  have hone : (functionsAt fs ["a.py".toList] "a.py".toList).length = 1 := by decide +kernel
  have htwo : (Group.functionsFrom fs ["a.py".toList] [g]).length = 2 := by decide +kernel
  refine ⟨o, fs, g, rfl, rfl, by decide +kernel, by decide +kernel, hone, ?_, ?_,
    by decide +kernel, ?_⟩
  · rw [Outcome.status, hfailure, hnone]
    rfl
  · rw [hfiles]
    exact hreported.find?_last (by rw [hgroups]; rfl)
  · rintro ⟨path, hpath⟩
    have hlength := hpath.length_le
    rw [htwo, List.length_map, hone] at hlength
    exact absurd hlength (by decide)

end DocComment
