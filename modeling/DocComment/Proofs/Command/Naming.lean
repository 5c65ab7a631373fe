import DocComment.Proofs.Command.Outputs

/-!
What the path of a file decides. Whether the file is read, and how a bare comment in it is named, go
by the components of the path and the last dot in its file name; the name of its output goes by the
characters behind the last slash and by the known extensions. Where a path ends in its last
component the two come to the same.
-/

namespace DocComment

variable {p q n stem extension content content' : Text} {d d' : Document}

namespace Path

/-- A path without backslashes whose last segment is a component. -/
structure EndsInSegment (p : Text) : Prop where
  backslash_not_mem : '\\' ∉ p
  last_ne : ∀ segment ∈ (p.splitOn '/').getLast?, segment ≠ [] ∧ segment ≠ ['.']

instance (p : Text) : Decidable (EndsInSegment p) :=
  decidable_of_iff
    ('\\' ∉ p ∧ ∀ segment ∈ (p.splitOn '/').getLast?, segment ≠ [] ∧ segment ≠ ['.'])
    ⟨fun h => ⟨h.1, h.2⟩, fun h => ⟨h.backslash_not_mem, h.last_ne⟩⟩

theorem eq_append_of_cutExtension (h : cutExtension n = (stem, some extension)) :
    n = stem ++ '.' :: extension := by
  have hcut : n.reverse.takeWhile (· ≠ '.') ++ n.reverse.dropWhile (· ≠ '.') = n.reverse :=
    List.takeWhile_append_dropWhile
  have hdot := List.head?_dropWhile_not (· ≠ '.') n.reverse
  rw [cutExtension] at h
  split at h
  · cases h
  · cases h
  · next c front _ hdrop =>
      cases h
      rw [hdrop] at hcut hdot
      have hc : c = '.' := by simpa using hdot
      subst hc
      simpa using (congrArg List.reverse hcut).symm

/-- The file name, if there is one, is what stands behind the last slash. -/
theorem EndsInSegment.lastSegment_eq (hp : EndsInSegment p) (h : fileName? p = some n) :
    lastSegment p = n := by
  obtain ⟨front, segment, hsegments⟩ := FileSystem.exists_splitOn_eq_concat p
  have hlast : (p.splitOn '/').getLast? = some segment := by
    rw [hsegments, List.getLast?_concat]
  obtain ⟨hne, hhere⟩ := hp.last_ne segment hlast
  have hsplit : p.splitOnP (fun c => c = '/' || c = '\\') = p.splitOn '/' := by
    rw [List.splitOn_eq_splitOnP]
    apply Text.splitOnP_congr
    intro c hc
    have hbackslash : c ≠ '\\' := fun h => hp.backslash_not_mem (h ▸ hc)
    simp only [hbackslash, decide_false, Bool.or_false]
    rfl
  rw [lastSegment, hsplit, hlast, Option.getD_some]
  by_cases hup : segment = ['.', '.']
  · have hcomponent : (components p).getLast? = some .up :=
      getLast?_components hsegments (by rw [hup]; rfl)
    rw [fileName?, hcomponent] at h
    cases h
  · have hcomponent : Component.ofSegment? segment = some (.name segment) := by
      rw [Component.ofSegment?, if_neg (by simpa using ⟨hne, hhere⟩), if_neg hup]
    rw [fileName?_of_splitOn hsegments hcomponent] at h
    exact Option.some.inj h

end Path

/-- The name of an output lacks a known extension, whichever of them comes first in the list. -/
theorem outputName_of_lastSegment {source : Text}
    (hextension : extension ∈ Kind.extensions.map Prod.fst)
    (h : lastSegment source = stem ++ '.' :: extension) : outputName source = stem := by
  have hdots : ∀ e ∈ Kind.extensions.map Prod.fst, '.' ∉ e := by decide
  rw [outputName_eq, h]
  cases hcut : (Kind.extensions.map Prod.fst).findSome?
      (withoutExtension? (stem ++ '.' :: extension)) with
  | none =>
      have hnone := List.findSome?_eq_none_iff.mp hcut extension hextension
      rw [withoutExtension?_eq_some_iff.mpr rfl] at hnone
      cases hnone
  | some name =>
      obtain ⟨e, he, hname⟩ := List.exists_of_findSome?_eq_some hcut
      have happend := withoutExtension?_eq_some_iff.mp hname
      exact (append_cons_inj_right (hdots extension hextension) (hdots e he) happend).1.symm

theorem Kind.isSome_ofPath?_iff :
    (Kind.ofPath? p).isSome = true ↔
      ∃ extension ∈ Path.extension? p, extension ∈ Kind.extensions.map Prod.fst := by
  rw [Kind.ofPath?]
  constructor
  · intro h
    obtain ⟨kind, hkind⟩ := Option.isSome_iff_exists.mp h
    obtain ⟨extension, hextension, hlookup⟩ := Option.bind_eq_some_iff.mp hkind
    obtain ⟨entry, hentry, heq⟩ := List.lookup_isSome_iff.mp (Option.isSome_of_eq_some hlookup)
    exact ⟨extension, hextension, List.mem_map.mpr ⟨entry, hentry, (eq_of_beq heq).symm⟩⟩
  · rintro ⟨extension, hextension, hmem⟩
    obtain ⟨entry, hentry, rfl⟩ := List.mem_map.mp hmem
    rw [hextension, Option.bind_some]
    exact List.lookup_isSome_iff.mpr ⟨entry, hentry, BEq.rfl⟩

theorem Path.EndsInSegment.stem?_eq (hp : Path.EndsInSegment p)
    (h : (Kind.ofPath? p).isSome = true) : Path.stem? p = some (outputName p) := by
  obtain ⟨extension, hextension, hknown⟩ := Kind.isSome_ofPath?_iff.mp h
  obtain ⟨n, hn, hcut⟩ := Option.bind_eq_some_iff.mp hextension
  have hname : n = (Path.cutExtension n).1 ++ '.' :: extension := by
    apply Path.eq_append_of_cutExtension
    rw [← hcut]
  have hlast : lastSegment p = (Path.cutExtension n).1 ++ '.' :: extension :=
    (hp.lastSegment_eq hn).trans hname
  rw [Path.stem?, hn, outputName_of_lastSegment hknown hlast, Option.map_some]

theorem Inputs.mem_supportedIn_iff {fs : FileSystem} {directory : Text} :
    p ∈ Inputs.supportedIn fs directory ↔
      p ∈ (fs.names (Glob.locationOf fs directory)).map (Path.join directory) ∧
        fs.isFile p = true ∧ (Kind.ofPath? p).isSome = true := by
  rw [Inputs.supportedIn, List.mem_filter, Bool.and_eq_true]

namespace Document

/-- The path of the file that takes a document. -/
def outputPath (format : Format) (directory : Text) (d : Document) : Text :=
  Group.path format directory ⟨d.output, d⟩

theorem exists_ofFile_iff :
    (∃ d, ofFile p content = .ok d) ↔ (Kind.ofPath? p).isSome = true := by
  rw [ofFile]
  cases Kind.ofPath? p with
  | none => simp
  | some kind => simp

theorem output_ofFile (h : ofFile p content = .ok d) : d.output = outputName p := by
  rw [output, sourceName, (source_ofFile h).1, Option.getD_some]

theorem map_name_ofFile_bare (hkind : Kind.ofPath? p = some .bare)
    (h : ofFile p content = .ok d) : d.functions.map (·.name) = [(Path.stem? p).getD []] := by
  rw [ofFile, hkind] at h
  cases h
  rfl

/-- Documents of different outputs never go to one entry of the directory. -/
theorem locate_outputPath_iff {format : Format} {directory : Text} {fs : FileSystem}
    {loc : Location} (h : fs.locate (d.outputPath format directory) = .ok loc) :
    fs.locate (d'.outputPath format directory) = .ok loc ↔ d.output = d'.output := by
  constructor
  · intro h'
    exact Group.name_eq_of_locate_path (slash_not_mem_outputName _) (slash_not_mem_outputName _) h h'
  · intro houtput
    have hpath : d.outputPath format directory = d'.outputPath format directory := by
      rw [outputPath, outputPath, Group.path, Group.path, houtput]
    rwa [← hpath]

end Document

/-- What the scan of a directory takes is what can be read. Such a file goes to the output of its
stem, and a bare comment in it is named like the output. -/
theorem names_ofFile (hp : Path.EndsInSegment p) (hq : Path.EndsInSegment q)
    (content content' : Text) :
    ((∃ d, Document.ofFile p content = .ok d) ↔
      ∃ extension ∈ Path.extension? p, extension ∈ Kind.extensions.map Prod.fst) ∧
    (∀ (fs : FileSystem) (directory : Text), p ∈ Inputs.supportedIn fs directory ↔
      p ∈ (fs.names (Glob.locationOf fs directory)).map (Path.join directory) ∧
        fs.isFile p = true ∧ ∃ d, Document.ofFile p content = .ok d) ∧
    ∀ d, Document.ofFile p content = .ok d →
      Path.stem? p = some (outputName p) ∧ d.output = outputName p ∧
      (Path.extension? p = some "txt".toList ∨ Path.extension? p = some "md".toList →
        d.functions.map (·.name) = [outputName p]) ∧
      ∀ d', Document.ofFile q content' = .ok d' →
        (d.output = d'.output ↔ Path.stem? p = Path.stem? q) ∧
        ∀ (format : Format) (directory : Text) (fs : FileSystem) (loc : Location),
          fs.locate (d.outputPath format directory) = .ok loc →
            (fs.locate (d'.outputPath format directory) = .ok loc ↔
              Path.stem? p = Path.stem? q) := by
  refine ⟨Document.exists_ofFile_iff.trans Kind.isSome_ofPath?_iff, ?_, ?_⟩
  · intro fs directory
    rw [Inputs.mem_supportedIn_iff, Document.exists_ofFile_iff]
  intro d hd
  have hstem : Path.stem? p = some (outputName p) :=
    hp.stem?_eq (Document.exists_ofFile_iff.mp ⟨d, hd⟩)
  refine ⟨hstem, Document.output_ofFile hd, ?_, ?_⟩
  · intro hextension
    have hkind : Kind.ofPath? p = some .bare := by
      rcases hextension with h | h <;> rw [Kind.ofPath?, h] <;> rfl
    rw [Document.map_name_ofFile_bare hkind hd, hstem, Option.getD_some]
  · intro d' hd'
    have hstem' : Path.stem? q = some (outputName q) :=
      hq.stem?_eq (Document.exists_ofFile_iff.mp ⟨d', hd'⟩)
    have houtput : d.output = d'.output ↔ Path.stem? p = Path.stem? q := by
      rw [Document.output_ofFile hd, Document.output_ofFile hd', hstem, hstem', Option.some_inj]
    refine ⟨houtput, ?_⟩
    intro format directory fs loc hloc
    exact (Document.locate_outputPath_iff hloc).trans houtput

/-- Hidden files of one stem, which ends like an extension itself. -/
theorem names_ofFile_hidden :
    let p := "a/.b.pyi.md".toList
    let q := "c/../.b.pyi.py".toList
    Path.EndsInSegment p ∧ Path.EndsInSegment q ∧
      ∃ d d', Document.ofFile p "S.".toList = .ok d ∧ Document.ofFile q [] = .ok d' ∧
        Path.stem? p = some ".b.pyi".toList ∧ outputName p = ".b.pyi".toList ∧
        d.functions.map (·.name) = [outputName p] ∧ d.output = d'.output := by
  intro p q
  have hp : Path.EndsInSegment p := by decide +kernel
  have hq : Path.EndsInSegment q := by decide +kernel
  have hstem : Path.stem? p = some ".b.pyi".toList := by decide +kernel
  have hstem' : Path.stem? q = some ".b.pyi".toList := by decide +kernel
  obtain ⟨d', hd'⟩ := (names_ofFile hq hp [] []).1.mpr ⟨"py".toList, by decide +kernel, by decide⟩
  have hextension : Path.extension? p = some "md".toList := by decide +kernel
  have hnames := names_ofFile hp hq "S.".toList []
  obtain ⟨d, hd⟩ := hnames.1.mpr ⟨"md".toList, hextension, by decide⟩
  obtain ⟨houtput, -, hfunctions, hshared⟩ := hnames.2.2 d hd
  exact ⟨hp, hq, d, d', hd, hd', hstem, Option.some.inj (houtput.symm.trans hstem),
    hfunctions (.inr hextension), (hshared d' hd').1.mpr (hstem.trans hstem'.symm)⟩

end DocComment
