import DocComment.Group
import DocComment.Proofs.Lists
import DocComment.Proofs.Text.Lines
import Mathlib.Data.List.Induction
import Mathlib.Data.List.Nodup

/-!
What the groups of documents hold. There is one group for each output, and its document has the
source of the first document that goes there and the functions of all of them, in order. So how the
documents of different outputs stand to each other does not count for what is in the groups.
-/

namespace DocComment

/-- What follows the last slash or backslash of a source. -/
def lastSegment (source : Text) : Text :=
  ((source.splitOnP fun c => c = '/' || c = '\\').getLast?).getD []

/-- The name without an extension that it ends with. -/
def withoutExtension? (name extension : Text) : Option Text :=
  if ('.' :: extension).isSuffixOf name then some (name.take (name.length - extension.length - 1))
  else none

theorem outputName_eq (source : Text) :
    outputName source = ((Kind.extensions.map Prod.fst).findSome?
      (withoutExtension? (lastSegment source))).getD (lastSegment source) := rfl

theorem withoutExtension?_eq_some_iff {name extension stem : Text} :
    withoutExtension? name extension = some stem ↔ name = stem ++ '.' :: extension := by
  rw [withoutExtension?]
  constructor
  · intro h
    split at h
    · next hsuffix =>
        cases h
        have hname := List.suffix_iff_eq_append.mp (List.isSuffixOf_iff_suffix.mp hsuffix)
        rw [List.length_cons, ← Nat.sub_sub] at hname
        exact hname.symm
    · cases h
  · rintro rfl
    have hsuffix := List.isSuffixOf_iff_suffix.mpr (List.suffix_append stem ('.' :: extension))
    have hlength : (stem ++ '.' :: extension).length - extension.length - 1 = stem.length := by
      rw [List.length_append, List.length_cons]
      omega
    rw [if_pos hsuffix, hlength, List.take_left]

theorem outputName_isPrefix_lastSegment (source : Text) :
    outputName source <+: lastSegment source := by
  rw [outputName_eq]
  cases h : (Kind.extensions.map Prod.fst).findSome? (withoutExtension? (lastSegment source)) with
  | none => exact List.prefix_refl _
  | some name =>
      obtain ⟨extension, -, hname⟩ := List.exists_of_findSome?_eq_some h
      exact ⟨_, (withoutExtension?_eq_some_iff.mp hname).symm⟩

theorem slash_not_mem_outputName (source : Text) : '/' ∉ outputName source := by
  intro h
  replace h := (outputName_isPrefix_lastSegment source).subset h
  rw [lastSegment] at h
  cases hlast : (source.splitOnP fun c => c = '/' || c = '\\').getLast? with
  | none =>
      rw [hlast] at h
      cases h
  | some segment =>
      rw [hlast] at h
      have hslash := Text.eq_false_of_mem_splitOnP (List.mem_of_getLast? hlast) '/' h
      cases hslash

/-- Documents in one, which is said to come from the source of the first. -/
def Document.merged (ds : List Document) : Document where
  source := ds.head?.bind (·.source)
  functions := ds.flatMap (·.functions)

theorem Document.merged_singleton (d : Document) : merged [d] = d := by
  rw [merged, List.flatMap_singleton]
  rfl

theorem Document.merged_concat {ds : List Document} (h : ds ≠ []) (d : Document) :
    merged (ds ++ [d]) =
      { merged ds with functions := (merged ds).functions ++ d.functions } := by
  rw [merged, List.flatMap_append, List.flatMap_singleton, List.head?_append_of_ne_nil _ h]
  rfl

namespace Group

variable {ds : List Document} {d : Document} {gs : List Group} {g : Group} {n : Text}

theorem map_name_add (n : Text) (d : Document) (gs : List Group) :
    (add n d gs).map (·.name) =
      if n ∈ gs.map (·.name) then gs.map (·.name) else gs.map (·.name) ++ [n] := by
  induction gs with
  | nil => rfl
  | cons g gs ih =>
      rw [add]
      by_cases hg : g.name = n
      · simp [hg, extend]
      · have hn : n ≠ g.name := fun h => hg h.symm
        rw [if_neg hg, List.map_cons, ih, List.map_cons]
        by_cases hmem : n ∈ gs.map (·.name)
        · rw [if_pos hmem, if_pos (List.mem_cons_of_mem _ hmem)]
        · have hcons : n ∉ g.name :: gs.map (·.name) := by
            rw [List.mem_cons]
            exact not_or.mpr ⟨hn, hmem⟩
          rw [if_neg hmem, if_neg hcons, List.cons_append]

theorem mem_map_name_add {m : Text} :
    m ∈ (add n d gs).map (·.name) ↔ m ∈ gs.map (·.name) ∨ m = n := by
  rw [map_name_add]
  split
  · next hn =>
      constructor
      · exact .inl
      · rintro (hm | rfl)
        · exact hm
        · exact hn
  · rw [List.mem_append, List.mem_singleton]

theorem nodup_map_name_add (h : (gs.map (·.name)).Nodup) (n : Text) (d : Document) :
    ((add n d gs).map (·.name)).Nodup := by
  rw [map_name_add]
  split
  · exact h
  · next hn => exact List.nodup_append.mpr ⟨h, List.nodup_singleton n, by simpa using hn⟩

/-- Only the group of the name changes, or it is new. -/
theorem mem_add (hnodup : (gs.map (·.name)).Nodup) (h : g ∈ add n d gs) :
    (g ∈ gs ∧ g.name ≠ n) ∨ (∃ old ∈ gs, old.name = n ∧ g = old.extend d) ∨
      (n ∉ gs.map (·.name) ∧ g = ⟨n, d⟩) := by
  induction gs with
  | nil => exact .inr (.inr ⟨List.not_mem_nil, List.mem_singleton.mp h⟩)
  | cons first gs ih =>
      obtain ⟨hfirst, hrest⟩ := List.nodup_cons.mp hnodup
      rw [add] at h
      split at h
      · next hn =>
          rcases List.mem_cons.mp h with rfl | h
          · exact .inr (.inl ⟨first, List.mem_cons_self .., hn, rfl⟩)
          · refine .inl ⟨List.mem_cons_of_mem _ h, ?_⟩
            intro hg
            exact hfirst (List.mem_map.mpr ⟨g, h, hg.trans hn.symm⟩)
      · next hn =>
          rcases List.mem_cons.mp h with rfl | h
          · exact .inl ⟨List.mem_cons_self .., hn⟩
          · rcases ih hrest h with ⟨hg, hne⟩ | ⟨old, hold, heq⟩ | ⟨hmem, heq⟩
            · exact .inl ⟨List.mem_cons_of_mem _ hg, hne⟩
            · exact .inr (.inl ⟨old, List.mem_cons_of_mem _ hold, heq⟩)
            · refine .inr (.inr ⟨?_, heq⟩)
              rw [List.map_cons, List.mem_cons]
              exact not_or.mpr ⟨fun h => hn h.symm, hmem⟩

theorem flatMap_functions_add (n : Text) (d : Document) (gs : List Group) :
    ((add n d gs).flatMap (·.document.functions)).Perm
      (gs.flatMap (·.document.functions) ++ d.functions) := by
  induction gs with
  | nil => simp [add]
  | cons g gs ih =>
      rw [add]
      split
      · rw [List.flatMap_cons, List.flatMap_cons, extend, List.append_assoc, List.append_assoc]
        exact List.Perm.append_left _ List.perm_append_comm
      · rw [List.flatMap_cons, List.flatMap_cons, List.append_assoc]
        exact List.Perm.append_left _ ih

theorem ofDocuments_concat (ds : List Document) (d : Document) :
    ofDocuments (ds ++ [d]) = add d.output d (ofDocuments ds) := by
  rw [ofDocuments, List.foldl_append]
  rfl

theorem nodup_map_name_ofDocuments (ds : List Document) :
    ((ofDocuments ds).map (·.name)).Nodup := by
  induction ds using List.reverseRecOn with
  | nil => exact List.nodup_nil
  | append_singleton ds d ih =>
      rw [ofDocuments_concat]
      exact nodup_map_name_add ih d.output d

theorem eq_of_name_eq {g' : Group} (hg : g ∈ ofDocuments ds) (hg' : g' ∈ ofDocuments ds)
    (h : g.name = g'.name) : g = g' :=
  List.inj_on_of_nodup_map (nodup_map_name_ofDocuments ds) hg hg' h

theorem mem_map_name_ofDocuments :
    n ∈ (ofDocuments ds).map (·.name) ↔ ∃ d ∈ ds, d.output = n := by
  induction ds using List.reverseRecOn with
  | nil => simp [ofDocuments]
  | append_singleton ds d ih =>
      rw [ofDocuments_concat, mem_map_name_add, ih]
      constructor
      · rintro (⟨e, he, hn⟩ | rfl)
        · exact ⟨e, List.mem_append_left [d] he, hn⟩
        · exact ⟨d, List.mem_append_right ds (List.mem_singleton_self d), rfl⟩
      · rintro ⟨e, he, rfl⟩
        rcases List.mem_append.mp he with he | he
        · exact .inl ⟨e, he, rfl⟩
        · exact .inr (by rw [List.mem_singleton.mp he])

theorem filter_output_concat_of_eq (h : d.output = n) :
    (ds ++ [d]).filter (fun e => e.output = n) = ds.filter (fun e => e.output = n) ++ [d] := by
  rw [List.filter_append, List.filter_singleton, decide_eq_true h]
  rfl

theorem filter_output_concat_of_ne (h : d.output ≠ n) :
    (ds ++ [d]).filter (fun e => e.output = n) = ds.filter (fun e => e.output = n) := by
  rw [List.filter_append, List.filter_singleton, decide_eq_false h]
  exact List.append_nil _

/-- The document of a group, from the documents that go to its output. -/
theorem document_of_mem_ofDocuments (h : g ∈ ofDocuments ds) :
    g.document = .merged (ds.filter fun d => d.output = g.name) := by
  induction ds using List.reverseRecOn generalizing g with
  | nil => cases h
  | append_singleton ds d ih =>
      rw [ofDocuments_concat] at h
      rcases mem_add (nodup_map_name_ofDocuments ds) h with
        ⟨hg, hne⟩ | ⟨old, hold, hn, rfl⟩ | ⟨hn, rfl⟩
      · rw [ih hg, filter_output_concat_of_ne fun h => hne h.symm]
      · have hfirst : ds.filter (fun e => e.output = old.name) ≠ [] := by
          obtain ⟨e, he, heq⟩ := mem_map_name_ofDocuments.mp (List.mem_map_of_mem hold)
          exact List.ne_nil_of_mem (List.mem_filter.mpr ⟨he, decide_eq_true heq⟩)
        change _ = Document.merged ((ds ++ [d]).filter fun e => e.output = old.name)
        rw [filter_output_concat_of_eq hn.symm, Document.merged_concat hfirst, ← ih hold]
        rfl
      · have hnone : ds.filter (fun e => e.output = d.output) = [] := by
          rw [List.filter_eq_nil_iff]
          intro e he
          rw [decide_eq_true_eq]
          intro heq
          exact hn (mem_map_name_ofDocuments.mpr ⟨e, he, heq⟩)
        change d = Document.merged ((ds ++ [d]).filter fun e => e.output = d.output)
        rw [filter_output_concat_of_eq rfl, hnone, List.nil_append, Document.merged_singleton]

theorem flatMap_functions_ofDocuments (ds : List Document) :
    ((ofDocuments ds).flatMap (·.document.functions)).Perm (ds.flatMap (·.functions)) := by
  induction ds using List.reverseRecOn with
  | nil => exact .nil
  | append_singleton ds d ih =>
      rw [ofDocuments_concat, List.flatMap_append, List.flatMap_singleton]
      exact (flatMap_functions_add ..).trans (ih.append_right _)

theorem map_name_ofDocuments (ds : List Document) :
    (ofDocuments ds).map (·.name) = (ds.map (·.output)).eraseDups := by
  induction ds using List.reverseRecOn with
  | nil => rfl
  | append_singleton ds d ih =>
      rw [ofDocuments_concat, map_name_add, ih, List.map_append, List.map_singleton,
        eraseDups_concat]
      simp only [List.mem_eraseDups]

theorem filter_output_ne_nil_iff :
    ds.filter (fun d => d.output = n) ≠ [] ↔ ∃ d ∈ ds, d.output = n := by
  simp [List.filter_eq_nil_iff]

/-- A group is there for the documents that go to its output, and made of nothing else. -/
theorem mem_ofDocuments_iff :
    g ∈ ofDocuments ds ↔ ds.filter (fun d => d.output = g.name) ≠ [] ∧
      g.document = .merged (ds.filter fun d => d.output = g.name) := by
  constructor
  · intro hg
    have hname : g.name ∈ (ofDocuments ds).map (·.name) := List.mem_map_of_mem hg
    exact ⟨filter_output_ne_nil_iff.mpr (mem_map_name_ofDocuments.mp hname),
      document_of_mem_ofDocuments hg⟩
  · rintro ⟨hne, hdocument⟩
    obtain ⟨g', hg', hname⟩ :=
      List.mem_map.mp (mem_map_name_ofDocuments.mpr (filter_output_ne_nil_iff.mp hne))
    have heq : g' = g := by
      have hdocument' := document_of_mem_ofDocuments hg'
      cases g
      cases g'
      cases hname
      exact congrArg _ (hdocument'.trans hdocument.symm)
    exact heq ▸ hg'

/-- The groups are the same, up to their order, if each output gets the same documents in the same
order. -/
theorem perm_ofDocuments_of_filter_eq {ds' : List Document}
    (h : ∀ n, ds.filter (fun d => d.output = n) = ds'.filter fun d => d.output = n) :
    (ofDocuments ds).Perm (ofDocuments ds') := by
  have hnodup (ds : List Document) : (ofDocuments ds).Nodup :=
    .of_map _ (nodup_map_name_ofDocuments ds)
  apply (List.perm_ext_iff_of_nodup (hnodup ds) (hnodup ds')).mpr
  intro g
  rw [mem_ofDocuments_iff, mem_ofDocuments_iff, h]

theorem filter_output_swap {a b : Document} (h : a.output ≠ b.output) (front back : List Document)
    (n : Text) :
    (front ++ b :: a :: back).filter (fun d => d.output = n) =
      (front ++ a :: b :: back).filter fun d => d.output = n := by
  rw [List.filter_append, List.filter_append]
  congr 1
  by_cases ha : a.output = n
  · have hb : b.output ≠ n := fun hb => h (ha.trans hb.symm)
    simp only [List.filter_cons, ha, hb, decide_true, decide_false, if_true, if_false,
      Bool.false_eq_true]
  · simp only [List.filter_cons, ha, decide_false, if_false, Bool.false_eq_true]

/-- What the groups of documents have to be. -/
structure AreGathered (ds : List Document) (gs : List Group) : Prop where
  /-- Each output has one group. They stand in the order in which the outputs first come. -/
  names_eq : gs.map (·.name) = (ds.map (·.output)).eraseDups
  nodup_names : (gs.map (·.name)).Nodup
  source_eq : ∀ g ∈ gs,
    g.document.source = (ds.find? fun d => d.output = g.name).bind (·.source)
  functions_eq : ∀ g ∈ gs,
    g.document.functions = (ds.filter fun d => d.output = g.name).flatMap (·.functions)
  /-- All functions are there, each as often as before. -/
  functions_perm : (gs.flatMap (·.document.functions)).Perm (ds.flatMap (·.functions))

/-- Neighbours that go to different outputs may change places. -/
theorem areGathered_ofDocuments (ds : List Document) :
    AreGathered ds (ofDocuments ds) ∧
      ∀ front a b back, ds = front ++ a :: b :: back → a.output ≠ b.output →
        (ofDocuments (front ++ b :: a :: back)).Perm (ofDocuments ds) := by
  refine ⟨?_, ?_⟩
  · refine ⟨map_name_ofDocuments ds, nodup_map_name_ofDocuments ds, ?_, ?_,
      flatMap_functions_ofDocuments ds⟩
    · intro g hg
      rw [document_of_mem_ofDocuments hg, Document.merged, List.head?_filter]
    · intro g hg
      rw [document_of_mem_ofDocuments hg, Document.merged]
  · rintro front a b back rfl hne
    exact perm_ofDocuments_of_filter_eq (filter_output_swap hne front back)

/-- A document without a source, one of a file `-.md`, and one of another output between them. -/
theorem areGathered_ofDocuments_between :
    let a : Document := { functions := [{ name := ['f'] }] }
    let b : Document := { source := some "d/x.py".toList, functions := [{ name := ['g'] }] }
    let c : Document := { source := some "e/-.md".toList, functions := [{ name := ['h'] }] }
    a.output ≠ b.output ∧ (ofDocuments [b, a, c]).Perm (ofDocuments [a, b, c]) ∧
      ofDocuments [a, b, c] =
        [⟨['-'], { functions := [{ name := ['f'] }, { name := ['h'] }] }⟩, ⟨['x'], b⟩] := by
  have hne : outputName ['-'] ≠ outputName "d/x.py".toList := by decide +kernel
  exact ⟨hne, (areGathered_ofDocuments _).2 [] _ _ _ rfl hne, by decide +kernel⟩

end Group

end DocComment
