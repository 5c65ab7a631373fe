import DocComment.Proofs.Comment.Plain
import DocComment.Report.Format

/-!
Markdown tells apart what it shows. Nothing is escaped and empty parts are left out, but the lines
of a report are known from its text, and a report that starts with the lines of a function can be
cut behind them in one way only. Two reports agree just when their functions do, in order, in
names and records.
-/

namespace DocComment

namespace Markdown

variable {f g : DocumentedFunction} {rest rest' content content' : List Text} {title : Text}

theorem entryItem_eq (name description : Text) :
    entryItem name description = "* **".toList ++ (name ++
      '*' :: '*' :: if description.isEmpty then [] else ": ".toList ++ description) := by
  unfold entryItem
  rw [List.append_assoc, List.append_assoc]
  rfl

theorem entryItem_inj {n m t u : Text} (hn : KeyLine.IsKey n) (hm : KeyLine.IsKey m)
    (h : entryItem n t = entryItem m u) : n = m ∧ t = u := by
  have hstar : KeyLine.isKeyChar '*' = false := by decide
  rw [entryItem_eq, entryItem_eq] at h
  obtain ⟨hnm, hrest⟩ :=
    append_cons_inj (hn.not_mem hstar) (hm.not_mem hstar) (List.append_cancel_left h)
  refine ⟨hnm, ?_⟩
  cases t <;> cases u <;> simp_all

theorem entryItems_inj {e e' : Entries} (he : e.IsPlain) (he' : e'.IsPlain)
    (h : entryItems e = entryItems e') : e = e' := by
  refine Entries.eq_of_toList_eq (eq_of_map_eq ?_ h)
  intro p hp q hq hpq
  obtain ⟨hname, hdescription⟩ := entryItem_inj (he p hp).1 (he' q hq).1 hpq
  exact Prod.ext hname hdescription

theorem nil_not_mem_entryItems (e : Entries) : [] ∉ entryItems e := by
  intro h
  obtain ⟨p, -, hp⟩ := List.mem_map.mp h
  rw [entryItem_eq] at hp
  cases hp

theorem paragraph_inj {t u : Text} (h : paragraph t = paragraph u) : t = u := by
  cases t <;> cases u <;> simp_all [paragraph]

theorem nil_not_mem_paragraph (t : Text) : [] ∉ paragraph t := by
  cases t <;> simp [paragraph]

theorem head?_part_append (title : Text) (content rest : List Text) :
    (part title content ++ rest).head? =
      if content.isEmpty then rest.head? else some ("#### ".toList ++ title) := by
  cases content <;> rfl

/-- A part ends at the first empty line behind its title, and is absent if its title is. -/
theorem part_append_inj (hc : [] ∉ content) (hc' : [] ∉ content')
    (hrest : rest.head? ≠ some ("#### ".toList ++ title))
    (hrest' : rest'.head? ≠ some ("#### ".toList ++ title))
    (h : part title content ++ rest = part title content' ++ rest') :
    content = content' ∧ rest = rest' := by
  have hhead := congrArg List.head? h
  rw [head?_part_append, head?_part_append] at hhead
  cases content with
  | nil =>
      cases content' with
      | nil => exact ⟨rfl, h⟩
      | cons c content' => exact absurd hhead hrest
  | cons c content =>
      cases content' with
      | nil => exact absurd hhead.symm hrest'
      | cons c' content' =>
          have hlines (a : List Text) (b : Text) (r : List Text) : part title (b :: a) ++ r =
              ("#### ".toList ++ title) :: [] :: (b :: a ++ [] :: r) := by
            simp [part]
          rw [hlines, hlines] at h
          exact append_cons_inj hc hc' (List.tail_eq_of_cons_eq (List.tail_eq_of_cons_eq h))

/-- The parts behind the summary, and the empty line that divides functions. -/
def partsBefore (r : Record) (rest : List Text) : List Text :=
  part "Arguments".toList (entryItems r.args) ++
    (part "Returns".toList (paragraph r.returns) ++
      (part "Raises".toList (entryItems r.raises) ++ [] :: rest))

theorem partsBefore_inj {r r' : Record} (hr : r.IsPlain) (hr' : r'.IsPlain)
    (h : partsBefore r rest = partsBefore r' rest') :
    (r.args = r'.args ∧ r.returns = r'.returns ∧ r.raises = r'.raises) ∧ rest = rest' := by
  have hend (title : Text) (rest : List Text) :
      ([] :: rest).head? ≠ some ("#### ".toList ++ title) := by
    simp
  have hraises (a rest : List Text) : (part "Raises".toList a ++ [] :: rest).head? ≠
      some ("#### ".toList ++ "Returns".toList) := by
    rw [head?_part_append]
    split
    · exact hend _ _
    · decide
  have hreturns (a b rest : List Text) :
      (part "Returns".toList a ++ (part "Raises".toList b ++ [] :: rest)).head? ≠
        some ("#### ".toList ++ "Arguments".toList) := by
    rw [head?_part_append, head?_part_append]
    split
    · split
      · exact hend _ _
      · decide
    · decide
  obtain ⟨hargs, h⟩ := part_append_inj (nil_not_mem_entryItems _) (nil_not_mem_entryItems _)
    (hreturns _ _ _) (hreturns _ _ _) h
  obtain ⟨hreturns, h⟩ := part_append_inj (nil_not_mem_paragraph _) (nil_not_mem_paragraph _)
    (hraises _ _) (hraises _ _) h
  obtain ⟨hraises, h⟩ := part_append_inj (nil_not_mem_entryItems _) (nil_not_mem_entryItems _)
    (hend _ _) (hend _ _) h
  exact ⟨⟨entryItems_inj hr.args hr'.args hargs, paragraph_inj hreturns,
    entryItems_inj hr.raises hr'.raises hraises⟩, List.tail_eq_of_cons_eq h⟩

/-- The third line is the summary in any case: without one the function ends there. -/
theorem functionLines_append (hf : f.record.IsRead) (rest : List Text) :
    functionLines f ++ [] :: rest = ("### ".toList ++ f.name) :: [] :: f.record.summary ::
      if f.record.summary.isEmpty then rest else [] :: partsBefore f.record rest := by
  cases hs : f.record.summary with
  | nil =>
      rw [functionLines, hf.eq_empty hs]
      rfl
  | cons c s => simp [functionLines, partsBefore, hs]

theorem functionLines_append_inj (hf : f.record.IsRead) (hg : g.record.IsRead)
    (h : functionLines f ++ [] :: rest = functionLines g ++ [] :: rest') :
    (f.name = g.name ∧ f.record = g.record) ∧ rest = rest' := by
  rw [functionLines_append hf, functionLines_append hg] at h
  have hname : f.name = g.name := List.append_cancel_left (List.head_eq_of_cons_eq h)
  replace h := List.tail_eq_of_cons_eq (List.tail_eq_of_cons_eq h)
  have hsummary : f.record.summary = g.record.summary := List.head_eq_of_cons_eq h
  replace h := List.tail_eq_of_cons_eq h
  rw [← hsummary] at h
  by_cases hs : f.record.summary = []
  · rw [hs] at h
    refine ⟨⟨hname, ?_⟩, h⟩
    rw [hf.eq_empty hs, hg.eq_empty (hsummary ▸ hs)]
  · rw [if_neg (by simpa using hs), if_neg (by simpa using hs)] at h
    obtain ⟨⟨hargs, hreturns, hraises⟩, hrest⟩ :=
      partsBefore_inj hf.plain hg.plain (List.tail_eq_of_cons_eq h)
    refine ⟨⟨hname, ?_⟩, hrest⟩
    cases hr : f.record
    cases hr' : g.record
    simp_all

theorem newline_not_mem_entryItems {e : Entries} (he : e.IsPlain) :
    ∀ l ∈ entryItems e, '\n' ∉ l := by
  intro l hl
  obtain ⟨p, hp, rfl⟩ := List.mem_map.mp hl
  obtain ⟨hkey, hdescription⟩ := he p hp
  have hname : '\n' ∉ p.1 := hkey.not_mem (by decide)
  cases hd : p.2.isEmpty <;> simp [entryItem_eq, hd, hname, hdescription.newline_not_mem]

theorem newline_not_mem_part (htitle : '\n' ∉ title) (hc : ∀ l ∈ content, '\n' ∉ l) :
    ∀ l ∈ part title content, '\n' ∉ l := by
  intro l hl
  rw [part] at hl
  split at hl
  · cases hl
  · simp only [List.cons_append, List.nil_append, List.mem_cons, List.mem_append,
      List.not_mem_nil, or_false] at hl
    rcases hl with rfl | rfl | hl | rfl
    · simpa using htitle
    · exact List.not_mem_nil
    · exact hc l hl
    · exact List.not_mem_nil

theorem newline_not_mem_functionLines (hname : '\n' ∉ f.name) (hf : f.record.IsPlain) :
    ∀ l ∈ functionLines f, '\n' ∉ l := by
  have hparagraph : ∀ l ∈ paragraph f.record.returns, '\n' ∉ l := by
    intro l hl
    rw [paragraph] at hl
    split at hl
    · cases hl
    · rw [List.mem_singleton.mp hl]
      exact hf.returns.newline_not_mem
  intro l hl
  simp only [functionLines, List.mem_append] at hl
  rcases hl with (((hl | hl) | hl) | hl) | hl
  · simp only [List.mem_cons, List.not_mem_nil, or_false] at hl
    rcases hl with rfl | rfl
    · simpa using hname
    · exact List.not_mem_nil
  · split at hl
    · cases hl
    · simp only [List.mem_cons, List.not_mem_nil, or_false] at hl
      rcases hl with rfl | rfl
      · exact hf.summary.newline_not_mem
      · exact List.not_mem_nil
  · exact newline_not_mem_part (by decide) (newline_not_mem_entryItems hf.args) l hl
  · exact newline_not_mem_part (by decide) hparagraph l hl
  · exact newline_not_mem_part (by decide) (newline_not_mem_entryItems hf.raises) l hl

/-- The lines of a report, each function with the empty line behind it. -/
def pageLines (d : Document) : List Text :=
  d.functions.flatMap fun f => functionLines f ++ [[]]

theorem intercalate_newline {bs : List Text} (hbs : bs ≠ []) :
    ['\n'].intercalate bs ++ ['\n'] = bs.flatMap (· ++ ['\n']) := by
  induction bs with
  | nil => exact absurd rfl hbs
  | cons b bs ih =>
      cases bs with
      | nil => simp
      | cons c bs =>
          have hrest := ih (List.cons_ne_nil c bs)
          rw [List.intercalate_cons_cons, List.append_assoc, hrest]
          rfl

/-- The last function lacks the empty line behind it. -/
theorem render_append_newline {d : Document} (hd : d.functions ≠ []) :
    render d ++ ['\n'] = (pageLines d).flatMap (· ++ ['\n']) := by
  have hblocks : d.functions.map block ≠ [] := by simpa using hd
  rw [render, intercalate_newline hblocks, pageLines, List.flatMap_assoc, List.flatMap_map]
  congr 1
  funext f
  rw [block, List.flatMap_append]
  rfl

theorem render_eq_nil_iff {d : Document} : render d = [] ↔ d.functions = [] := by
  constructor
  · intro h
    by_contra hd
    have hlines := render_append_newline hd
    obtain ⟨f, fs, hfs⟩ := List.exists_cons_of_ne_nil hd
    rw [h, pageLines, hfs] at hlines
    simp [functionLines] at hlines
  · intro h
    rw [render, h]
    rfl

theorem forall₂_of_flatMap_functionLines {fs gs : List DocumentedFunction}
    (hfs : ∀ f ∈ fs, f.record.IsRead) (hgs : ∀ g ∈ gs, g.record.IsRead)
    (h : fs.flatMap (fun f => functionLines f ++ [[]]) =
      gs.flatMap fun g => functionLines g ++ [[]]) :
    List.Forall₂ (fun f g => f.name = g.name ∧ f.record = g.record) fs gs := by
  induction fs generalizing gs with
  | nil =>
      cases gs with
      | nil => exact .nil
      | cons g gs => simp [functionLines] at h
  | cons f fs ih =>
      cases gs with
      | nil => simp [functionLines] at h
      | cons g gs =>
          simp only [List.flatMap_cons, List.append_assoc, List.singleton_append] at h
          obtain ⟨hfg, hrest⟩ := functionLines_append_inj (hfs f (List.mem_cons_self ..))
            (hgs g (List.mem_cons_self ..)) h
          exact .cons hfg (ih (fun k hk => hfs k (List.mem_cons_of_mem f hk))
            (fun k hk => hgs k (List.mem_cons_of_mem g hk)) hrest)

theorem forall₂_of_render_eq {d e : Document}
    (hd : ∀ f ∈ d.functions, '\n' ∉ f.name ∧ f.record.IsRead)
    (he : ∀ g ∈ e.functions, '\n' ∉ g.name ∧ g.record.IsRead) (h : render d = render e) :
    List.Forall₂ (fun f g => f.name = g.name ∧ f.record = g.record) d.functions e.functions := by
  by_cases hnil : d.functions = []
  · have hnil' : e.functions = [] := render_eq_nil_iff.mp (h ▸ render_eq_nil_iff.mpr hnil)
    rw [hnil, hnil']
    exact .nil
  · have hnil' : e.functions ≠ [] := fun h' =>
      hnil (render_eq_nil_iff.mp (h.trans (render_eq_nil_iff.mpr h')))
    have hlines {d : Document} (hd : ∀ f ∈ d.functions, '\n' ∉ f.name ∧ f.record.IsRead) :
        ∀ l ∈ pageLines d, '\n' ∉ l := by
      intro l hl
      obtain ⟨f, hf, hl⟩ := List.mem_flatMap.mp hl
      rcases List.mem_append.mp hl with hl | hl
      · exact newline_not_mem_functionLines (hd f hf).1 (hd f hf).2.plain l hl
      · rw [List.mem_singleton.mp hl]
        exact List.not_mem_nil
    have hpages : (pageLines d).flatMap (· ++ ['\n']) = (pageLines e).flatMap (· ++ ['\n']) := by
      rw [← render_append_newline hnil, ← render_append_newline hnil', h]
    exact forall₂_of_flatMap_functionLines (fun f hf => (hd f hf).2) (fun g hg => (he g hg).2)
      (Text.flatMap_newline_inj (hlines hd) (hlines he) hpages)

theorem map_block_eq {fs gs : List DocumentedFunction}
    (h : List.Forall₂ (fun f g => f.name = g.name ∧ f.record = g.record) fs gs) :
    fs.map block = gs.map block := by
  induction h with
  | nil => rfl
  | @cons f g fs gs hfg _ ih =>
      have hblock : block f = block g := by rw [block, functionLines, hfg.1, hfg.2]; rfl
      rw [List.map_cons, hblock, ih, List.map_cons]

end Markdown

/-- Two documents have one Markdown text just when their functions agree one by one in what is
shown of them: lines and sources are not. -/
theorem markdown_eq_iff {d e : Document}
    (hd : ∀ f ∈ d.functions, '\n' ∉ f.name ∧ f.IsCommented)
    (he : ∀ g ∈ e.functions, '\n' ∉ g.name ∧ g.IsCommented) :
    Format.markdown.render d = Format.markdown.render e ↔
      List.Forall₂ (fun f g => f.name = g.name ∧ f.record = g.record) d.functions e.functions := by
  constructor
  · exact Markdown.forall₂_of_render_eq (fun f hf => ⟨(hd f hf).1, (hd f hf).2.isRead⟩)
      (fun g hg => ⟨(he g hg).1, (he g hg).2.isRead⟩)
  · intro h
    exact congrArg ['\n'].intercalate (Markdown.map_block_eq h)

theorem markdown_eq_iff_headings :
    ∃ d e : Document, d ≠ e ∧
      (∀ f ∈ d.functions, '\n' ∉ f.name ∧ f.IsCommented) ∧
      (∀ g ∈ e.functions, '\n' ∉ g.name ∧ g.IsCommented) ∧
      Format.markdown.render d = Format.markdown.render e ∧
      List.Forall₂ (fun f g => f.name = g.name ∧ f.record = g.record) d.functions e.functions ∧
      d.functions.map (·.record) = [⟨"### g".toList, Entries.ofList [("x".toList, [])],
        "* **y**: #### Raises".toList, ∅⟩, {}] := by
  let t := "### g\nArgs:\n  x:\nReturns:\n  * **y**:\n\n  #### Raises\n".toList
  let r := Record.ofComment (some t)
  let d : Document := ⟨none, [⟨"f".toList, 3, none, r⟩, ⟨"#### Raises".toList, 0, none, {}⟩]⟩
  let e : Document :=
    ⟨some "a.py".toList, [⟨"f".toList, 5, none, r⟩, ⟨"#### Raises".toList, 0, none, {}⟩]⟩
  have hd : ∀ f ∈ d.functions, '\n' ∉ f.name ∧ f.IsCommented := by
    intro f hf
    rcases List.mem_pair.mp hf with rfl | rfl
    · exact ⟨by decide, some t, rfl⟩
    · exact ⟨by decide, none, rfl⟩
  have he : ∀ g ∈ e.functions, '\n' ∉ g.name ∧ g.IsCommented := by
    intro g hg
    rcases List.mem_pair.mp hg with rfl | rfl
    · exact ⟨by decide, some t, rfl⟩
    · exact ⟨by decide, none, rfl⟩
  have hrender : Format.markdown.render d = Format.markdown.render e := rfl
  have hr : r = ⟨"### g".toList, Entries.ofList [("x".toList, [])],
      "* **y**: #### Raises".toList, ∅⟩ := by decide +kernel
  refine ⟨d, e, by decide, hd, he, hrender, (markdown_eq_iff hd he).mp hrender, ?_⟩
  exact congrArg (fun r => [r, {}]) hr

end DocComment
