import DocComment.Proofs.Source.SlashComment
import DocComment.Proofs.Text.Search
import Mathlib.Data.List.DropRight

/-!
Reading upward from a function. The comment of a function stands in the longest run of lines right
above it that are comment lines, blank or attributes. Read so, line by line and with no memory of
what was read before, a source has the very functions that the reader finds on its way down.
-/

namespace DocComment.SlashComment

/-- Three slashes and no fourth. -/
def isCommentLine (line : Text) : Bool :=
  "///".toList.isPrefixOf line && !"////".toList.isPrefixOf line

/-- What stands behind the slashes and one white space. -/
def uncommented (line : Text) : Text :=
  let rest := line.drop 3
  if Text.isIndented rest then rest.tail else rest

/-- Whether a trimmed line may stand between a comment and its function. -/
def keepsComment (line : Text) : Bool :=
  isCommentLine line || line.isEmpty || "#[".toList.isPrefixOf line

/-- The comment that the lines end with. -/
def commentAbove (above : List Text) : List Text :=
  (((above.map Text.trim).rtakeWhile keepsComment).filter isCommentLine).map uncommented

theorem commentText?_eq (line : Text) :
    commentText? line = if isCommentLine line then some (uncommented line) else none := by
  by_cases h : "///".toList <+: line
  · obtain ⟨rest, rfl⟩ := h
    have hafter : Text.after? "///".toList ("///".toList ++ rest) = some rest :=
      Text.after?_eq_some_iff.mpr rfl
    have hrest : uncommented ("///".toList ++ rest) =
        if Text.isIndented rest then rest.tail else rest := rfl
    rw [commentText?, hafter, hrest]
    cases rest with
    | nil => rfl
    | cons c text =>
        have hfour : isCommentLine ("///".toList ++ c :: text) = !('/' == c) := by
          simp [isCommentLine, List.isPrefixOf]
        rw [hfour]
        by_cases hslash : c = '/'
        · simp [hslash]
        · have hother : ('/' == c) = false := beq_false_of_ne (Ne.symm hslash)
          cases hblank : Text.isBlank c <;> simp [hslash, hother, Text.isIndented, hblank]
  · have hafter : Text.after? "///".toList line = none := Text.after?_eq_none_iff.mpr h
    have hcode : isCommentLine line = false := by
      rw [isCommentLine, Bool.eq_false_iff.mpr fun hp => h (List.isPrefixOf_iff_prefix.mp hp)]
      rfl
    rw [commentText?, hafter, hcode]
    rfl

/-- What a line in this role leaves of the comment above it. -/
def Role.left (pending : List Text) : Role → List Text
  | .comment text => pending ++ [text]
  | .between => pending
  | .function _ | .code => []

/-- What a line in this role declares under these comment lines. -/
def Role.declared (number : Nat) (pending : List Text) : Role → List Declaration
  | .function name => if pending.isEmpty then [] else [⟨name, number, ['\n'].intercalate pending⟩]
  | _ => []

theorem declarationsFrom_cons (number : Nat) (pending : List Text) (line : Text)
    (rest : List Text) :
    declarationsFrom number pending (line :: rest) =
      (role (Text.trim line)).declared number pending ++
        declarationsFrom (number + 1) ((role (Text.trim line)).left pending) rest := by
  rw [declarationsFrom]
  cases role (Text.trim line) <;> rfl

theorem functionName?_eq_none_of_start {line : Text} (hvisible : skipVisibility line = line)
    (hqualified : qualifiers.findSome? (afterWord? · line) = none)
    (hforeign : skipExtern line = line) (hfn : afterWord? "fn".toList line = none) :
    functionName? line = none := by
  rw [functionName?, hvisible, skipQualifiers_eq_self hqualified, hforeign, hfn]
  rfl

/-- The line of a function cannot stand between another function and its comment. -/
theorem functionName?_eq_none {line : Text} (h : keepsComment line = true) :
    functionName? line = none := by
  simp only [keepsComment, isCommentLine, Bool.or_eq_true, Bool.and_eq_true,
    List.isPrefixOf_iff_prefix, List.isEmpty_iff] at h
  rcases h with (⟨⟨rest, rfl⟩, -⟩ | rfl) | ⟨rest, rfl⟩ <;>
    exact functionName?_eq_none_of_start rfl rfl rfl rfl

theorem role_of_isCommentLine {line : Text} (h : isCommentLine line = true) :
    role line = .comment (uncommented line) := by
  rw [role, commentText?_eq, if_pos h]

theorem role_of_keepsComment {line : Text} (hc : isCommentLine line = false)
    (h : keepsComment line = true) : role line = .between := by
  have hbetween : (line.isEmpty || "#[".toList.isPrefixOf line) = true := by
    simpa only [keepsComment, hc, Bool.false_or] using h
  rw [role, commentText?_eq, hc]
  exact if_pos hbetween

theorem role_of_code {line : Text} (h : keepsComment line = false) :
    role line = match functionName? line with
      | some name => .function name
      | none => .code := by
  simp only [keepsComment, Bool.or_eq_false_iff] at h
  have hother : ¬ (line.isEmpty || "#[".toList.isPrefixOf line) = true := by
    rw [h.1.2, h.2]
    exact Bool.false_ne_true
  rw [role, commentText?_eq, h.1.1]
  exact if_neg hother

theorem role_eq_function_iff {line name : Text} :
    role line = .function name ↔ functionName? line = some name := by
  cases hkeeps : keepsComment line with
  | false =>
      rw [role_of_code hkeeps]
      cases functionName? line <;> simp
  | true =>
      rw [functionName?_eq_none hkeeps]
      cases hc : isCommentLine line with
      | true => simp [role_of_isCommentLine hc]
      | false => simp [role_of_keepsComment hc hkeeps]

/-- One more line acts on the comment above as its role says. -/
theorem commentAbove_concat (above : List Text) (line : Text) :
    commentAbove (above ++ [line]) = (role (Text.trim line)).left (commentAbove above) := by
  simp only [commentAbove, List.map_append, List.map_cons, List.map_nil, List.rtakeWhile_concat]
  cases hkeeps : keepsComment (Text.trim line) with
  | false =>
      rw [role_of_code hkeeps]
      cases functionName? (Text.trim line) <;> rfl
  | true =>
      cases hc : isCommentLine (Text.trim line) with
      | true =>
          rw [role_of_isCommentLine hc]
          simp [hc, Role.left]
      | false =>
          rw [role_of_keepsComment hc hkeeps]
          simp [hc, Role.left]

theorem mem_declared_iff {number : Nat} {pending : List Text} {line : Text} {d : Declaration} :
    d ∈ (role line).declared number pending ↔
      ∃ name, functionName? line = some name ∧ pending ≠ [] ∧
        d = ⟨name, number, ['\n'].intercalate pending⟩ := by
  cases hrole : role line with
  | function name =>
      have hname := role_eq_function_iff.mp hrole
      cases pending <;> simp [Role.declared, hname]
  | comment text | between | code =>
      have hnone : functionName? line = none := by
        rw [Option.eq_none_iff_forall_ne_some]
        intro name hname
        rw [role_eq_function_iff.mpr hname] at hrole
        cases hrole
      simp [Role.declared, hnone]

/-- On its way down the reader holds the comment above, so a line declares what can be read upward
from it. -/
theorem mem_declarationsFrom_iff (above lines : List Text) (d : Declaration) :
    d ∈ declarationsFrom (above.length + 1) (commentAbove above) lines ↔
      ∃ front line below, lines = front ++ line :: below ∧
        d ∈ (role (Text.trim line)).declared ((above ++ front).length + 1)
          (commentAbove (above ++ front)) := by
  induction lines generalizing above with
  | nil => simp [declarationsFrom]
  | cons l lines ih =>
      have hnext := ih (above ++ [l])
      simp only [List.length_append, List.length_singleton, List.append_assoc,
        List.singleton_append, commentAbove_concat] at hnext
      rw [declarationsFrom_cons, List.mem_append, hnext]
      constructor
      · rintro (hd | ⟨front, line, below, rfl, hd⟩)
        · exact ⟨[], l, lines, rfl, by simpa using hd⟩
        · exact ⟨l :: front, line, below, rfl, by simpa using hd⟩
      · rintro ⟨front, line, below, hlines, hd⟩
        cases front with
        | nil =>
            cases hlines
            exact .inl (by simpa using hd)
        | cons k front =>
            cases hlines
            exact .inr ⟨front, line, below, rfl, by simpa using hd⟩

theorem le_line_of_mem {number : Nat} {pending lines : List Text} {d : Declaration}
    (hd : d ∈ declarationsFrom number pending lines) : number ≤ d.line := by
  induction lines generalizing number pending with
  | nil => cases hd
  | cons l lines ih =>
      rw [declarationsFrom_cons, List.mem_append, mem_declared_iff] at hd
      rcases hd with ⟨name, -, -, rfl⟩ | hd
      · exact le_rfl
      · exact Nat.le_of_succ_le (ih hd)

theorem pairwise_line_declarationsFrom (number : Nat) (pending lines : List Text) :
    (declarationsFrom number pending lines).Pairwise (·.line < ·.line) := by
  induction lines generalizing number pending with
  | nil => exact .nil
  | cons l lines ih =>
      rw [declarationsFrom_cons, List.pairwise_append]
      refine ⟨?_, ih .., ?_⟩
      · cases role (Text.trim l) <;> simp only [Role.declared, List.Pairwise.nil]
        split <;> simp
      · intro d hd e he
        obtain ⟨name, -, -, rfl⟩ := mem_declared_iff.mp hd
        exact le_line_of_mem he

/-- A function is found at a line if and only if the line declares it and a comment line stands in
the run of lines right above. Its record is read from this comment, and the functions come in the
order of their lines. -/
theorem mem_functions_declarations_iff (source : Text) :
    (∀ f, f ∈ (Document.ofDeclarations (declarations source)).functions ↔
      ∃ above line below name, Text.lines source = above ++ line :: below ∧
        functionName? (Text.trim line) = some name ∧ commentAbove above ≠ [] ∧
        f = { name, line := above.length + 1,
              record := Record.ofText (['\n'].intercalate (commentAbove above)) }) ∧
      (Document.ofDeclarations (declarations source)).functions.Pairwise (·.line < ·.line) := by
  constructor
  · intro f
    have hmem := mem_declarationsFrom_iff [] (Text.lines source)
    constructor
    · intro hf
      obtain ⟨d, hd, rfl⟩ := List.mem_map.mp hf
      obtain ⟨above, line, below, hlines, hd⟩ := (hmem d).mp hd
      obtain ⟨name, hname, hne, rfl⟩ := mem_declared_iff.mp hd
      exact ⟨above, line, below, name, hlines, hname, hne, rfl⟩
    · rintro ⟨above, line, below, name, hlines, hname, hne, rfl⟩
      apply List.mem_map.mpr
      refine ⟨⟨name, above.length + 1, ['\n'].intercalate (commentAbove above)⟩, ?_, rfl⟩
      apply (hmem _).mpr
      exact ⟨above, line, below, hlines, mem_declared_iff.mpr ⟨name, hname, hne, rfl⟩⟩
  · rw [Document.ofDeclarations, List.pairwise_map]
    exact pairwise_line_declarationsFrom ..

end DocComment.SlashComment
