import DocComment.Text.Basic

/-!
The order of texts by their characters, and that of lists in general: the first place where two
lists differ decides, and a list comes before its continuations.
-/

namespace DocComment

/-- Whether the first list comes no later than the second, when `lt` orders the elements. -/
def lexLe {α : Type} (lt : α → α → Bool) : List α → List α → Bool
  | [], _ => true
  | _ :: _, [] => false
  | a :: l, b :: m => lt a b || (!lt b a && lexLe lt l m)

theorem lexLe_total {α : Type} (lt : α → α → Bool) (l m : List α) :
    (lexLe lt l m || lexLe lt m l) = true := by
  induction l generalizing m with
  | nil => simp [lexLe]
  | cons a l ih =>
    cases m with
    | nil => simp [lexLe]
    | cons b m =>
      have h := ih m
      cases hab : lt a b <;> cases hba : lt b a <;> simp_all [lexLe]

namespace Text

def le : Text → Text → Bool :=
  lexLe fun a b => decide (a.toNat < b.toNat)

def lt (t u : Text) : Bool :=
  !le u t

end Text

end DocComment
