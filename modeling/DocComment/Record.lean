import DocComment.Entries

/-!
What a doc comment says about a function, and the documented functions of one input.
-/

namespace DocComment

/-- The content of one doc comment. Texts hold no line feed and have no white space around. -/
structure Record where
  summary : Text := []
  /-- Parameters and their descriptions. -/
  args : Entries := ∅
  returns : Text := []
  /-- Errors, by possibly dotted name, and when they arise. -/
  raises : Entries := ∅
deriving DecidableEq, Inhabited

structure DocumentedFunction where
  name : Text
  /-- The line of the declaration, counted from 1; 0 for a comment that stands alone. -/
  line : Nat := 0
  /-- The file that the function was read from. -/
  source : Option Text := none
  record : Record := {}
deriving DecidableEq, Inhabited

/-- The documented functions of one input, in the order of their declarations. -/
structure Document where
  source : Option Text := none
  functions : List DocumentedFunction := []
deriving DecidableEq, Inhabited

end DocComment
