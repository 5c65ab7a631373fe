import DocComment.Text.Basic

/-!
White space, and trimming it away.
-/

namespace DocComment.Text

/-- The code points with the Unicode property White_Space. -/
def blankRanges : List (Nat × Nat) :=
  [(0x9, 0xD), (0x20, 0x20), (0x85, 0x85), (0xA0, 0xA0), (0x1680, 0x1680), (0x2000, 0x200A),
    (0x2028, 0x2029), (0x202F, 0x202F), (0x205F, 0x205F), (0x3000, 0x3000)]

def isBlank (c : Char) : Bool :=
  inRanges blankRanges c

/-- A space or a tab: the indentation that block structure is read from. -/
def isIndent (c : Char) : Bool :=
  c = ' ' || c = '\t'

def trimStart (t : Text) : Text :=
  t.dropWhile isBlank

def trimEnd (t : Text) : Text :=
  (t.reverse.dropWhile isBlank).reverse

def trim (t : Text) : Text :=
  trimEnd (trimStart t)

/-- Whether the line holds nothing but white space. -/
def isBlankLine (t : Text) : Bool :=
  t.all isBlank

/-- Whether the line starts with white space. -/
def isIndented : Text → Bool
  | [] => false
  | c :: _ => isBlank c

end DocComment.Text
