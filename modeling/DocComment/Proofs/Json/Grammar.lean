import DocComment.Text.Basic

/-!
The grammar of JSON. A value is spelled by texts that differ in the white space between tokens and
in the way characters are escaped; numbers stand for themselves.
-/

namespace DocComment.Json

/-- What a JSON text says. Members keep their order, and a number keeps its spelling. -/
inductive Tree where
  | null
  | bool (b : Bool)
  | number (spelling : Text)
  | text (t : Text)
  | array (items : List Tree)
  | object (members : List (Text × Tree))

/-- White space between tokens. -/
def isSpace (c : Char) : Bool :=
  c = ' ' || c = '\t' || c = '\n' || c = '\r'

def IsGap (t : Text) : Prop :=
  ∀ c ∈ t, isSpace c = true

def isDigits (t : Text) : Bool :=
  !t.isEmpty && t.all Char.isDigit

/-- No zero stands in front of other digits. -/
def isInteger (t : Text) : Bool :=
  isDigits t && (t = ['0'] || t.head? ≠ some '0')

def unsigned (signs : List Char) (t : Text) : Text :=
  match t with
  | c :: rest => if c ∈ signs then rest else c :: rest
  | [] => []

/-- Nothing, or the letter of an exponent, perhaps a sign, and digits. -/
def isExponent : Text → Bool
  | [] => true
  | c :: t => (c = 'e' || c = 'E') && isDigits (unsigned ['+', '-'] t)

/-- Perhaps a point and digits, and then perhaps an exponent. -/
def isFraction : Text → Bool
  | '.' :: t => isDigits (t.takeWhile Char.isDigit) && isExponent (t.dropWhile Char.isDigit)
  | t => isExponent t

def isNumber (t : Text) : Bool :=
  let magnitude := unsigned ['-'] t
  isInteger (magnitude.takeWhile Char.isDigit) && isFraction (magnitude.dropWhile Char.isDigit)

/-- The character that a letter behind a backslash stands for. -/
def escapes : List (Char × Char) :=
  [('"', '"'), ('\\', '\\'), ('/', '/'), ('b', '\x08'), ('f', '\x0c'), ('n', '\n'), ('r', '\r'),
    ('t', '\t')]

def hexDigit? (c : Char) : Option Nat :=
  if '0' ≤ c ∧ c ≤ '9' then some (c.toNat - 0x30)
  else if 'a' ≤ c ∧ c ≤ 'f' then some (c.toNat - 0x61 + 10)
  else if 'A' ≤ c ∧ c ≤ 'F' then some (c.toNat - 0x41 + 10)
  else none

/-- The code unit that four hexadecimal digits stand for. -/
def codeUnit? (a b c d : Char) : Option Nat := do
  some (((← hexDigit? a) * 16 + (← hexDigit? b)) * 256 + ((← hexDigit? c) * 16 + (← hexDigit? d)))

def isHighSurrogate (n : Nat) : Bool :=
  0xD800 ≤ n && n < 0xDC00

def isLowSurrogate (n : Nat) : Bool :=
  0xDC00 ≤ n && n < 0xE000

/-- The character beyond 16 bits that two surrogates stand for. -/
def surrogatePair (high low : Nat) : Char :=
  Char.ofNat (0x10000 + (high - 0xD800) * 0x400 + (low - 0xDC00))

/-- The ways to write a character inside a string. -/
inductive SpellsChar : Char → Text → Prop where
  | plain {c : Char} : 0x20 ≤ c.toNat → c ≠ '"' → c ≠ '\\' → SpellsChar c [c]
  | letter {e c : Char} : escapes.lookup e = some c → SpellsChar c ['\\', e]
  | unit {a b c d : Char} {n : Nat} : codeUnit? a b c d = some n → isHighSurrogate n = false →
      isLowSurrogate n = false → SpellsChar (Char.ofNat n) ['\\', 'u', a, b, c, d]
  | pair {a b c d a' b' c' d' : Char} {n n' : Nat} : codeUnit? a b c d = some n →
      codeUnit? a' b' c' d' = some n' → isHighSurrogate n = true → isLowSurrogate n' = true →
      SpellsChar (surrogatePair n n')
        ['\\', 'u', a, b, c, d, '\\', 'u', a', b', c', d']

/-- The ways to write a text between quotes. -/
inductive SpellsText : Text → Text → Prop where
  | nil : SpellsText [] []
  | cons {c : Char} {t u v : Text} : SpellsChar c u → SpellsText t v →
      SpellsText (c :: t) (u ++ v)

/-- One or more elements with commas between them and white space around each. -/
inductive SpellsList {α : Type} (spells : α → Text → Prop) : List α → Text → Prop where
  | last {x : α} {v t w : Text} : IsGap v → spells x t → IsGap w →
      SpellsList spells [x] (v ++ (t ++ w))
  | more {x : α} {xs : List α} {v t w u : Text} : IsGap v → spells x t → IsGap w →
      SpellsList spells xs u → SpellsList spells (x :: xs) (v ++ (t ++ (w ++ ',' :: u)))

/-- A name in quotes, a colon and a value. -/
inductive SpellsMember (spells : Tree → Text → Prop) : Text × Tree → Text → Prop where
  | mk {name s v w t : Text} {x : Tree} : SpellsText name s → IsGap v → IsGap w → spells x t →
      SpellsMember spells (name, x) ('"' :: (s ++ '"' :: (v ++ ':' :: (w ++ t))))

/-- The texts that spell a value. -/
inductive Spells : Tree → Text → Prop where
  | null : Spells .null "null".toList
  | true : Spells (.bool true) "true".toList
  | false : Spells (.bool false) "false".toList
  | number {t : Text} : isNumber t = true → Spells (.number t) t
  | text {t s : Text} : SpellsText t s → Spells (.text t) ('"' :: (s ++ ['"']))
  | emptyArray {w : Text} : IsGap w → Spells (.array []) ('[' :: (w ++ [']']))
  | array {items : List Tree} {t : Text} : SpellsList Spells items t →
      Spells (.array items) ('[' :: (t ++ [']']))
  | emptyObject {w : Text} : IsGap w → Spells (.object []) ('\x7b' :: (w ++ ['\x7d']))
  | object {members : List (Text × Tree)} {t : Text} :
      SpellsList (SpellsMember Spells) members t →
        Spells (.object members) ('\x7b' :: (t ++ ['\x7d']))

end DocComment.Json
