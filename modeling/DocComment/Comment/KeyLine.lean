import DocComment.Text.Blank
import DocComment.Text.Word

/-!
The lines that open an entry: `name: text`, `name (annotation): text`, `dotted.name: text`.
-/

namespace DocComment

structure KeyLine where
  key : Text
  description : Text
deriving DecidableEq, Repr

namespace KeyLine

/-- Word characters and dots make up a key. -/
def isKeyChar (c : Char) : Bool :=
  Text.isWord c || c = '.'

/-- The description, from what follows the key and the white space after it. An annotation in
round brackets reaches to the last bracket that closes right before a colon. -/
def description? : Text → Option Text
  | ':' :: rest => some rest
  | '(' :: rest => Text.afterLast? "):".toList rest
  | _ => none

def ofLine? (line : Text) : Option KeyLine :=
  let t := Text.trimStart line
  let key := t.takeWhile isKeyChar
  if key.isEmpty then none
  else (description? (Text.trimStart (t.dropWhile isKeyChar))).map fun rest =>
    ⟨key, Text.trim rest⟩

end KeyLine

end DocComment
