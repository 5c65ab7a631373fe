import DocComment.Text.Basic

/-!
Texts in files and streams, as UTF-8.
-/

namespace DocComment.Text

/-- The text that the bytes encode, if they are valid UTF-8. -/
def ofBytes? (bytes : ByteArray) : Option Text :=
  (String.fromUTF8? bytes).map String.toList

def toBytes (t : Text) : ByteArray :=
  (String.ofList t).toUTF8

theorem ofBytes?_toBytes (t : Text) : ofBytes? (toBytes t) = some t := by
  have h : String.fromUTF8? (String.ofList t).toUTF8 = some (String.ofList t) := by
    unfold String.fromUTF8?
    rw [String.toUTF8_eq_toByteArray, dif_pos (String.ofList t).isValidUTF8]
    rfl
  unfold ofBytes? toBytes
  rw [h, Option.map_some, String.toList_ofList]

end DocComment.Text
