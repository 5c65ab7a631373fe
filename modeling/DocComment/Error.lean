import DocComment.Text.Basic

/-!
What can be wrong with a request, apart from its files.
-/

namespace DocComment

inductive Error where
  /-- No kind of source has the extension of this path. -/
  | unsupportedFileType (path : Text)
  | unknownFormat (name : Text)
deriving DecidableEq, Repr

def Error.message : Error → Text
  | unsupportedFileType path => "unsupported file type: ".toList ++ path
  | unknownFormat name =>
    "unknown format: ".toList ++ name ++ ". Use json, markdown, or tool".toList

end DocComment
