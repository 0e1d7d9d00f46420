/-
# Input and output errors

Why something could not be read or written.  Only `other` carries a text of its
own; the rest are told apart by what they are.
-/

namespace ResourceSchema

/-- Why something could not be read or written. -/
inductive IoError where
  /-- Nothing is there, or a folder on the way is missing. -/
  | notFound
  /-- Something on the way is a file. -/
  | notADirectory
  /-- A folder is where a file is needed. -/
  | isADirectory
  /-- A file is where a folder is to be created. -/
  | alreadyExists
  /-- A name or the path is too long. -/
  | invalidFilename
  /-- The path holds a NUL character. -/
  | invalidInput
  /-- The content is not UTF-8. -/
  | invalidData
  | other (message : String)
deriving DecidableEq, Repr

/-- The wording, where there is one. -/
def IoError.message? : IoError → Option String
  | .other message => some ("IO error: " ++ message)
  | _ => none

end ResourceSchema
