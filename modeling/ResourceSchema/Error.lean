/-
# What can go wrong

Loading a schema fails because the text cannot be read, is not JSON, is JSON of
another form, or is not an object at all.  Generating fails because the schema
could not be loaded, because the disk refuses, because a package cannot be laid
out in folders, or because the schema refers to types in a way that cannot be
resolved; only the last of these are faults of the schema itself.
-/

import ResourceSchema.Json.Fault
import ResourceSchema.Form.Mismatch
import ResourceSchema.Disk.Error

namespace ResourceSchema

/-- Why a schema could not be loaded. -/
inductive LoadError where
  | malformed (error : SyntaxError)
  | mismatch (error : Mismatch)
  | invalidStructure (message : String)
  | io (error : IoError)
deriving DecidableEq

/-- The wording, where there is one. -/
def LoadError.message? : LoadError → Option String
  | malformed e => some ("JSON error: " ++ e.message)
  | mismatch e => some ("JSON error: " ++ e.message)
  | invalidStructure message => some ("invalid schema structure: " ++ message)
  | io e => e.message?

/-- Why something could not be generated. -/
inductive GenerateError where
  | unknownType (name : String)
  | noBaseType (name : String)
  | recursiveType (name : String) (limit : Nat)
  | generation (message : String)
  | io (error : IoError)
  | schema (error : LoadError)
deriving DecidableEq

namespace GenerateError

/-- The wording, where there is one. -/
def message? : GenerateError → Option String
  | unknownType name => some ("cannot find type '" ++ name ++ "'")
  | noBaseType name => some ("type '" ++ name ++ "' has no base type")
  | recursiveType name limit =>
    some ("type '" ++ name ++ "' nests deeper than " ++ toString limit ++ " levels")
  | generation message => some ("generation error: " ++ message)
  | io e => e.message?
  | schema e => e.message?.map ("schema error: " ++ ·)

/-- Whether the schema itself is at fault: a reference that dangles, has no
base type, or is nested without end. -/
def isSchemaIntegrity : GenerateError → Bool
  | unknownType _ | noBaseType _ | recursiveType _ _ => true
  | _ => false

end GenerateError

end ResourceSchema
