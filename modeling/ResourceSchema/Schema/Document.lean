/-
# Schema documents

A schema document is a JSON object in the form of a schema.  Its text is read
as JSON first; only a text that is JSON is looked at for its form, so a fault of
the text is reported before any mismatch, wherever the two lie.
-/

import ResourceSchema.Disk.Access
import ResourceSchema.Error
import ResourceSchema.Form.Load
import ResourceSchema.Form.Print
import ResourceSchema.Form.Schema
import ResourceSchema.Json.Reader

namespace ResourceSchema

namespace Schema

/-- The schema that a tree stands for. -/
def ofJson (document : Json) : Except Mismatch Schema := Schema.shape.load document

/-- The tree that a schema is written as. -/
def toJson (schema : Schema) : Json := Schema.shape.print schema

/-- The schema in a tree, which has to be an object. -/
def ofDocument : Json → Except LoadError Schema
  | .obj members => (ofJson (.obj members)).mapError .mismatch
  | _ => .error (.invalidStructure "schema document must be a JSON object")

/-- The schema in a text. -/
def parse (text : String) : Except LoadError Schema :=
  match Json.parse text with
  | .ok document => ofDocument document
  | .error e => .error (.malformed e)

/-- The schema in a file. -/
def parseFile (t : FileTree) (path : Path) : Except LoadError Schema :=
  match t.readText path with
  | .ok text => parse text
  | .error e => .error (.io e)

end Schema

/-- The tree that a definition is written as. -/
def TypeDef.toJson (definition : TypeDef) : Json := TypeDef.shape.print definition

end ResourceSchema
