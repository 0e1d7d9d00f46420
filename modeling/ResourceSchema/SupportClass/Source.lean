/-
# The source of a support class

A source is the header of the class's placement, the declaration of its
package, an empty line, the imports it needs followed by another empty line,
and the fixed body.  A class is imported when it lies in another package that
has a name; classes of the default package cannot be imported.
-/

import ResourceSchema.Disk.Error
import ResourceSchema.Package.Basic
import ResourceSchema.SupportClass.Basic

namespace ResourceSchema

/-- The banner unless another is given. -/
def defaultBanner : String := "rdlgen 0.1.0"

/-- What a source depends on besides its class and the schema: the banner, the
package asked for, and where this class and the others are placed. -/
structure Context where
  banner : String := defaultBanner
  override? : Option String := none
  placement : Placement := .generated
  peers : SupportClass → Placement := fun _ => .generated

namespace Context

/-- The context with another class placed elsewhere. -/
def withPeer (ctx : Context) (peer : SupportClass) (placement : Placement) : Context :=
  { ctx with peers := fun d => if d = peer then placement else ctx.peers d }

/-- The package of the class. -/
def package (ctx : Context) (schema : Schema) : String :=
  ctx.placement.package schema ctx.override?

/-- The package of another class. -/
def peerPackage (ctx : Context) (schema : Schema) (peer : SupportClass) : String :=
  (ctx.peers peer).package schema ctx.override?

/-- The import of a class from a package. -/
def importLine (package : String) (peer : SupportClass) : String :=
  "import " ++ package ++ "." ++ peer.className ++ ";\n"

/-- The imports of a class. -/
def imports (ctx : Context) (c : SupportClass) (schema : Schema) : List String :=
  c.references.filterMap fun peer =>
    let package := ctx.peerPackage schema peer
    if package ≠ "" ∧ package ≠ ctx.package schema then some (importLine package peer) else none

end Context

namespace SupportClass

/-- The source of a class. -/
def render (c : SupportClass) (schema : Schema) (ctx : Context) : String :=
  let imports := ctx.imports c schema
  ctx.placement.header ctx.banner ++ packageLine (ctx.package schema) ++ "\n" ++
    (if imports = [] then "" else String.join imports ++ "\n") ++ c.body

end SupportClass

/-- Something that takes text: what it took, how often it was asked, and
whether it refuses. -/
structure Sink where
  text : String := ""
  writes : Nat := 0
  refusal? : Option String := none
deriving DecidableEq, Repr

/-- Hands a text to a sink in one piece. -/
def Sink.write (sink : Sink) (text : String) : Except IoError Unit × Sink :=
  match sink.refusal? with
  | some message => (.error (.other message), { sink with writes := sink.writes + 1 })
  | none => (.ok (), { sink with text := sink.text ++ text, writes := sink.writes + 1 })

/-- Hands the source of a class to a sink. -/
def SupportClass.emit (c : SupportClass) (schema : Schema) (ctx : Context) (sink : Sink) :
    Except IoError Unit × Sink :=
  sink.write (c.render schema ctx)

end ResourceSchema
