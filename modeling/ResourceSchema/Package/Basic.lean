/-
# Packages

A schema has two packages: its base package, which is its own unless another is
asked for, and below it the generated one, whose classes are written anew on
every run.  An empty override is no override, and an empty package is the
default package, which is never declared.
-/

import ResourceSchema.Schema.Basic

namespace ResourceSchema

/-- The last name of a generated package. -/
def generatedName : String := "parsec_generated"

/-- The package of the classes that are maintained by hand. -/
def Schema.basePackage (schema : Schema) (override? : Option String) : String :=
  match override? with
  | some override => if override = "" then schema.package?.getD "" else override
  | none => schema.package?.getD ""

/-- The package below another that holds generated classes. -/
def generatedBelow (package : String) : String :=
  if package = "" then generatedName else package ++ "." ++ generatedName

/-- The package of the classes that are generated on every run. -/
def Schema.generatedPackage (schema : Schema) (override? : Option String) : String :=
  generatedBelow (schema.basePackage override?)

/-- The version at the end of a path. -/
def versionSuffix (version : UInt32) : String := "/v" ++ toString version

/-- The path below which a schema's resources are served: a base path that is
given, or else the schema's name, and then the version. -/
def Schema.rootPath (schema : Schema) (basePath? : Option String) : String :=
  let base := basePath?.getD ""
  let name := schema.name?.getD ""
  if base ≠ "" then
    match schema.version? with
    | some version => if base = "/" then versionSuffix version else base ++ versionSuffix version
    | none => base
  else if name ≠ "" then "/" ++ name ++ (schema.version?.map versionSuffix).getD ""
  else "/"

/-- Whether a class is generated on every run, or written once and maintained by
hand from then on. -/
inductive Placement where
  | generated
  | manual
deriving DecidableEq, Repr, Inhabited

/-- The comment lines that say what wrote a file. -/
def bannerLines (banner : String) : String :=
  "//\n// This file is generated by " ++ banner ++ "\n"

namespace Placement

/-- The package of a class. -/
def package (placement : Placement) (schema : Schema) (override? : Option String) : String :=
  match placement with
  | generated => schema.generatedPackage override?
  | manual => schema.basePackage override?

/-- The comment at the top of a file. -/
def header (placement : Placement) (banner : String) : String :=
  bannerLines banner ++
    match placement with
    | generated => "// Please DO NOT edit directly; changes could be overwritten.\n//\n"
    | manual => "// WILL NOT be auto-generated if file has already existed.\n//\n"

end Placement

/-- The declaration of a package; the default package has none. -/
def packageLine (package : String) : String :=
  if package = "" then "" else "package " ++ package ++ ";\n"

end ResourceSchema
