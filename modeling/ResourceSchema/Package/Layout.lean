/-
# Where packages lie

A package lies below a root folder, in one folder for each of its names.  The
names are what stands between the dots; none may be empty or hold a slash or a
backslash, so a package never leaves its root and no two packages share a
folder.
-/

import ResourceSchema.Disk.Access
import ResourceSchema.Error

namespace ResourceSchema

/-- The root of generated classes, unless another is given. -/
def generatedRoot : Path := "./target/generated-sources/java"

/-- The root of classes maintained by hand, unless another is given. -/
def manualRoot : Path := "./src/main/java"

/-- The names of a package.  The default package has none. -/
def packageNames (package : String) : List String :=
  if package = "" then [] else pieces '.' package

/-- Whether a package name can be the name of a folder. -/
def isFolderName (name : String) : Bool :=
  name ≠ "" ∧ '/' ∉ name.toList ∧ '\\' ∉ name.toList

/-- The folder of a package below a root. -/
def packageFolder (root : Path) (package : String) : Except GenerateError Path :=
  if (packageNames package).all isFolderName then
    .ok ((packageNames package).foldl Path.join root)
  else .error (.generation ("invalid package name '" ++ package ++ "'"))

/-- The folder of a package below a root, created if it is not there. -/
def FileTree.ensurePackage (t : FileTree) (root : Path) (package : String) :
    Except GenerateError Path × FileTree :=
  match packageFolder root package with
  | .error e => (.error e, t)
  | .ok folder =>
    match t.createFolders folder with
    | (.error e, t) => (.error (.io e), t)
    | (.ok (), t) => (.ok folder, t)

end ResourceSchema
