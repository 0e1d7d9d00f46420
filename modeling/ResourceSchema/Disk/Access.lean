/-
# Reading and writing by path

A path is followed name by name from the outermost folder.  `..` leads back to
the folder above, and from the outermost folder nowhere else.  A path with a
NUL character is refused before it is followed, and so is one of 4096 bytes or
more; a single name may have 255 bytes.

Creating folders (`FileTree.createFolders`) goes along the path and creates
what is missing, so what was created before a name that fails stays.  Every
operation gives back the tree after it, also when it fails.

Of what a disk can do, three things are left out, and what is proved about runs
rests on that.  There is one current folder, the outermost one of the tree, and
a path that starts with a slash is followed from there as well.  Nothing is
refused for want of permission.  And a write that has begun is completed: a
file is opened, filled and closed in one step, so `FileTree.writeFile` fails
only where the file cannot be opened, and then the tree is as it was.  A disk
may fail later, when it is full for instance, and leave the file cut short.
-/

import ResourceSchema.Disk.Error
import ResourceSchema.Disk.Path
import ResourceSchema.Disk.Tree

namespace ResourceSchema

/-- The most bytes of a name. -/
def maxNameBytes : Nat := 255

/-- The least number of bytes of a path that is too long. -/
def pathBytesLimit : Nat := 4096

/-- Whether a path can be followed at all, disregarding what is there. -/
def Path.check (path : Path) : Except IoError Unit :=
  if '\x00' ∈ path.toList then .error .invalidInput
  else if pathBytesLimit ≤ path.utf8ByteSize then .error .invalidFilename
  else if path = "" then .error .notFound
  else .ok ()

namespace FileTree

/-- Whether an entry is a folder. -/
def isFolderAt (t : FileTree) (a : Address) : Bool := t.at? a = some .folder

/-- The address that names lead to from a folder.  All but the last have to
lead to folders. -/
def follow (t : FileTree) (here : Address) : List String → Except IoError Address
  | [] => .ok here
  | name :: rest =>
    if name = ".." then t.follow here.dropLast rest
    else if maxNameBytes < name.utf8ByteSize then .error .invalidFilename
    else match t.at? (here ++ [name]) with
      | none => .error .notFound
      | some .folder => t.follow (here ++ [name]) rest
      | some (.file _) => if rest = [] then .ok (here ++ [name]) else .error .notADirectory

/-- The address of what a path leads to. -/
def locate (t : FileTree) (path : Path) : Except IoError Address := do
  path.check
  let a ← t.follow [] path.names
  if path.asksForFolder && !t.isFolderAt a then .error .notADirectory else return a

/-- Whether a path leads to anything. -/
def hasPath (t : FileTree) (path : Path) : Bool :=
  match t.locate path with
  | .ok _ => true
  | .error _ => false

/-- The bytes of the file that a path leads to. -/
def readBytes (t : FileTree) (path : Path) : Except IoError ByteArray := do
  let a ← t.locate path
  match t.at? a with
  | some (.file content) => return content
  | some .folder => .error .isADirectory
  | none => .error .notFound

/-- The text of the file that a path leads to. -/
def readText (t : FileTree) (path : Path) : Except IoError String := do
  match String.fromUTF8? (← t.readBytes path) with
  | some text => return text
  | none => .error .invalidData

/-- Creates the folders that names lead through, from a folder on.  With
`dotted` the last one is only asked for, not created. -/
def createAlong (dotted : Bool) (t : FileTree) (here : Address) :
    List String → Except IoError Unit × FileTree
  | [] => (.ok (), t)
  | name :: rest =>
    if name = ".." then t.createAlong dotted here.dropLast rest
    else if maxNameBytes < name.utf8ByteSize then (.error .invalidFilename, t)
    else match t.at? (here ++ [name]) with
      | some .folder => t.createAlong dotted (here ++ [name]) rest
      | some (.file _) =>
        (.error (if rest = [] ∧ ¬dotted then .alreadyExists else .notADirectory), t)
      | none =>
        if rest = [] ∧ dotted then (.error .notFound, t)
        else (t.put (here ++ [name]) .folder).createAlong dotted (here ++ [name]) rest

/-- Creates the folder of a path and those it lies in.  The empty path is the
outermost folder, which is there. -/
def createFolders (t : FileTree) (path : Path) : Except IoError Unit × FileTree :=
  if path = "" then (.ok (), t)
  else match path.check with
    | .error e => (.error e, t)
    | .ok () => t.createAlong path.endsWithDot [] path.names

/-- Where a file with this path is or would be written. -/
def fileAddress (t : FileTree) (path : Path) : Except IoError Address := do
  path.check
  match path.names.getLast? with
  | none => .error .isADirectory
  | some name =>
    let folder ← t.follow [] path.names.dropLast
    if !t.isFolderAt folder then .error .notADirectory
    else if name = ".." then .error .isADirectory
    else if maxNameBytes < name.utf8ByteSize then .error .invalidFilename
    else if path.asksForFolder || t.isFolderAt (folder ++ [name]) then .error .isADirectory
    else return folder ++ [name]

/-- Writes a file, in place of the one that may be there. -/
def writeFile (t : FileTree) (path : Path) (content : ByteArray) :
    Except IoError Unit × FileTree :=
  match t.fileAddress path with
  | .error e => (.error e, t)
  | .ok a => (.ok (), t.put a (.file content))

/-- Removes the file that a path leads to. -/
def remove (t : FileTree) (path : Path) : Except IoError Unit × FileTree :=
  match t.locate path with
  | .error e => (.error e, t)
  | .ok a => if t.isFolderAt a then (.error .isADirectory, t) else (.ok (), t.removeFile a)

end FileTree

end ResourceSchema
