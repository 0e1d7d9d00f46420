/-
# Writing the support classes

A generator knows where classes go: a banner, an override of the package, a
root folder for each placement, the placement of every class, and which classes
are wanted.  Each class is written to the folder of its package below the root
of its placement.  A generated class replaces the file that is there; a class
maintained by hand is written only where nothing is there yet.

Classes are written one after another until the first failure, and what was
written before it stays.  A file takes its whole source in one step
(`FileTree.writeFile`), so no run ends with a source half written.
-/

import ResourceSchema.Package.Layout
import ResourceSchema.Schema.Document
import ResourceSchema.SupportClass.Source

namespace ResourceSchema

/-- What became of a class. -/
inductive WriteStatus where
  | written
  | skipped
deriving DecidableEq, Repr

/-- A class, its file, and what became of it. -/
structure WrittenClass where
  supportClass : SupportClass
  path : Path
  status : WriteStatus
deriving DecidableEq, Repr

/-- Where classes go, and which are wanted. -/
structure Generator where
  banner : String := defaultBanner
  override? : Option String := none
  generatedRoot? : Option Path := none
  manualRoot? : Option Path := none
  placement : SupportClass → Placement := fun _ => .generated
  classes : List SupportClass := SupportClass.all

namespace Generator

/-- The generator with one class placed elsewhere. -/
def place (g : Generator) (c : SupportClass) (placement : Placement) : Generator :=
  { g with placement := fun d => if d = c then placement else g.placement d }

/-- What the source of a class depends on: the generator's settings, and where it
places each of the support classes. -/
def context (g : Generator) (c : SupportClass) : Context :=
  SupportClass.all.foldl (fun ctx peer => ctx.withPeer peer (g.placement peer))
    { banner := g.banner, override? := g.override?, placement := g.placement c }

/-- **Every other class is where the generator places it.** -/
theorem context_eq (g : Generator) (c : SupportClass) :
    g.context c = ⟨g.banner, g.override?, g.placement c, g.placement⟩ := by
  have hpeers : (g.context c).peers = g.placement := by
    funext peer
    cases peer <;> rfl
  calc g.context c = ⟨g.banner, g.override?, g.placement c, (g.context c).peers⟩ := rfl
    _ = ⟨g.banner, g.override?, g.placement c, g.placement⟩ := by rw [hpeers]

/-- The root folder of a placement. -/
def root (g : Generator) : Placement → Path
  | .generated => g.generatedRoot?.getD generatedRoot
  | .manual => g.manualRoot?.getD manualRoot

/-- Writes one class: makes the folder of its package, and there its file, unless it is
maintained by hand and something has its path already.  Making the file, filling it and
closing it are one step, which fails as a whole or not at all. -/
def write (g : Generator) (c : SupportClass) (schema : Schema) (t : FileTree) :
    Except GenerateError WrittenClass × FileTree :=
  let ctx := g.context c
  match t.ensurePackage (g.root ctx.placement) (ctx.package schema) with
  | (.error e, t) => (.error e, t)
  | (.ok folder, t) =>
    let path := Path.join folder c.fileName
    if ctx.placement = .manual ∧ t.hasPath path then (.ok ⟨c, path, .skipped⟩, t)
    else
      match t.writeFile path (c.render schema ctx).toUTF8 with
      | (.error e, t) => (.error (.io e), t)
      | (.ok (), t) => (.ok ⟨c, path, .written⟩, t)

/-- Writes classes in their order, up to the first failure. -/
def writeEach (g : Generator) (schema : Schema) :
    List SupportClass → FileTree → Except GenerateError (List WrittenClass) × FileTree
  | [], t => (.ok [], t)
  | c :: rest, t =>
    match g.write c schema t with
    | (.error e, t) => (.error e, t)
    | (.ok w, t) =>
      match g.writeEach schema rest t with
      | (.error e, t) => (.error e, t)
      | (.ok ws, t) => (.ok (w :: ws), t)

/-- Writes the classes that are wanted. -/
def writeAll (g : Generator) (schema : Schema) (t : FileTree) :
    Except GenerateError (List WrittenClass) × FileTree :=
  g.writeEach schema g.classes t

/-- Writes the classes for the schema in a file. -/
def writeFromFile (g : Generator) (path : Path) (t : FileTree) :
    Except GenerateError (List WrittenClass) × FileTree :=
  match Schema.parseFile t path with
  | .error e => (.error (.schema e), t)
  | .ok schema => g.writeAll schema t

end Generator

end ResourceSchema
