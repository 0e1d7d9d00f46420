/-
# Running the generator again

After a run that succeeded every class it was asked for is `Generator.InPlace`: the
folder of its package is there, and either the class is maintained by hand
and something is at its path, or its file holds the source and can be written.
Writing a class that is in place changes nothing (`Generator.InPlace.write_eq`).

A step puts its own class in place (`Generator.Wrote.inPlace`) and leaves all others
that are in place where they are (`Generator.Wrote.inPlace_kept`), since folders
stay and the name of a file tells its class.  So at the end of a run that succeeds
all its classes are in place together (`Generator.inPlace_writeEach`), however
their roots and folders are nested, and a second run finds nothing to do.
-/

import ResourceSchema.Proofs.Generator.Writing

namespace ResourceSchema

/-- What becomes of a class when it is written again: a generated class is written
on every run, one that is maintained by hand never again. -/
def Placement.rerunStatus : Placement → WriteStatus
  | generated => .written
  | manual => .skipped

namespace Generator

/-- Writing a class has been done and left to do nothing more. -/
structure InPlace (g : Generator) (schema : Schema) (c : SupportClass) (t : FileTree) : Prop where
  folder : ∃ folder, packageFolder (g.root (g.placement c)) (g.packageOf schema c) = .ok folder ∧
    t.HasFolder folder
  kept : g.placement c = .manual → t.hasPath (g.filePath schema c) = true
  source : g.placement c = .generated →
    t.at? (g.address schema c) = some (.file (g.sourceBytes schema c)) ∧
      ∃ front name, t.Writable (g.filePath schema c) front name

/-- What is reported of a class that was in place. -/
def rerunReport (g : Generator) (schema : Schema) (c : SupportClass) : WrittenClass :=
  ⟨c, g.filePath schema c, (g.placement c).rerunStatus⟩

variable {g : Generator} {schema : Schema} {c d : SupportClass} {t u : FileTree}

/-- **Writing a class that is in place changes nothing.** -/
theorem InPlace.write_eq (h : g.InPlace schema c t) :
    g.write c schema t = (.ok (g.rerunReport schema c), t) := by
  obtain ⟨folder, hf, hfolder⟩ := h.folder
  have hensure : t.ensurePackage (g.root (g.placement c)) (g.packageOf schema c) =
      (.ok folder, t) := by
    simp only [FileTree.ensurePackage, hf, hfolder.createFolders_eq]
  rw [write_of_ensurePackage hensure, filePath_eq hf, rerunReport]
  cases hp : g.placement c with
  | manual => rw [if_pos ⟨rfl, h.kept hp⟩, Placement.rerunStatus]
  | generated =>
    obtain ⟨hfile, front, name, hw⟩ := h.source hp
    have hadmits := hw.admits
    rw [walk_names_filePath hf] at hadmits
    rw [if_neg (by simp), hw.fileAddress_eq, walk_names_filePath hf]
    dsimp only
    rw [FileTree.put_eq_self hadmits hfile, Placement.rerunStatus]

/-! ### What a step does to classes in place -/

namespace Wrote

/-- **A class that was handled is in place.** -/
theorem inPlace {w : WrittenClass} (h : g.Wrote schema c t (.ok w) u) : g.InPlace schema c u := by
  cases h with
  | skipped hf hu hp hthere =>
    exact ⟨⟨_, hf, .of_createFolders hu⟩, fun _ => hthere, fun hg => by rw [hp] at hg; cases hg⟩
  | @written folder v front name hf hu hnew hw =>
    have hput := hw.changes_put (g.sourceBytes schema c)
    have hfile := FileTree.at?_put v hw.admits (.file (g.sourceBytes schema c))
      (Address.walk [] (g.filePath schema c).names)
    rw [if_pos rfl] at hfile
    have hlocate := hw.locate_of_folders (fun b hb => hput.folder_kept hb) hfile
    have hagain := hw.of_changes hput (by rw [hfile]; exact nofun)
    rw [walk_names_filePath hf] at hput hfile hlocate hagain
    exact ⟨⟨folder, hf, (FileTree.HasFolder.of_createFolders hu).of_changes hput⟩,
      fun _ => FileTree.hasPath_eq_true_iff.2 ⟨_, hlocate⟩, fun _ => ⟨hfile, front, name, hagain⟩⟩

/-- **A class in place stays in place,** whatever class is written and however that
ends. -/
theorem inPlace_kept {r : Except GenerateError WrittenClass} (h : g.Wrote schema d t r u)
    (hc : g.InPlace schema c t) : g.InPlace schema c u := by
  obtain ⟨folder, hf, hfolder⟩ := hc.folder
  refine ⟨⟨folder, hf, hfolder.of_changes h.changes⟩,
    fun hp => FileTree.hasPath_of_changes (hc.kept hp) h.changes, fun hp => ?_⟩
  obtain ⟨hfile, front, name, hw⟩ := hc.source hp
  have hfile' := h.holds_source hfile
  have hfree : u.at? (Address.walk [] (g.filePath schema c).names) ≠ some .folder := by
    rw [walk_names_filePath hf, hfile']
    exact nofun
  exact ⟨hfile', front, name, hw.of_changes h.changes hfree⟩

end Wrote

/-! ### What a run does -/

variable {classes : List SupportClass} {ws : List WrittenClass}

/-- **After a run that succeeds all its classes are in place.** -/
theorem inPlace_writeEach (h : g.writeEach schema classes t = (.ok ws, u)) (hc : c ∈ classes) :
    g.InPlace schema c u := by
  induction classes generalizing t ws with
  | nil => cases hc
  | cons d rest ih =>
    obtain ⟨w, v, ws', hw, hr, -⟩ := exists_of_writeEach_eq_ok h
    rcases List.mem_cons.1 hc with rfl | hc
    · have hstep := wrote_write g schema c t
      rw [hw] at hstep
      have hrest : g.InPlace schema c v → g.InPlace schema c (g.writeEach schema rest v).2 :=
        writeEach_induction (P := fun t u => g.InPlace schema c t → g.InPlace schema c u)
          (fun _ h => h) (fun _ _ _ h h' h'' => h' (h h''))
          (fun d _ t => (wrote_write g schema d t).inPlace_kept) v
      rw [hr] at hrest
      exact hrest hstep.inPlace
    · exact ih hr hc

/-- **A run whose classes are all in place does nothing.** -/
theorem writeEach_of_inPlace (h : ∀ c ∈ classes, g.InPlace schema c t) :
    g.writeEach schema classes t = (.ok (classes.map (g.rerunReport schema)), t) := by
  induction classes with
  | nil => rfl
  | cons c rest ih =>
    have hc := (h c List.mem_cons_self).write_eq
    have hrest := ih fun d hd => h d (List.mem_cons_of_mem _ hd)
    simp only [writeEach, hc, hrest, List.map_cons]

/-- The classes of a run with what a second one reports of them. -/
theorem map_rerunReport (h : g.writeEach schema classes t = (.ok ws, u)) :
    classes.map (g.rerunReport schema) =
      ws.map fun w => { w with status := (g.placement w.supportClass).rerunStatus } := by
  have hreported := congrArg
    (List.map fun r => (⟨r.1, r.2, (g.placement r.1).rerunStatus⟩ : WrittenClass))
    (reported_writeEach h)
  rw [List.map_map, List.map_map] at hreported
  exact hreported.symm

/-- **Running the generator again changes nothing.**  After a run that succeeded a
second one succeeds, leaves the disk exactly as it is, and reports the same classes
and paths in the same order: what is generated as written, what is maintained by
hand as skipped. -/
theorem writeAll_again (g : Generator) (schema : Schema) (t u : FileTree) (ws : List WrittenClass)
    (h : g.writeAll schema t = (.ok ws, u)) :
    g.writeAll schema u =
      (.ok (ws.map fun w => { w with status := (g.placement w.supportClass).rerunStatus }), u) := by
  have hagain := writeEach_of_inPlace fun c hc => inPlace_writeEach h hc
  rw [map_rerunReport h] at hagain
  exact hagain

/-- A generator with one root below the other, which leaves two classes to be
maintained by hand. -/
def nestedRoots : Generator :=
  (({ generatedRoot? := some "out/gen", manualRoot? := some "out"
      classes := [.resourceException, .parsecErrorDetail, .resourceError] } : Generator).place
    .resourceException .manual).place .parsecErrorDetail .manual

/-- A disk on which one of the two is there already. -/
def withException : FileTree :=
  (FileTree.empty.put ["out"] .folder).put ["out", "ResourceException.java"]
    (.file "// by hand\n".toUTF8)

/-- Two such runs, with one root below the other and a class that is there already. -/
theorem writeAll_again_nestedRoots : ∃ u,
    nestedRoots.writeAll {} withException = (.ok
      [⟨.resourceException, "out/ResourceException.java", .skipped⟩,
        ⟨.parsecErrorDetail, "out/ParsecErrorDetail.java", .written⟩,
        ⟨.resourceError, "out/gen/parsec_generated/ResourceError.java", .written⟩], u) ∧
    nestedRoots.writeAll {} u = (.ok
      [⟨.resourceException, "out/ResourceException.java", .skipped⟩,
        ⟨.parsecErrorDetail, "out/ParsecErrorDetail.java", .skipped⟩,
        ⟨.resourceError, "out/gen/parsec_generated/ResourceError.java", .written⟩], u) := by
  have hreport : (nestedRoots.writeAll {} withException).1.toOption = some
      [⟨.resourceException, "out/ResourceException.java", .skipped⟩,
        ⟨.parsecErrorDetail, "out/ParsecErrorDetail.java", .written⟩,
        ⟨.resourceError, "out/gen/parsec_generated/ResourceError.java", .written⟩] := by
    decide +kernel
  rcases hrun : nestedRoots.writeAll {} withException with ⟨e | ws, u⟩
  · rw [hrun] at hreport
    cases hreport
  · rw [hrun] at hreport
    obtain rfl := Option.some.inj hreport
    exact ⟨u, rfl, writeAll_again nestedRoots {} withException u _ hrun⟩

end Generator

end ResourceSchema
