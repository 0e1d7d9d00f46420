/-
# What a run leaves behind

Where no root leads back by `..`, the file of a class lies at the names of its
root, those of its package and its own (`Generator.target`), and
`Generator.writeAll_footprint` says what a run does to the disk in these terms.

However the run ends, it leaves a `Generator.Footprint`: everything that was
there is there, a file has another content only if it is the file of a class
that is generated, and what is new is the file of a class or a folder above one.
A run that succeeds reports every class once in the order in which they are
wanted, with its path; a class is skipped exactly if it is maintained by hand and
there was something in its place when its turn came; and at the end every file
that was written has the source of its class, so no class has damaged another
one's file.
-/

import ResourceSchema.Proofs.Generator.Writing

namespace ResourceSchema

namespace Generator

/-- The address of the file of a class, name by name. -/
def target (g : Generator) (schema : Schema) (c : SupportClass) : Address :=
  (g.root (g.placement c)).names ++ packageNames (g.packageOf schema c) ++ [c.fileName]

/-- What may be different after a run. -/
structure Footprint (g : Generator) (schema : Schema) (t u : FileTree) : Prop where
  folder_stays (a : Address) : t.at? a = some .folder → u.at? a = some .folder
  file_stays (a : Address) (content : ByteArray) :
    t.at? a = some (.file content) → ∃ content', u.at? a = some (.file content')
  content_stays (a : Address) (content : ByteArray) : t.at? a = some (.file content) →
    (∀ c ∈ g.classes, g.placement c = .generated → a ≠ g.target schema c) →
    u.at? a = some (.file content)
  new_file (a : Address) (content : ByteArray) : t.at? a = none →
    u.at? a = some (.file content) → ∃ c ∈ g.classes, a = g.target schema c
  new_folder (a : Address) : t.at? a = none → u.at? a = some .folder →
    ∃ c ∈ g.classes, a <+: g.target schema c ∧ a ≠ g.target schema c

variable {g : Generator} {schema : Schema} {c : SupportClass} {t u : FileTree}

/-- The target of a class is the file of its name in its folder. -/
theorem target_eq (g : Generator) (schema : Schema) (c : SupportClass) :
    g.target schema c = g.folderNames schema c ++ [c.fileName] := rfl

/-! ### Roots that do not lead back -/

section Straight

variable (hroots : ∀ placement, ".." ∉ (g.root placement).names)

include hroots

/-- With roots that do not lead back, the names along a folder do not lead back. -/
theorem parent_not_mem_folderNames : ".." ∉ g.folderNames schema c := by
  intro h
  rcases List.mem_append.1 h with hroot | hpackage
  · exact hroots _ hroot
  · exact parent_not_mem_packageNames _ hpackage

/-- Names that do not lead back are an address as they are. -/
theorem address_eq_target : g.address schema c = g.target schema c := by
  rw [address, Address.walk_of_not_mem (parent_not_mem_folderNames hroots), List.nil_append,
    target_eq]

/-- The folders on the way to a class are above its file. -/
theorem prefix_target_of_onTheWay {a : Address}
    (h : Address.OnTheWay [] (g.folderNames schema c) a) :
    a <+: g.target schema c ∧ a ≠ g.target schema c := by
  have hpre := h.isPrefix (parent_not_mem_folderNames hroots)
  refine ⟨hpre.trans (List.prefix_append _ _), ?_⟩
  rintro rfl
  have hlength := hpre.length_le
  rw [target_eq, List.length_append, List.length_singleton] at hlength
  omega

/-- What is allowed to change is what a run may leave behind. -/
theorem footprint_of_changes
    (h : t.Changes (fun a => ∃ c ∈ g.classes, Address.OnTheWay [] (g.folderNames schema c) a)
      (fun a => ∃ c ∈ g.classes, a = g.address schema c)
      (fun a => ∃ c ∈ g.classes, a = g.address schema c ∧ g.placement c = .generated) u) :
    g.Footprint schema t u where
  folder_stays _ ha := h.folder_kept ha
  file_stays _ _ ha := (h.file_kept ha).1
  content_stays _ _ ha hother := (h.file_kept ha).2 fun ⟨c, hc, heq, hp⟩ =>
    hother c hc hp (heq.trans (address_eq_target hroots))
  new_file _ content ha hu :=
    have ⟨c, hc, heq⟩ := (h.appears ha).2 content hu
    ⟨c, hc, heq.trans (address_eq_target hroots)⟩
  new_folder _ ha hu :=
    have ⟨c, hc, hway⟩ := (h.appears ha).1 hu
    ⟨c, hc, prefix_target_of_onTheWay hroots hway⟩

/-- **A class is skipped** exactly if it is maintained by hand and something is in
its place. -/
theorem Wrote.skipped_iff {w : WrittenClass} (h : g.Wrote schema c t (.ok w) u) :
    w.status = .skipped ↔
      g.placement c = .manual ∧ (t.at? (g.target schema c)).isSome = true := by
  have hnot : ¬ Address.OnTheWay [] (g.folderNames schema c) (g.target schema c) :=
    fun hway => (prefix_target_of_onTheWay hroots hway).2 rfl
  rw [h.skipped_iff_or_onTheWay, address_eq_target hroots, or_iff_left hnot,
    Option.isSome_iff_ne_none]

end Straight

/-- **What a run leaves behind**, where no root leads back. -/
theorem writeAll_footprint (g : Generator) (schema : Schema) (t : FileTree)
    (hroots : ∀ placement, ".." ∉ (g.root placement).names) :
    g.Footprint schema t (g.writeAll schema t).2 ∧
    ∀ ws, (g.writeAll schema t).1 = .ok ws →
      (ws.map (fun w => (w.supportClass, w.path)) =
        g.classes.map fun c => (c, g.filePath schema c)) ∧
      (∀ w ∈ ws, w.path.names = g.target schema w.supportClass) ∧
      (∀ (i : Nat) (w : WrittenClass), ws[i]? = some w → (w.status = .skipped ↔
        g.placement w.supportClass = .manual ∧
          ((g.writeEach schema (g.classes.take i) t).2.at?
            (g.target schema w.supportClass)).isSome = true)) ∧
      ∀ w ∈ ws, w.status = .written → (g.writeAll schema t).2.readBytes w.path =
        .ok (w.supportClass.render schema (g.context w.supportClass)).toUTF8 := by
  refine ⟨footprint_of_changes hroots (changes_writeEach g schema g.classes t), fun ws hok => ?_⟩
  have h : g.writeEach schema g.classes t = (.ok ws, (g.writeAll schema t).2) := by
    rw [← hok]
    rfl
  refine ⟨reported_writeEach h, fun w hw => ?_, fun i w hi => ?_,
    fun w hw hs => readBytes_of_written h hw hs⟩
  · obtain ⟨_, _, _, hstep, _⟩ := exists_wrote_of_mem h hw
    obtain ⟨folder, hf, _⟩ := hstep.exists_folder
    rw [hstep.reported.2, names_filePath hf, target_eq]
  · obtain ⟨c, u, _, hturn, _⟩ := writeEach_turn h hi
    have hstep := wrote_write g schema c (g.writeEach schema (g.classes.take i) t).2
    rw [hturn] at hstep
    rw [hstep.reported.1]
    exact hstep.skipped_iff hroots

/-- A generator that wants the exception twice and leaves it to be maintained by
hand. -/
def exceptionTwice : Generator :=
  ({ generatedRoot? := some "out", manualRoot? := some "src"
     classes := [.resourceException, .resourceError, .resourceException] } : Generator).place
    .resourceException .manual

/-- What it reports for the package `pets` and an empty disk. -/
def exceptionTwiceReport : List WrittenClass :=
  [⟨.resourceException, "src/pets/ResourceException.java", .written⟩,
    ⟨.resourceError, "out/pets/parsec_generated/ResourceError.java", .written⟩,
    ⟨.resourceException, "src/pets/ResourceException.java", .skipped⟩]

/-- Such a run, with a class that is asked for twice. -/
theorem writeAll_footprint_pets :
    (∀ placement, ".." ∉ (exceptionTwice.root placement).names) ∧
    (exceptionTwice.writeAll { package? := some "pets" } .empty).1.toOption =
      some exceptionTwiceReport ∧
    exceptionTwice.Footprint { package? := some "pets" } .empty
      (exceptionTwice.writeAll { package? := some "pets" } .empty).2 ∧
    ((exceptionTwice.writeEach { package? := some "pets" }
      [.resourceException, .resourceError] .empty).2.at?
        (exceptionTwice.target { package? := some "pets" } .resourceException)).isSome = true ∧
    (exceptionTwice.writeAll { package? := some "pets" } .empty).2.readBytes
      "src/pets/ResourceException.java" = .ok (SupportClass.resourceException.render
        { package? := some "pets" } (exceptionTwice.context .resourceException)).toUTF8 := by
  have hroots : ∀ placement, ".." ∉ (exceptionTwice.root placement).names := by
    intro placement
    cases placement <;> decide
  have hreport : (exceptionTwice.writeAll { package? := some "pets" } .empty).1.toOption =
      some exceptionTwiceReport := by
    decide +kernel
  obtain ⟨hfootprint, hok⟩ :=
    writeAll_footprint exceptionTwice { package? := some "pets" } .empty hroots
  refine ⟨hroots, hreport, hfootprint, ?_⟩
  rcases hrun : (exceptionTwice.writeAll { package? := some "pets" } .empty).1 with e | ws
  · rw [hrun] at hreport
    cases hreport
  · rw [hrun] at hreport
    obtain rfl : ws = exceptionTwiceReport := Option.some.inj hreport
    obtain ⟨-, -, hskipped, hread⟩ := hok exceptionTwiceReport hrun
    exact ⟨((hskipped 2 ⟨.resourceException, _, .skipped⟩ rfl).1 rfl).2,
      hread ⟨.resourceException, "src/pets/ResourceException.java", .written⟩ List.mem_cons_self rfl⟩

end Generator

end ResourceSchema
