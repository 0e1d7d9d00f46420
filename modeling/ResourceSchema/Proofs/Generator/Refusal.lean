/-
# What is refused leaves the disk as it is

A run stops at its first failure and what was written before it stays, so a run
that fails leaves nothing behind only if it fails at once.  A package that cannot
be laid out in folders is such a failure.  Classes go to the generated package or
to the base package, and these are misnamed together (`misnamed_packageOf_iff`):
either the first class is refused, before its folder is made, or none is, and
then only the disk can refuse anything (`Generator.io_of_writeEach_error`).

A schema that cannot be loaded is refused before the run begins.
-/

import ResourceSchema.Proofs.Generator.Writing

namespace ResourceSchema

namespace Generator

variable {g : Generator} {schema : Schema} {c : SupportClass} {t : FileTree}
  {classes : List SupportClass} {e : GenerateError}

/-- The package of a class is misnamed exactly if the base package is, wherever
the class is placed. -/
theorem misnamed_packageOf_iff :
    Misnamed (g.packageOf schema c) ↔ Misnamed (schema.basePackage g.override?) := by
  unfold packageOf
  cases g.placement c with
  | generated => exact misnamed_generatedBelow_iff
  | manual => exact Iff.rfl

/-- **A misnamed package is refused at once.** -/
theorem write_of_misnamed (h : Misnamed (schema.basePackage g.override?)) (c : SupportClass)
    (t : FileTree) : g.write c schema t =
      (.error (.generation ("invalid package name '" ++ g.packageOf schema c ++ "'")), t) := by
  have hbad : Misnamed (g.packageOf schema c) := misnamed_packageOf_iff.2 h
  refine write_of_ensurePackage_error ?_
  rw [FileTree.ensurePackage, packageFolder_of_misnamed hbad]

/-- Where the package is laid out only the disk refuses a class. -/
theorem Wrote.io_of_error {u : FileTree} (h : g.Wrote schema c t (.error e) u)
    (hgood : ¬ Misnamed (schema.basePackage g.override?)) : ∃ cause, e = .io cause := by
  cases h with
  | noPackage hf =>
    rw [packageFolder_of_not_misnamed (mt misnamed_packageOf_iff.1 hgood)] at hf
    cases hf
  | noFolder _ _ => exact ⟨_, rfl⟩
  | noFile _ _ _ => exact ⟨_, rfl⟩

/-- **Only the disk refuses a run** whose package is laid out. -/
theorem io_of_writeEach_error (hgood : ¬ Misnamed (schema.basePackage g.override?))
    (h : (g.writeEach schema classes t).1 = .error e) : ∃ cause, e = .io cause := by
  induction classes generalizing t with
  | nil => cases h
  | cons c rest ih =>
    have hstep := wrote_write g schema c t
    rcases hw : g.write c schema t with ⟨e' | w, u⟩
    · rw [writeEach_of_error hw] at h
      obtain rfl := Except.error.inj h
      rw [hw] at hstep
      exact hstep.io_of_error hgood
    · rcases hr : g.writeEach schema rest u with ⟨e' | ws, v⟩
      · simp only [writeEach, hw, hr, Except.error.injEq] at h
        exact ih (t := u) (by rw [hr, h])
      · simp only [writeEach, hw, hr] at h
        cases h

/-- **A run that fails** was refused as a whole, or by the disk. -/
theorem of_writeAll_error (h : (g.writeAll schema t).1 = .error e) :
    (Misnamed (schema.basePackage g.override?) ∧ (∃ message, e = .generation message) ∧
      (g.writeAll schema t).2 = t) ∨ ∃ cause, e = .io cause := by
  by_cases hbad : Misnamed (schema.basePackage g.override?)
  · rcases hclasses : g.classes with _ | ⟨c, rest⟩
    · rw [writeAll, hclasses] at h
      cases h
    · rw [writeAll, hclasses, writeEach_of_error (write_of_misnamed hbad c t)] at h ⊢
      exact .inl ⟨hbad, ⟨_, (Except.error.inj h).symm⟩, rfl⟩
  · exact .inr (io_of_writeEach_error hbad h)

/-- A run for a misnamed package fails and says so, if any class is wanted. -/
theorem exists_writeAll_of_misnamed (h : Misnamed (schema.basePackage g.override?))
    (hwanted : g.classes ≠ []) (t : FileTree) :
    ∃ message, (g.writeAll schema t).1 = .error (.generation message) := by
  obtain ⟨c, rest, hclasses⟩ := List.exists_cons_of_ne_nil hwanted
  rw [writeAll, hclasses, writeEach_of_error (write_of_misnamed h c t)]
  exact ⟨_, rfl⟩

/-! ### Generating from a file -/

/-- A schema that cannot be loaded is reported, and nothing is written. -/
theorem writeFromFile_of_error {path : Path} {cause : LoadError}
    (h : Schema.parseFile t path = .error cause) :
    g.writeFromFile path t = (.error (.schema cause), t) := by
  rw [writeFromFile, h]

/-- From a file that can be loaded, the classes are written for its schema. -/
theorem writeFromFile_of_ok {path : Path} (h : Schema.parseFile t path = .ok schema) :
    g.writeFromFile path t = g.writeAll schema t := by
  rw [writeFromFile, h]

/-- Only loading complains about the schema. -/
theorem writeFromFile_eq_schema_iff {path : Path} {cause : LoadError} :
    (g.writeFromFile path t).1 = .error (.schema cause) ↔
      Schema.parseFile t path = .error cause := by
  rcases hp : Schema.parseFile t path with cause' | schema
  · rw [writeFromFile_of_error hp]
    simp only [Except.error.injEq, GenerateError.schema.injEq]
  · rw [writeFromFile_of_ok hp]
    refine ⟨fun h => ?_, nofun⟩
    rcases of_writeAll_error h with ⟨_, ⟨_, hgeneration⟩, _⟩ | ⟨_, hio⟩
    · cases hgeneration
    · cases hio

/-- **What is refused leaves the disk as it is.**  A run in which any class is
wanted is refused as a whole exactly if the base package is misnamed, and
generating from a file exactly if no schema can be loaded from it; in both cases
nothing is made or written. -/
theorem refusals_leave_disk (g : Generator) (schema : Schema) (path : Path) (t : FileTree) :
    (g.classes ≠ [] → ((∃ message, (g.writeAll schema t).1 = .error (.generation message)) ↔
      Misnamed (schema.basePackage g.override?))) ∧
    (∀ message, (g.writeAll schema t).1 = .error (.generation message) →
      (g.writeAll schema t).2 = t) ∧
    (∀ cause, (g.writeFromFile path t).1 = .error (.schema cause) ↔
      Schema.parseFile t path = .error cause) ∧
    ∀ cause, (g.writeFromFile path t).1 = .error (.schema cause) →
      (g.writeFromFile path t).2 = t := by
  have hrefused : ∀ message, (g.writeAll schema t).1 = .error (.generation message) →
      Misnamed (schema.basePackage g.override?) ∧ (g.writeAll schema t).2 = t := by
    intro message h
    rcases of_writeAll_error h with ⟨hbad, _, hsame⟩ | ⟨_, hio⟩
    · exact ⟨hbad, hsame⟩
    · cases hio
  refine ⟨fun hwanted => ⟨fun ⟨message, h⟩ => (hrefused message h).1, fun h => ?_⟩,
    fun message h => (hrefused message h).2, fun _ => writeFromFile_eq_schema_iff,
    fun cause h => ?_⟩
  · exact exists_writeAll_of_misnamed h hwanted t
  · rw [writeFromFile_of_error (writeFromFile_eq_schema_iff.1 h)]

/-- A generator that leaves the exception to be maintained by hand, so that its
classes go to two packages. -/
def twoPackages : Generator := ({} : Generator).place .resourceException .manual

/-- A disk with one file, which is not a schema document. -/
def withNote : FileTree := FileTree.empty.put ["note"] (.file "[]".toUTF8)

/-- Such a run, for a package with an empty name on a disk with a note on it. -/
theorem refusals_leave_disk_note :
    (twoPackages.classes ≠ [] ∧ Misnamed "pets..v1" ∧
      (∃ message, (twoPackages.writeAll { package? := some "pets..v1" } withNote).1 =
        .error (.generation message)) ∧
      (twoPackages.writeAll { package? := some "pets..v1" } withNote).2 = withNote) ∧
    (∃ cause, Schema.parseFile withNote "note" = .error cause ∧
      (twoPackages.writeFromFile "note" withNote).1 = .error (.schema cause)) ∧
    (twoPackages.writeFromFile "note" withNote).2 = withNote := by
  obtain ⟨hrefused, hsame, hload, hunloaded⟩ :=
    refusals_leave_disk twoPackages { package? := some "pets..v1" } "note" withNote
  have hwanted : twoPackages.classes ≠ [] := by decide
  have hbad : Misnamed "pets..v1" := ⟨by decide, "", by decide +kernel, .inl rfl⟩
  obtain ⟨message, h⟩ := (hrefused hwanted).2 hbad
  have hnone : (Schema.parseFile withNote "note").toOption = none := by decide +kernel
  rcases hp : Schema.parseFile withNote "note" with cause | schema
  · have hfile := (hload cause).2 hp
    exact ⟨⟨hwanted, hbad, ⟨message, h⟩, hsame message h⟩, ⟨cause, rfl, hfile⟩,
      hunloaded cause hfile⟩
  · rw [hp] at hnone
    cases hnone

end Generator

end ResourceSchema
