/-
# Classes that refer to each other find each other

A class is told in three places which package it is in: its file lies in the
folder of the package, the file declares the package, and the classes that refer
to it import it from there.  The three are worked out apart, from the root and
the package of the class, from its own placement, and from where its context says
the other classes are.

`Generator.written_refers_to_reported` says that they agree in every run that
writes all classes: the packages are those of the folders that the run reports
(`Generator.LiesIn`), and a file that is written declares its own and imports
exactly what it refers to from another package that has a name.  Two classes are
in one package exactly if they have one placement, since a schema's generated
package is never its base package.

The lines above the body of a written file are known one by one.  An import among
them that is none of these is a stray line of the banner, which no check keeps out
(`Generator.planted_import`).
-/

import ResourceSchema.Proofs.Generator.Writing
import ResourceSchema.Proofs.SupportClass.Imports

namespace ResourceSchema

/-- The generated package has a line end in its name if the package above it has one. -/
theorem onOneLine_generatedBelow (package : String) :
    onOneLine (generatedBelow package) = onOneLine package := by
  unfold generatedBelow
  split
  · rename_i h
    rw [h]
    decide
  · have hname : onOneLine generatedName = true := by decide
    have hdot : onOneLine "." = true := by decide
    rw [onOneLine_append, onOneLine_append, hname, hdot, Bool.and_true, Bool.and_true]

namespace Generator

/-- The file of a class lies in the folder of a package below the root of the
class's placement. -/
def LiesIn (g : Generator) (w : WrittenClass) (package : String) : Prop :=
  ∃ folder, packageFolder (g.root (g.placement w.supportClass)) package = .ok folder ∧
    w.path = folder.join w.supportClass.fileName

variable {g : Generator} {schema : Schema} {c d : SupportClass} {t u : FileTree}
  {w : WrittenClass}

/-- The names along the path of a file tell the package it lies in. -/
theorem LiesIn.names_eq {package : String} (h : g.LiesIn w package) :
    w.path.names = (g.root (g.placement w.supportClass)).names ++ packageNames package ++
      [w.supportClass.fileName] := by
  obtain ⟨folder, hf, hpath⟩ := h
  obtain ⟨hslash, hn⟩ := w.supportClass.isName_fileName
  rw [hpath, Path.names_join folder hslash hn, names_packageFolder hf]

/-- **A file lies in one package.** -/
theorem LiesIn.unique {a b : String} (ha : g.LiesIn w a) (hb : g.LiesIn w b) : a = b := by
  have hnames := ha.names_eq.symm.trans hb.names_eq
  have hfront := List.append_cancel_right hnames
  exact packageNames_injective (List.append_cancel_left hfront)

/-- A class that was dealt with lies in the package that its placement gives it. -/
theorem liesIn_packageOf {before after : FileTree}
    (h : g.Wrote schema w.supportClass before (.ok w) after) :
    g.LiesIn w (g.packageOf schema w.supportClass) :=
  h.exists_folder

/-- **Classes are in one package exactly if they have one placement.** -/
theorem packageOf_eq_iff :
    g.packageOf schema c = g.packageOf schema d ↔ g.placement c = g.placement d := by
  unfold packageOf
  constructor
  · intro h
    rcases hc : g.placement c with _ | _ <;> rcases hd : g.placement d with _ | _ <;>
      rw [hc, hd] at h
    · exact absurd h (generatedBelow_ne _)
    · exact absurd h.symm (generatedBelow_ne _)
  · intro h
    rw [h]

/-- Either all packages of a generator have a line end in their names or none has. -/
theorem onOneLine_packageOf (g : Generator) (schema : Schema) (c : SupportClass) :
    onOneLine (g.packageOf schema c) = onOneLine (schema.basePackage g.override?) := by
  unfold packageOf
  cases g.placement c
  · exact onOneLine_generatedBelow _
  · rfl

/-- What a class imports is told by the packages of the classes. -/
theorem imports_context (g : Generator) (schema : Schema) (c : SupportClass) :
    (g.context c).imports c schema = c.importsFrom (g.packageOf schema) := by
  rw [context_eq]
  unfold Context.imports SupportClass.importsFrom
  rw [← List.filterMap_eq_map, ← List.filterMap_eq_filter, List.filterMap_filterMap]
  refine congrArg (List.filterMap · c.references) (funext fun peer => ?_)
  by_cases h : g.packageOf schema peer ≠ "" ∧ g.packageOf schema peer ≠ g.packageOf schema c
  · rw [Option.guard, decide_eq_true h, if_pos rfl, Option.bind_some]
    exact if_pos h
  · rw [Option.guard, decide_eq_false h, if_neg Bool.false_ne_true, Option.bind_none]
    exact if_neg h

/-- The source that a generator writes is told by the packages of the classes. -/
theorem render_context (g : Generator) (schema : Schema) (c : SupportClass) :
    c.render schema (g.context c) =
      c.sourceIn (g.packageOf schema) ((g.placement c).header g.banner) := by
  unfold SupportClass.render SupportClass.sourceIn
  rw [imports_context, context_eq]
  rfl

/-- **Written classes refer to each other where they were reported to be.**  In a run that
writes all classes, each class lies in one package, and classes are in one package exactly
if they have one placement.  A file that is written is the header of its placement, the
declaration of its package, the imports and the body.  Above the body stand the lines of
`SupportClass.linesAboveBody`: a class that the body refers to is imported on one of them
if it is in another package that has a name, and on none if it is not, stray lines of the
banner apart.  Where the banner has no such lines, the first line that is no comment is the
declaration of the package.  An import is looked for on one line, so for packages without a
line end in their names. -/
theorem written_refers_to_reported (g : Generator) (schema : Schema) (t u : FileTree)
    (ws : List WrittenClass) (hall : ∀ c, c ∈ g.classes)
    (hrun : g.writeAll schema t = (.ok ws, u)) :
    ∃ packages : SupportClass → String,
      (∀ c, ∃ w ∈ ws, w.supportClass = c) ∧
      (∀ w ∈ ws, ∀ package, g.LiesIn w package ↔ package = packages w.supportClass) ∧
      (∀ c d, packages c = packages d ↔ g.placement c = g.placement d) ∧
      (∀ c, (c.importsFrom packages).Nodup ∧ ∀ package peer,
        Context.importLine package peer ∈ c.importsFrom packages ↔
          peer ∈ c.references ∧ package = packages peer ∧ package ≠ "" ∧
            package ≠ packages c) ∧
      ∀ w ∈ ws, w.status = .written →
        ∃ source, u.readBytes w.path = .ok source.toUTF8 ∧
          source = w.supportClass.sourceIn packages
            ((g.placement w.supportClass).header g.banner) ∧
          linesOf source =
            w.supportClass.linesAboveBody packages (g.placement w.supportClass) g.banner ++
              linesOf w.supportClass.body ∧
          (∀ peer ∈ w.supportClass.references, onOneLine (packages peer) = true →
            (w.supportClass.linesAboveBody packages (g.placement w.supportClass)
                g.banner).count (SupportClass.importOf (packages peer) peer).toList =
              (if packages peer ≠ "" ∧ packages peer ≠ packages w.supportClass then 1 else 0) +
                (strayLines g.banner).count
                  (SupportClass.importOf (packages peer) peer).toList) ∧
          (strayLines g.banner = [] → belowComments source =
            w.supportClass.linesBelowHeader packages ++ linesOf w.supportClass.body) := by
  refine ⟨g.packageOf schema, fun c => ?_, fun w hw package => ?_, fun c d => packageOf_eq_iff,
    fun c => ⟨c.importsFrom_nodup _, fun _ _ => SupportClass.importLine_mem_importsFrom_iff⟩,
    fun w hw hs => ⟨_, ?_, rfl, SupportClass.linesOf_sourceIn _ _ _ _, fun peer href hline => ?_,
      fun hstray => SupportClass.belowComments_sourceIn hstray _ _ _⟩⟩
  · have hreported := reported_writeEach hrun
    have hmem : (c, g.filePath schema c) ∈ ws.map fun w => (w.supportClass, w.path) := by
      rw [hreported]
      exact List.mem_map.2 ⟨c, hall c, rfl⟩
    obtain ⟨w, hw, heq⟩ := List.mem_map.1 hmem
    exact ⟨w, hw, congrArg Prod.fst heq⟩
  · obtain ⟨_, _, _, hstep, _⟩ := exists_wrote_of_mem hrun hw
    have hlies := liesIn_packageOf hstep
    constructor
    · intro h
      exact h.unique hlies
    · rintro rfl
      exact hlies
  · rw [readBytes_of_written hrun hw hs, sourceBytes, render_context]
  · have hlines (d : SupportClass) : onOneLine (g.packageOf schema d) = true := by
      rw [onOneLine_packageOf, ← onOneLine_packageOf g schema peer, hline]
    exact SupportClass.count_importOf_linesAboveBody hlines _ _ href

/-- A generator that leaves the exception to be maintained by hand. -/
def exceptionByHand : Generator :=
  ({ generatedRoot? := some "out", manualRoot? := some "src" } : Generator).place
    .resourceException .manual

/-- What it reports for the package `pets` and an empty disk. -/
def petsReport : List WrittenClass :=
  [⟨.resourceError, "out/pets/parsec_generated/ResourceError.java", .written⟩,
    ⟨.parsecResourceError, "out/pets/parsec_generated/ParsecResourceError.java", .written⟩,
    ⟨.parsecErrorBody, "out/pets/parsec_generated/ParsecErrorBody.java", .written⟩,
    ⟨.parsecErrorDetail, "out/pets/parsec_generated/ParsecErrorDetail.java", .written⟩,
    ⟨.resourceException, "src/pets/ResourceException.java", .written⟩]

/-- Such a run, with the exception in another package than the error it imports. -/
theorem written_refers_to_reported_pets :
    (∀ c, c ∈ exceptionByHand.classes) ∧
    (exceptionByHand.writeAll { package? := some "pets" } .empty).1.toOption = some petsReport ∧
    strayLines exceptionByHand.banner = [] ∧
    ∃ source above,
      (exceptionByHand.writeAll { package? := some "pets" } .empty).2.readBytes
        "src/pets/ResourceException.java" = .ok source.toUTF8 ∧
      source = Placement.manual.header defaultBanner ++ "package pets;\n" ++ "\n" ++
        ("import pets.parsec_generated.ResourceError;\n" ++ "\n") ++ exceptionBody statuses ∧
      linesOf source = above ++ linesOf (exceptionBody statuses) ∧
      above.count "import pets.parsec_generated.ResourceError;".toList = 1 ∧
      (belowComments source).head? = some "package pets;".toList := by
  have hall : ∀ c, c ∈ exceptionByHand.classes := SupportClass.mem_all
  have hreport : (exceptionByHand.writeAll { package? := some "pets" } .empty).1.toOption =
      some petsReport := by
    decide +kernel
  have hstray : strayLines exceptionByHand.banner = [] :=
    strayLines_of_onOneLine (by decide +kernel)
  refine ⟨hall, hreport, hstray, ?_⟩
  rcases hrun : exceptionByHand.writeAll { package? := some "pets" } .empty with ⟨e | ws, u⟩
  · rw [hrun] at hreport
    cases hreport
  · rw [hrun] at hreport
    obtain rfl : ws = petsReport := Option.some.inj hreport
    obtain ⟨packages, -, hlies, -, -, hsource⟩ :=
      written_refers_to_reported exceptionByHand { package? := some "pets" } .empty u petsReport hall
        hrun
    have hexception : "pets" = packages .resourceException :=
      (hlies ⟨.resourceException, "src/pets/ResourceException.java", .written⟩ (by decide) "pets").1
        ⟨"src/pets", packageFolder_eq_ok_iff.2 ⟨by decide +kernel, by decide +kernel⟩,
          by decide +kernel⟩
    have herror : "pets.parsec_generated" = packages .resourceError :=
      (hlies ⟨.resourceError, "out/pets/parsec_generated/ResourceError.java", .written⟩
        (by decide) "pets.parsec_generated").1
        ⟨"out/pets/parsec_generated",
          packageFolder_eq_ok_iff.2 ⟨by decide +kernel, by decide +kernel⟩, by decide +kernel⟩
    have hwanted : packages .resourceError ≠ "" ∧
        packages .resourceError ≠ packages .resourceException := by
      rw [← herror, ← hexception]
      decide
    have himports : SupportClass.importsFrom packages .resourceException =
        ["import pets.parsec_generated.ResourceError;\n"] := by
      rw [SupportClass.importsFrom, SupportClass.references, List.filter_cons,
        if_pos (decide_eq_true hwanted), List.filter_nil, List.map_singleton, ← herror]
      rfl
    obtain ⟨source, hread, htext, hlines, hcount, hbelow⟩ :=
      hsource ⟨.resourceException, "src/pets/ResourceException.java", .written⟩ (by decide) rfl
    dsimp only at hread htext hlines hcount hbelow
    refine ⟨source, _, hread, ?_, hlines, ?_, ?_⟩
    · rw [htext, SupportClass.sourceIn, himports, ← hexception]
      rfl
    · have himport : SupportClass.importOf (packages .resourceError) .resourceError =
          "import pets.parsec_generated.ResourceError;" := by
        rw [← herror]
        rfl
      have honce := hcount .resourceError (by decide) (herror ▸ by decide)
      rwa [if_pos hwanted, hstray, List.count_nil, himport] at honce
    · have hdeclaration : linesOf (packageLine "pets") = ["package pets;".toList] := by
        decide +kernel
      rw [hbelow hstray, SupportClass.linesBelowHeader, ← hexception, hdeclaration]
      rfl

/-- A generator whose banner ends its comment and imports a class. -/
def importingBanner : Generator :=
  { generatedRoot? := some "out", banner := "rdlgen\nimport parsec_generated.ParsecErrorBody;" }

/-- What it reports for a schema without a package and an empty disk. -/
def importingBannerReport : List WrittenClass :=
  [⟨.resourceError, "out/parsec_generated/ResourceError.java", .written⟩,
    ⟨.parsecResourceError, "out/parsec_generated/ParsecResourceError.java", .written⟩,
    ⟨.parsecErrorBody, "out/parsec_generated/ParsecErrorBody.java", .written⟩,
    ⟨.parsecErrorDetail, "out/parsec_generated/ParsecErrorDetail.java", .written⟩,
    ⟨.resourceException, "out/parsec_generated/ResourceException.java", .written⟩]

/-- Above the body of its envelope stands an import of the error body, to which the
envelope refers and which lies in the same package. -/
theorem planted_import :
    (importingBanner.writeAll {} .empty).1.toOption = some importingBannerReport ∧
    .parsecErrorBody ∈ SupportClass.parsecResourceError.references ∧
    (∀ w ∈ importingBannerReport, importingBanner.LiesIn w "parsec_generated") ∧
    ∃ source above,
      (importingBanner.writeAll {} .empty).2.readBytes
        "out/parsec_generated/ParsecResourceError.java" = .ok source.toUTF8 ∧
      linesOf source = above ++ linesOf SupportClass.parsecResourceError.body ∧
      "import parsec_generated.ParsecErrorBody;".toList ∈ above := by
  have hreport : (importingBanner.writeAll {} .empty).1.toOption = some importingBannerReport := by
    decide +kernel
  rcases hrun : importingBanner.writeAll {} .empty with ⟨e | ws, u⟩
  · rw [hrun] at hreport
    cases hreport
  · rw [hrun] at hreport
    obtain rfl : ws = importingBannerReport := Option.some.inj hreport
    have hpackage (c : SupportClass) : importingBanner.packageOf {} c = "parsec_generated" := rfl
    have hread := readBytes_of_written hrun
      (w := ⟨.parsecResourceError, "out/parsec_generated/ParsecResourceError.java", .written⟩)
      (by decide) rfl
    rw [sourceBytes, render_context] at hread
    refine ⟨rfl, by decide, fun w hw => ?_, _, _, hread, SupportClass.linesOf_sourceIn _ _ _ _, ?_⟩
    · obtain ⟨_, _, _, hstep, _⟩ := exists_wrote_of_mem hrun hw
      exact hpackage w.supportClass ▸ liesIn_packageOf hstep
    · have hbanner : (linesOf (importingBanner.banner ++ "\n")).tail =
          ["import parsec_generated.ParsecErrorBody;".toList] := by
        decide +kernel
      unfold SupportClass.linesAboveBody
      rw [hbanner]
      simp only [List.mem_append, List.mem_singleton, true_or, or_true]

end Generator

end ResourceSchema
