/-
# The lines above a body

What a source imports depends on where the classes are.  Said from their packages
alone, a class imports every class it refers to that is in another package, unless
that is the default package (`SupportClass.importsFrom`), and its source is a header,
the declaration of its package, an empty line, the imports, and its body
(`SupportClass.sourceIn`).

Read line by line, the source is the lines of `SupportClass.linesAboveBody` and then
those of the body (`SupportClass.linesOf_sourceIn`).  A class that is referred to is
imported on one of them if it is imported at all, and on as many more as the banner
lets stray out of the comment (`SupportClass.count_importOf_linesAboveBody`).  Where the
banner keeps to the comment, the first line that is no comment is the declaration of the
package (`SupportClass.belowComments_sourceIn`).
-/

import Mathlib.Data.List.Count
import Mathlib.Data.List.Nodup
import ResourceSchema.Proofs.SupportClass.Header
import ResourceSchema.Text.Split

namespace ResourceSchema

namespace SupportClass

/-- The imports of a class, when the classes are in these packages: one for every
class it refers to that is in another package, unless that is the default
package. -/
def importsFrom (packages : SupportClass → String) (c : SupportClass) : List String :=
  (c.references.filter fun peer => packages peer ≠ "" ∧ packages peer ≠ packages c).map fun peer =>
    Context.importLine (packages peer) peer

/-- The source of a class below a header, when the classes are in these packages:
the declaration of its own, unless that is the default package, the imports, and
the body. -/
def sourceIn (packages : SupportClass → String) (header : String)
    (c : SupportClass) : String :=
  header ++ (if packages c = "" then "" else "package " ++ packages c ++ ";\n") ++ "\n" ++
    (if c.importsFrom packages = [] then "" else String.join (c.importsFrom packages) ++ "\n") ++
    c.body

/-- The name by which a class of a package is imported; in the default package that
would be its own name alone. -/
def qualifiedName (package : String) (c : SupportClass) : String :=
  if package = "" then c.className else package ++ "." ++ c.className

/-- The line that imports a class of a package. -/
def importOf (package : String) (c : SupportClass) : String :=
  "import " ++ qualifiedName package c ++ ";"

/-- The lines between the comment and the body of a source, when the classes are in these
packages: the declaration of its package, an empty line, the imports, and after these
another empty line. -/
def linesBelowHeader (packages : SupportClass → String) (c : SupportClass) : List (List Char) :=
  linesOf (packageLine (packages c)) ++ [[]] ++ (c.importsFrom packages).flatMap linesOf ++
    if c.importsFrom packages = [] then [] else [[]]

/-- The lines of a source above its body: the comment, with what the banner adds to it,
and the lines below the comment. -/
def linesAboveBody (packages : SupportClass → String) (placement : Placement) (banner : String)
    (c : SupportClass) : List (List Char) :=
  ["//".toList, "// This file is generated by ".toList ++ (linesOf (banner ++ "\n")).headD []] ++
    (linesOf (banner ++ "\n")).tail ++ [placement.notice.toList, "//".toList] ++
    c.linesBelowHeader packages

/-! ### Names and imports -/

/-- **The name of a class tells it.** -/
theorem className_injective {c d : SupportClass} (h : c.className = d.className) : c = d := by
  cases c <;> cases d <;> first | rfl | exact absurd h (by decide)

/-- No class refers to another twice. -/
theorem references_nodup (c : SupportClass) : c.references.Nodup := by
  cases c <;> decide

/-- The class is the last piece of a name with a package, since no class has a dot in its
name. -/
theorem pieces_dot_className (package : String) (c : SupportClass) :
    pieces '.' (package ++ "." ++ c.className) = pieces '.' package ++ [c.className] := by
  have hdot : '.' ∉ c.className.toList := by cases c <;> decide
  have htext : (package ++ "." ++ c.className).toList =
      package.toList ++ '.' :: c.className.toList := by
    rw [String.toList_append, String.toList_append, List.append_assoc]
    rfl
  rw [pieces_eq_append package c.className htext, pieces_of_not_mem hdot]

/-- **An import tells the package and the class.** -/
theorem importLine_inj {p q : String} {c d : SupportClass} :
    Context.importLine p c = Context.importLine q d ↔ p = q ∧ c = d := by
  refine ⟨fun h => ?_, fun ⟨hp, hc⟩ => by rw [hp, hc]⟩
  have hdotted : p ++ "." ++ c.className = q ++ "." ++ d.className := by
    unfold Context.importLine at h
    have hunclosed := (String.append_left_inj _).1 h
    simpa only [String.append_assoc, String.append_right_inj] using hunclosed
  have hpieces : pieces '.' p ++ [c.className] = pieces '.' q ++ [d.className] := by
    rw [← pieces_dot_className, hdotted, pieces_dot_className]
  obtain ⟨hpackage, hname⟩ := List.append_inj' hpieces rfl
  exact ⟨pieces_injective hpackage, className_injective (List.singleton_inj.1 hname)⟩

/-- **What is imported from where.** -/
theorem importLine_mem_importsFrom_iff {packages : SupportClass → String} {package : String}
    {c peer : SupportClass} :
    Context.importLine package peer ∈ c.importsFrom packages ↔
      peer ∈ c.references ∧ package = packages peer ∧ package ≠ "" ∧ package ≠ packages c := by
  rw [importsFrom, List.mem_map]
  constructor
  · rintro ⟨other, hother, hline⟩
    obtain ⟨rfl, rfl⟩ := importLine_inj.1 hline
    obtain ⟨href, hwanted⟩ := List.mem_filter.1 hother
    obtain ⟨hnamed, hne⟩ := of_decide_eq_true hwanted
    exact ⟨href, rfl, hnamed, hne⟩
  · rintro ⟨href, rfl, hnamed, hne⟩
    exact ⟨peer, List.mem_filter.2 ⟨href, decide_eq_true ⟨hnamed, hne⟩⟩, rfl⟩

/-- Nothing is imported twice. -/
theorem importsFrom_nodup (packages : SupportClass → String) (c : SupportClass) :
    (c.importsFrom packages).Nodup :=
  List.Pairwise.map _ (fun _ _ hne h => hne (importLine_inj.1 h).2) (c.references_nodup.filter _)

/-- The class is the last piece of the name by which it is imported. -/
theorem getLast?_pieces_qualifiedName (package : String) (c : SupportClass) :
    (pieces '.' (qualifiedName package c)).getLast? = some c.className := by
  unfold qualifiedName
  split
  · have hdot : '.' ∉ c.className.toList := by cases c <;> decide
    rw [pieces_of_not_mem hdot, List.getLast?_singleton]
  · rw [pieces_dot_className, List.getLast?_concat]

/-- A line that imports tells the class, from whatever package it is. -/
theorem eq_of_importOf_eq {p q : String} {c d : SupportClass} (h : importOf p c = importOf q d) :
    c = d := by
  have hname : qualifiedName p c = qualifiedName q d := by
    unfold importOf at h
    have hunclosed := (String.append_left_inj _).1 h
    simpa only [String.append_right_inj] using hunclosed
  refine className_injective (Option.some.inj ?_)
  rw [← getLast?_pieces_qualifiedName p c, hname, getLast?_pieces_qualifiedName]

/-- An import from a package that has a name is the line that imports the class. -/
theorem importLine_eq {package : String} (h : package ≠ "") (c : SupportClass) :
    Context.importLine package c = importOf package c ++ "\n" := by
  have hend : ";\n" = ";" ++ "\n" := by simp only [String.reduceAppend]
  unfold Context.importLine importOf qualifiedName
  rw [if_neg h, hend]
  simp only [String.append_assoc]

/-- **Each import is a line of its own.** -/
theorem importsFrom_eq (packages : SupportClass → String) (c : SupportClass) :
    c.importsFrom packages =
      ((c.references.filter fun peer => packages peer ≠ "" ∧ packages peer ≠ packages c).map
        fun peer => importOf (packages peer) peer).map (· ++ "\n") := by
  rw [importsFrom, List.map_map]
  refine List.map_congr_left fun peer hpeer => ?_
  obtain ⟨hnamed, -⟩ := of_decide_eq_true (List.mem_filter.1 hpeer).2
  exact importLine_eq hnamed peer

/-! ### The lines of a source -/

/-- A source is its header, and from the declaration of the package on it has nothing of
the banner in it. -/
theorem exists_sourceIn_eq (packages : SupportClass → String) (header : String)
    (c : SupportClass) :
    ∃ code, c.sourceIn packages header = header ++ (packageLine (packages c) ++ "\n" ++ code) ∧
      linesOf (packageLine (packages c) ++ "\n" ++ code) =
        c.linesBelowHeader packages ++ linesOf c.body := by
  refine ⟨(if c.importsFrom packages = [] then "" else String.join (c.importsFrom packages) ++ "\n")
    ++ c.body, ?_, ?_⟩
  · unfold sourceIn packageLine
    simp only [String.append_assoc]
  · rw [linesOf_packageLine_append, linesBelowHeader]
    by_cases h : c.importsFrom packages = []
    · rw [if_pos h, if_pos h, h, String.empty_append]
      simp only [List.flatMap_nil, List.append_assoc, List.cons_append, List.nil_append]
    · rw [if_neg h, if_neg h, importsFrom_eq, String.append_assoc, linesOf_join_append,
        linesOf_feed_append]
      simp only [List.flatMap_map, List.append_assoc, List.cons_append, List.nil_append]

/-- **The lines of a source** are those above its body and those of the body. -/
theorem linesOf_sourceIn (packages : SupportClass → String) (placement : Placement)
    (banner : String) (c : SupportClass) :
    linesOf (c.sourceIn packages (placement.header banner)) =
      c.linesAboveBody packages placement banner ++ linesOf c.body := by
  obtain ⟨code, hsource, hlines⟩ := c.exists_sourceIn_eq packages (placement.header banner)
  rw [hsource, Placement.linesOf_header_append, hlines, Placement.linesOf_header, linesAboveBody,
    List.append_assoc _ (c.linesBelowHeader packages)]

/-- **Below a comment that the banner keeps to** a source goes on with the declaration of
its package. -/
theorem belowComments_sourceIn {banner : String} (h : strayLines banner = [])
    (packages : SupportClass → String) (placement : Placement) (c : SupportClass) :
    belowComments (c.sourceIn packages (placement.header banner)) =
      c.linesBelowHeader packages ++ linesOf c.body := by
  obtain ⟨code, hsource, hlines⟩ := c.exists_sourceIn_eq packages (placement.header banner)
  have hheader : belowComments (placement.header banner) = [] := by
    rw [Placement.belowComments_header_eq_nil_iff, ← strayLines_eq_nil_iff, h]
  rw [hsource, Placement.belowComments_header_append _ _ (belowComments_packageLine_append _ _),
    hheader, List.nil_append, hlines]

/-! ### How often a class is imported -/

/-- An import is one line if its package has no line end in its name. -/
theorem onOneLine_importOf {package : String} (h : onOneLine package = true) (c : SupportClass) :
    onOneLine (importOf package c) = true := by
  have hclass : onOneLine c.className = true := by cases c <;> decide
  have himport : onOneLine "import " = true := by decide
  have hsemicolon : onOneLine ";" = true := by decide
  have hdot : onOneLine "." = true := by decide
  unfold importOf qualifiedName
  split <;> simp only [onOneLine_append, himport, hsemicolon, hdot, h, hclass, Bool.and_self]

/-- How an import begins. -/
theorem exists_toList_importOf (package : String) (c : SupportClass) :
    ∃ rest, (importOf package c).toList = 'i' :: rest := by
  unfold importOf
  rw [String.append_assoc, String.toList_append]
  simp only [String.reduceToList, List.cons_append]
  exact ⟨_, rfl⟩

/-- A header has an import as often as the banner lets it stray, for an import is no
comment. -/
theorem count_importOf_linesOf_header (placement : Placement) (banner package : String)
    (c : SupportClass) :
    (linesOf (placement.header banner)).count (importOf package c).toList =
      (strayLines banner).count (importOf package c).toList := by
  obtain ⟨rest, hrest⟩ := exists_toList_importOf package c
  have hplain : (!isCommentLine (importOf package c).toList) = true := by
    rw [hrest]
    rfl
  rw [← placement.filter_linesOf_header banner]
  exact (List.count_filter (p := fun line => !isCommentLine line) hplain).symm

/-- No declaration of a package is an import. -/
theorem importOf_not_mem_linesOf_packageLine {declared : String} (h : onOneLine declared = true)
    (package : String) (c : SupportClass) :
    (importOf package c).toList ∉ linesOf (packageLine declared) := by
  by_cases hdefault : declared = ""
  · rw [packageLine, if_pos hdefault]
    exact List.not_mem_nil
  · have hend : ";\n" = ";" ++ "\n" := by simp only [String.reduceAppend]
    have hline : onOneLine ("package " ++ declared ++ ";") = true := by
      have hword : onOneLine "package " = true := by decide
      have hsemicolon : onOneLine ";" = true := by decide
      simp only [onOneLine_append, hword, h, hsemicolon, Bool.and_self]
    obtain ⟨rest, hrest⟩ := exists_toList_importOf package c
    rw [packageLine, if_neg hdefault, hend, ← String.append_assoc, linesOf_line hline,
      List.mem_singleton, hrest]
    simp only [String.toList_append, String.reduceToList, List.cons_append]
    exact fun heq => absurd (List.cons.inj heq).1 (by decide)

section

variable {packages : SupportClass → String} (h : ∀ peer, onOneLine (packages peer) = true)

include h

/-- The lines of the imports, where no package has a line end in its name. -/
theorem flatMap_linesOf_importsFrom (c : SupportClass) :
    (c.importsFrom packages).flatMap linesOf =
      (c.references.filter fun peer => packages peer ≠ "" ∧ packages peer ≠ packages c).map
        fun peer => (importOf (packages peer) peer).toList := by
  rw [importsFrom_eq, List.flatMap_map, List.flatMap_map, List.map_eq_flatMap]
  exact congrArg (List.flatMap · _)
    (funext fun peer => linesOf_line (onOneLine_importOf (h peer) peer))

/-- Among the imports there is one line for a class in another package that has a name,
and none for any other. -/
theorem count_flatMap_linesOf_importsFrom {c peer : SupportClass} (href : peer ∈ c.references) :
    ((c.importsFrom packages).flatMap linesOf).count (importOf (packages peer) peer).toList =
      if packages peer ≠ "" ∧ packages peer ≠ packages c then 1 else 0 := by
  have hinj : Function.Injective fun d => (importOf (packages d) d).toList :=
    fun _ _ heq => eq_of_importOf_eq (String.toList_inj.1 heq)
  have hmem : (peer ∈ c.references.filter fun d => packages d ≠ "" ∧ packages d ≠ packages c) ↔
      packages peer ≠ "" ∧ packages peer ≠ packages c := by
    rw [List.mem_filter, decide_eq_true_iff, and_iff_right href]
  rw [flatMap_linesOf_importsFrom h, List.count_map_of_injective _ _ hinj,
    (List.Nodup.filter _ c.references_nodup).count]
  exact if_congr hmem rfl rfl

/-- **How often a class is imported above a body:** once if it is in another package that
has a name, and once for every stray line of the banner that imports it. -/
theorem count_importOf_linesAboveBody (placement : Placement) (banner : String)
    {c peer : SupportClass} (href : peer ∈ c.references) :
    (c.linesAboveBody packages placement banner).count (importOf (packages peer) peer).toList =
      (if packages peer ≠ "" ∧ packages peer ≠ packages c then 1 else 0) +
        (strayLines banner).count (importOf (packages peer) peer).toList := by
  obtain ⟨rest, hrest⟩ := exists_toList_importOf (packages peer) peer
  have hdeclaration : (linesOf (packageLine (packages c))).count
      (importOf (packages peer) peer).toList = 0 :=
    List.count_eq_zero_of_not_mem (importOf_not_mem_linesOf_packageLine (h c) (packages peer) peer)
  have hempty : ([[]] : List (List Char)).count (importOf (packages peer) peer).toList = 0 := by
    refine List.count_eq_zero_of_not_mem (mt List.mem_singleton.1 ?_)
    rw [hrest]
    exact List.cons_ne_nil _ _
  have hgap : (if c.importsFrom packages = [] then [] else [[]] : List (List Char)).count
      (importOf (packages peer) peer).toList = 0 := by
    split
    · rfl
    · exact hempty
  unfold linesAboveBody linesBelowHeader
  rw [← Placement.linesOf_header, List.count_append, List.count_append, List.count_append,
    List.count_append, count_importOf_linesOf_header, hdeclaration, hempty, hgap,
    count_flatMap_linesOf_importsFrom h href]
  omega

end

end SupportClass

end ResourceSchema
