/-
# The comment at the top of a source

A source starts with comment lines that say what wrote it.  The name that they give,
the banner, stands in the second of them as it was handed over, and what comes behind
a line end in it starts a line of its own.

From its first line that is no comment, a source is what the banner lets out, the
declaration of its package, an empty line, the imports and the body
(`belowComments_render`).  Nothing is let out exactly if all lines of the banner but
the first are comment lines (`belowComments_render_iff`), so a banner of one line stays
inside (`belowComments_render_of_onOneLine`).  Any other banner puts lines of its own
before the declaration, and they are read as code (`planted_declaration`).

Lines end where they end in a Java text: at a line feed, at a carriage return, or at the
two together.  They are told by the characters that are written.  A line end that is
spelled as a Unicode escape is not looked for.
-/

import Mathlib.Data.List.TakeWhile
import ResourceSchema.SupportClass.Source

namespace ResourceSchema

/-! ### Lines -/

/-- Whether a character ends a line. -/
def endsLine (c : Char) : Bool := c = '\n' || c = '\r'

/-- The lines of a text.  Behind the last line end there is one more if anything
stands there. -/
def cutLines : List Char → List (List Char)
  | [] => []
  | '\r' :: '\n' :: rest => [] :: cutLines rest
  | c :: rest =>
    if endsLine c then [] :: cutLines rest
    else (c :: (cutLines rest).headD []) :: (cutLines rest).tail

/-- The lines of a string. -/
def linesOf (text : String) : List (List Char) := cutLines text.toList

/-- Whether a text has no line end in it. -/
def onOneLine (text : String) : Bool := text.toList.all fun c => !endsLine c

/-- Whether a line is a comment from its start on. -/
def isCommentLine : List Char → Bool
  | '/' :: '/' :: _ => true
  | _ => false

/-- The lines of a text from the first that is no comment. -/
def belowComments (text : String) : List (List Char) := (linesOf text).dropWhile isCommentLine

/-- The lines that a banner adds to the comment it stands in and that are no comments:
its first line stands behind other words in a comment, and the rest as they are. -/
def strayLines (banner : String) : List (List Char) :=
  (linesOf (banner ++ "\n")).tail.filter fun line => !isCommentLine line

section

variable {c : Char} {front : List Char}

/-- A line end in front ends an empty line, unless it goes together with the next
character. -/
theorem cutLines_cons_of_endsLine {rest : List Char} (h : endsLine c = true)
    (hpair : c = '\r' → rest.head? ≠ some '\n') :
    cutLines (c :: rest) = [] :: cutLines rest := by
  rw [cutLines, if_pos h]
  rintro tail rfl rfl
  exact hpair rfl rfl

/-- Any other character in front belongs to the first line. -/
theorem cutLines_cons_of_not_endsLine (h : endsLine c = false) (rest : List Char) :
    cutLines (c :: rest) = (c :: (cutLines rest).headD []) :: (cutLines rest).tail := by
  rw [cutLines, h, if_neg Bool.false_ne_true]
  rintro tail rfl
  exact absurd h (by decide)

/-- A text that is not empty has a line. -/
theorem cutLines_ne_nil (h : front ≠ []) : cutLines front ≠ [] := by
  fun_cases cutLines front with
  | case1 => exact absurd rfl h
  | case2 => exact List.cons_ne_nil _ _
  | case3 => exact List.cons_ne_nil _ _
  | case4 => exact List.cons_ne_nil _ _

/-- **Behind a line feed a new line starts,** also where the line feed belongs to a
carriage return before it. -/
theorem cutLines_append_feed (front rest : List Char) :
    cutLines (front ++ '\n' :: rest) = cutLines (front ++ ['\n']) ++ cutLines rest := by
  fun_induction cutLines front with
  | case1 => rfl
  | case2 front ih => exact congrArg ([] :: ·) ih
  | case3 c front h hc ih =>
    cases front with
    | nil =>
      -- A carriage return at the end goes together with the line feed.
      have hend : c = '\n' ∨ c = '\r' := by simpa [endsLine] using hc
      rcases hend with rfl | rfl <;> rfl
    | cons d front =>
      have hpair (behind : List Char) : c = '\r' → (d :: front ++ behind).head? ≠ some '\n' := by
        rintro hreturn hfeed
        exact h front hreturn (by rw [Option.some.inj hfeed])
      show cutLines (c :: (d :: front ++ '\n' :: rest)) =
        cutLines (c :: (d :: front ++ ['\n'])) ++ cutLines rest
      rw [cutLines_cons_of_endsLine hc (hpair _), ih, cutLines_cons_of_endsLine hc (hpair _)]
      rfl
  | case4 c front h hc ih =>
    have hplain := Bool.eq_false_iff.2 hc
    have hne : front ++ ['\n'] ≠ [] :=
      List.append_ne_nil_of_right_ne_nil front (List.cons_ne_nil '\n' [])
    obtain ⟨line, lines, hlines⟩ := List.exists_cons_of_ne_nil (cutLines_ne_nil hne)
    rw [List.cons_append, cutLines_cons_of_not_endsLine hplain, ih, List.cons_append,
      cutLines_cons_of_not_endsLine hplain, hlines]
    rfl

/-- A piece without line ends stands before the first line of what follows. -/
theorem cutLines_append_of_plain (hne : front ≠ []) (h : ∀ c ∈ front, endsLine c = false)
    (rest : List Char) :
    cutLines (front ++ rest) = (front ++ (cutLines rest).headD []) :: (cutLines rest).tail := by
  induction front with
  | nil => exact absurd rfl hne
  | cons c front ih =>
    obtain ⟨hc, hfront⟩ := List.forall_mem_cons.1 h
    rw [List.cons_append, cutLines_cons_of_not_endsLine hc]
    by_cases hempty : front = []
    · rw [hempty]
      rfl
    · rw [ih hempty hfront]
      rfl

end

/-- **Behind a line feed a new line starts,** said of strings. -/
theorem linesOf_append_feed (front rest : String) :
    linesOf (front ++ "\n" ++ rest) = linesOf (front ++ "\n") ++ linesOf rest := by
  unfold linesOf
  rw [String.toList_append, String.toList_append, List.append_assoc]
  exact cutLines_append_feed front.toList rest.toList

/-- A line feed in front ends an empty line. -/
theorem linesOf_feed_append (rest : String) : linesOf ("\n" ++ rest) = [] :: linesOf rest := by
  unfold linesOf
  rw [String.toList_append]
  rfl

/-- A text without line ends stands before the first line of what follows. -/
theorem linesOf_append_of_onOneLine {front : String} (hne : front ≠ "")
    (h : onOneLine front = true) (rest : String) :
    linesOf (front ++ rest) =
      (front.toList ++ (linesOf rest).headD []) :: (linesOf rest).tail := by
  have hplain : ∀ c ∈ front.toList, endsLine c = false := by simpa [onOneLine] using h
  unfold linesOf
  rw [String.toList_append]
  exact cutLines_append_of_plain (mt String.toList_eq_nil_iff.1 hne) hplain rest.toList

/-- Texts that end their lines, one behind the other: their lines follow each other, and
then come those of the rest. -/
theorem linesOf_join_append (texts : List String) (rest : String) :
    linesOf (String.join (texts.map (· ++ "\n")) ++ rest) =
      texts.flatMap (fun text => linesOf (text ++ "\n")) ++ linesOf rest := by
  induction texts with
  | nil => exact congrArg linesOf String.empty_append
  | cons text texts ih =>
    rw [List.map_cons, String.join_cons, String.append_assoc, linesOf_append_feed, ih,
      List.flatMap_cons, List.append_assoc]

/-- Two texts that stand one behind the other have no line end if neither has one. -/
theorem onOneLine_append (front back : String) :
    onOneLine (front ++ back) = (onOneLine front && onOneLine back) := by
  unfold onOneLine
  rw [String.toList_append, List.all_append]

/-- A line that is ended is one line. -/
theorem linesOf_line {line : String} (h : onOneLine line = true) :
    linesOf (line ++ "\n") = [line.toList] := by
  by_cases hempty : line = ""
  · rw [hempty]
    rfl
  · rw [linesOf_append_of_onOneLine hempty h]
    exact congrArg (· :: []) (List.append_nil line.toList)

/-- A banner has no stray lines exactly if all its lines but the first are comments. -/
theorem strayLines_eq_nil_iff {banner : String} : strayLines banner = [] ↔
    ∀ line ∈ (linesOf (banner ++ "\n")).tail, isCommentLine line = true := by
  rw [strayLines, List.filter_eq_nil_iff]
  simp only [Bool.not_eq_true', Bool.not_eq_false]

/-- A banner of one line has no stray lines. -/
theorem strayLines_of_onOneLine {banner : String} (h : onOneLine banner = true) :
    strayLines banner = [] := by
  rw [strayLines_eq_nil_iff, linesOf_line h]
  exact List.forall_mem_nil _

/-! ### The header -/

namespace Placement

/-- The line of a header that says what becomes of changes made by hand. -/
def notice : Placement → String
  | generated => "// Please DO NOT edit directly; changes could be overwritten."
  | manual => "// WILL NOT be auto-generated if file has already existed."

variable (placement : Placement) (banner : String)

/-- A header line by line. -/
theorem header_eq : placement.header banner =
    "//" ++ "\n" ++ ("// This file is generated by " ++ banner ++ "\n" ++
      (placement.notice ++ "\n" ++ ("//" ++ "\n"))) := by
  have hopening : "//\n// This file is generated by " =
      "//" ++ "\n" ++ "// This file is generated by " := by
    simp only [String.reduceAppend]
  have hend : placement.header banner =
      bannerLines banner ++ (placement.notice ++ "\n" ++ ("//" ++ "\n")) := by
    unfold header
    refine congrArg (bannerLines banner ++ ·) ?_
    cases placement <;> decide +kernel
  calc placement.header banner
      = bannerLines banner ++ (placement.notice ++ "\n" ++ ("//" ++ "\n")) := hend
    _ = "//" ++ "\n" ++ "// This file is generated by " ++ banner ++ "\n" ++
          (placement.notice ++ "\n" ++ ("//" ++ "\n")) :=
        congrArg (· ++ banner ++ "\n" ++ (placement.notice ++ "\n" ++ ("//" ++ "\n"))) hopening
    _ = _ := by simp only [String.append_assoc]

/-- **The lines of a header.**  The first line of the banner ends the second, and its
others follow as they are. -/
theorem linesOf_header : linesOf (placement.header banner) =
    ["//".toList, "// This file is generated by ".toList ++ (linesOf (banner ++ "\n")).headD []] ++
      (linesOf (banner ++ "\n")).tail ++ [placement.notice.toList, "//".toList] := by
  have hslashes : linesOf ("//" ++ "\n") = ["//".toList] := linesOf_line (by decide)
  have hsecond : linesOf ("// This file is generated by " ++ banner ++ "\n") =
      ("// This file is generated by ".toList ++ (linesOf (banner ++ "\n")).headD []) ::
        (linesOf (banner ++ "\n")).tail := by
    rw [String.append_assoc]
    exact linesOf_append_of_onOneLine (by decide) (by decide +kernel) _
  have hnotice : linesOf (placement.notice ++ "\n") = [placement.notice.toList] :=
    linesOf_line (by cases placement <;> decide +kernel)
  rw [header_eq, linesOf_append_feed, linesOf_append_feed, linesOf_append_feed, hslashes, hsecond,
    hnotice]
  simp only [List.cons_append, List.nil_append]

/-- **The lines of a header that are no comments** are the stray lines of the banner. -/
theorem filter_linesOf_header :
    (linesOf (placement.header banner)).filter (fun line => !isCommentLine line) =
      strayLines banner := by
  have hsecond (first : List Char) :
      isCommentLine ("// This file is generated by ".toList ++ first) = true := by
    simp only [String.reduceToList]
    rfl
  have hnotice : isCommentLine placement.notice.toList = true := by
    cases placement <;> decide +kernel
  have hslashes : isCommentLine "//".toList = true := by decide
  rw [linesOf_header, List.filter_append, List.filter_append, strayLines]
  simp only [List.filter_cons, List.filter_nil, hslashes, hsecond, hnotice, Bool.not_true,
    Bool.false_eq_true, if_false, List.nil_append, List.append_nil]

/-- The lines of what follows a header come behind those of the header. -/
theorem linesOf_header_append (below : String) :
    linesOf (placement.header banner ++ below) =
      linesOf (placement.header banner) ++ linesOf below := by
  have hended : placement.header banner =
      "//" ++ "\n" ++ ("// This file is generated by " ++ banner ++ "\n" ++
        (placement.notice ++ "\n" ++ "//")) ++ "\n" := by
    rw [header_eq]
    simp only [String.append_assoc]
  rw [hended, linesOf_append_feed]

/-- **A header is nothing but comment lines exactly if the banner adds no other.** -/
theorem belowComments_header_eq_nil_iff : belowComments (placement.header banner) = [] ↔
    ∀ line ∈ (linesOf (banner ++ "\n")).tail, isCommentLine line = true := by
  rw [← strayLines_eq_nil_iff, ← filter_linesOf_header placement, belowComments, List.dropWhile_eq_nil_iff,
    List.filter_eq_nil_iff]
  simp only [Bool.not_eq_true', Bool.not_eq_false]

/-- What a header lets out stands before the rest, if that starts with no comment. -/
theorem belowComments_header_append {below : String} (h : belowComments below = linesOf below) :
    belowComments (placement.header banner ++ below) =
      belowComments (placement.header banner) ++ linesOf below := by
  unfold belowComments at h ⊢
  rw [linesOf_header_append, List.dropWhile_append, h]
  cases (linesOf (placement.header banner)).dropWhile isCommentLine <;> rfl

end Placement

/-! ### The declaration of the package -/

/-- The empty line below a declaration is a line of its own. -/
theorem linesOf_packageLine_append (package code : String) :
    linesOf (packageLine package ++ "\n" ++ code) =
      linesOf (packageLine package) ++ [] :: linesOf code := by
  by_cases h : package = ""
  · rw [packageLine, if_pos h, String.empty_append]
    exact linesOf_feed_append code
  · have hend : ";\n" = ";" ++ "\n" := by simp only [String.reduceAppend]
    have hline : packageLine package = "package " ++ package ++ ";" ++ "\n" :=
      calc packageLine package = "package " ++ package ++ ";\n" := if_neg h
        _ = "package " ++ package ++ (";" ++ "\n") := congrArg ("package " ++ package ++ ·) hend
        _ = _ := by simp only [String.append_assoc]
    rw [hline, linesOf_append_feed, linesOf_append_feed, List.append_assoc]
    rfl

/-- A declaration starts with its keyword. -/
theorem exists_linesOf_packageLine {package : String} (h : package ≠ "") :
    ∃ first others, linesOf (packageLine package) = ("package ".toList ++ first) :: others := by
  rw [packageLine, if_neg h, String.append_assoc,
    linesOf_append_of_onOneLine (by decide) (by decide +kernel)]
  exact ⟨_, _, rfl⟩

/-- Neither a declaration nor the empty line is a comment. -/
theorem belowComments_packageLine_append (package code : String) :
    belowComments (packageLine package ++ "\n" ++ code) =
      linesOf (packageLine package ++ "\n" ++ code) := by
  rw [belowComments, linesOf_packageLine_append]
  by_cases h : package = ""
  · rw [packageLine, if_pos h]
    rfl
  · obtain ⟨first, others, hlines⟩ := exists_linesOf_packageLine h
    have hdeclaration : ¬ isCommentLine ("package ".toList ++ first) = true := by
      simp only [String.reduceToList]
      exact Bool.false_ne_true
    rw [hlines, List.cons_append, List.dropWhile_cons_of_neg hdeclaration]

/-! ### The source -/

namespace SupportClass

/-- The source of a class from its imports on. -/
def code (c : SupportClass) (schema : Schema) (ctx : Context) : String :=
  (if ctx.imports c schema = [] then "" else String.join (ctx.imports c schema) ++ "\n") ++ c.body

variable (c : SupportClass) (schema : Schema) (ctx : Context)

/-- A source is its header, the declaration of its package, an empty line, and the rest. -/
theorem render_eq_header_append : c.render schema ctx =
    ctx.placement.header ctx.banner ++
      (packageLine (ctx.package schema) ++ "\n" ++ c.code schema ctx) := by
  unfold render code
  simp only [String.append_assoc]

/-- **Below its comment** a source is what the banner lets out, the declaration of its
package, if that has a name, an empty line, and the imports and the body. -/
theorem belowComments_render : belowComments (c.render schema ctx) =
    belowComments (ctx.placement.header ctx.banner) ++
      (linesOf (packageLine (ctx.package schema)) ++ [] :: linesOf (c.code schema ctx)) := by
  rw [render_eq_header_append, ← linesOf_packageLine_append]
  exact Placement.belowComments_header_append _ _ (belowComments_packageLine_append _ _)

/-- **The comment of a source holds exactly if the banner keeps to it.**  The first line
that is no comment is the declaration of the package, or the empty line for the default
package, exactly if all lines of the banner but the first are comment lines; and what
stands from there on has nothing of the banner in it. -/
theorem belowComments_render_iff :
    belowComments (c.render schema ctx) =
        linesOf (packageLine (ctx.package schema)) ++ [] :: linesOf (c.code schema ctx) ↔
      ∀ line ∈ (linesOf (ctx.banner ++ "\n")).tail, isCommentLine line = true := by
  rw [belowComments_render, List.append_left_eq_self, Placement.belowComments_header_eq_nil_iff]

/-- A banner whose second line is a declaration, for a class of the default package. -/
def plantedContext : Context := { banner := "rdlgen\npackage planted;", placement := .manual }

/-- The second line of such a banner is read as code. -/
theorem planted_declaration :
    plantedContext.package {} = "" ∧
    (belowComments (resourceError.render {} plantedContext)).head? =
      some "package planted;".toList ∧
    belowComments (resourceError.render {} plantedContext) ≠
      linesOf (packageLine (plantedContext.package {})) ++
        [] :: linesOf (resourceError.code {} plantedContext) := by
  have hpackage : plantedContext.package {} = "" := rfl
  have hbanner : linesOf (plantedContext.banner ++ "\n") =
      ["rdlgen".toList, "package planted;".toList] := by
    decide +kernel
  have hheader : belowComments (plantedContext.placement.header plantedContext.banner) =
      ["package planted;".toList, Placement.manual.notice.toList, "//".toList] := by
    rw [belowComments, Placement.linesOf_header, hbanner]
    decide +kernel
  have hhead : (belowComments (resourceError.render {} plantedContext)).head? =
      some "package planted;".toList := by
    rw [belowComments_render, hheader]
    rfl
  refine ⟨hpackage, hhead, fun heq => ?_⟩
  rw [heq, hpackage] at hhead
  cases hhead

/-- **A banner of one line stays in the comment.** -/
theorem belowComments_render_of_onOneLine {ctx : Context} (h : onOneLine ctx.banner = true) :
    belowComments (c.render schema ctx) =
      linesOf (packageLine (ctx.package schema)) ++ [] :: linesOf (c.code schema ctx) := by
  have hheader : belowComments (ctx.placement.header ctx.banner) = [] := by
    rw [Placement.belowComments_header_eq_nil_iff, ← strayLines_eq_nil_iff]
    exact strayLines_of_onOneLine h
  rw [belowComments_render, hheader, List.nil_append]

/-- The banner that is used unless another is given is such a banner. -/
example : onOneLine defaultBanner = true := by decide +kernel

end SupportClass

end ResourceSchema
