/-
# The order of a selection does not matter

Classes are written one after another, and what becomes of one hangs on what those
before it have left: folders are shared, and where roots are nested the file of
one class may lie where another one needs a folder.  So a selection may succeed in
one order and fail in another.  But where it succeeds, the order cannot be told
from what it leaves.

`Generator.Outcome` says what is at an address after a run that succeeded, by what
was there before and which classes were written.  A folder is on the way to all of
them; the source is in the file of a class that is generated, and of one maintained
by hand that was free; and everything else is as it was.  Which of these
holds of an address does not depend on the order, so neither does the tree
(`Generator.Outcome.unique`).

A class maintained by hand is skipped if something was in its place or a folder has
appeared there, and the folder has appeared before its turn if at all: afterwards its
own file would be in the way (`Generator.skipped_iff_of_nodup`).
-/

import Mathlib.Data.List.Nodup
import ResourceSchema.Proofs.Generator.Rerun

namespace ResourceSchema

namespace Generator

/-- An address is on the way to one of the classes. -/
def Passed (g : Generator) (schema : Schema) (classes : List SupportClass) (a : Address) : Prop :=
  ∃ c ∈ classes, Address.OnTheWay [] (g.folderNames schema c) a

/-- What is at an address after the classes were written, in whatever order. -/
inductive Outcome (g : Generator) (schema : Schema) (classes : List SupportClass) (t : FileTree)
    (a : Address) : Option Entry → Prop
  | folder (hpassed : g.Passed schema classes a) : Outcome g schema classes t a (some .folder)
  | source {c : SupportClass} (hpassed : ¬ g.Passed schema classes a) (hc : c ∈ classes)
      (ha : a = g.address schema c) (hfree : g.placement c = .manual → t.at? a = none) :
      Outcome g schema classes t a (some (.file (g.sourceBytes schema c)))
  | same (hpassed : ¬ g.Passed schema classes a)
      (hkept : ∀ c ∈ classes, a = g.address schema c →
        g.placement c = .manual ∧ t.at? a ≠ none) :
      Outcome g schema classes t a (t.at? a)

variable {g : Generator} {schema : Schema} {c d : SupportClass} {t u u' : FileTree} {a : Address}
  {classes classes' : List SupportClass} {ws ws' : List WrittenClass} {w w' : WrittenClass}

/-- **No two classes have one address,** since the name of a file tells its class. -/
theorem address_injective (h : g.address schema c = g.address schema d) : c = d :=
  eq_of_concat_eq_address h

/-- What lies on the way of a selection depends on the set of its classes alone. -/
theorem passed_congr (hsame : ∀ c, c ∈ classes ↔ c ∈ classes') :
    g.Passed schema classes a ↔ g.Passed schema classes' a := by
  simp only [Passed, hsame]

/-- **The outcome is told by the classes,** not by their order. -/
theorem Outcome.unique {e e' : Option Entry} (h : g.Outcome schema classes t a e)
    (h' : g.Outcome schema classes' t a e') (hsame : ∀ c, c ∈ classes ↔ c ∈ classes') : e = e' := by
  have hpassed : g.Passed schema classes a ↔ g.Passed schema classes' a := passed_congr hsame
  cases h with
  | folder hp =>
    cases h' with
    | folder _ => rfl
    | source hp' _ _ _ => exact absurd (hpassed.1 hp) hp'
    | same hp' _ => exact absurd (hpassed.1 hp) hp'
  | @source c hp hc ha hfree =>
    cases h' with
    | folder hp' => exact absurd (hpassed.2 hp') hp
    | source _ _ ha' _ => rw [address_injective (ha.symm.trans ha')]
    | same _ hkept =>
      obtain ⟨hmanual, hthere⟩ := hkept c ((hsame c).1 hc) ha
      exact absurd (hfree hmanual) hthere
  | same hp hkept =>
    cases h' with
    | folder hp' => exact absurd (hpassed.2 hp') hp
    | @source c _ hc ha hfree =>
      obtain ⟨hmanual, hthere⟩ := hkept c ((hsame c).2 hc) ha
      exact absurd (hfree hmanual) hthere
    | same _ _ => rfl

/-! ### What a run leaves -/

/-- A step puts nothing but its source into the file of a class. -/
theorem Wrote.file_was_or_source {r : Except GenerateError WrittenClass}
    (h : g.Wrote schema d t r u) {content : ByteArray}
    (hu : u.at? (g.address schema c) = some (.file content)) :
    t.at? (g.address schema c) = some (.file content) ∨ content = g.sourceBytes schema c := by
  obtain ⟨v, hfolders, rfl | ⟨rfl, -, hwalk, front, name, hw⟩⟩ := h.made_or_written
  · exact .inl (hfolders.file_was hu)
  · rw [FileTree.at?_put v (hwalk ▸ hw.admits)] at hu
    split at hu
    · rename_i haddress
      obtain rfl := address_injective haddress
      cases hu
      exact .inr rfl
    · exact .inl (hfolders.file_was hu)

/-- **Nothing but its source is put into the file of a class** by a run. -/
theorem file_was_or_source_writeEach (h : g.writeEach schema classes t = (.ok ws, u))
    (c : SupportClass) {content : ByteArray}
    (hu : u.at? (g.address schema c) = some (.file content)) :
    t.at? (g.address schema c) = some (.file content) ∨ content = g.sourceBytes schema c := by
  have hrun : (g.writeEach schema classes t).2.at? (g.address schema c) = some (.file content) →
      t.at? (g.address schema c) = some (.file content) ∨ content = g.sourceBytes schema c :=
    writeEach_induction
      (P := fun t u => ∀ content, u.at? (g.address schema c) = some (.file content) →
        t.at? (g.address schema c) = some (.file content) ∨ content = g.sourceBytes schema c)
      (fun _ _ hu => .inl hu)
      (fun _ _ _ h h' content hv => (h' content hv).elim (h content) .inr)
      (fun d _ t _ => (wrote_write g schema d t).file_was_or_source) t content
  rw [h] at hrun
  exact hrun hu

/-- **The way to a class is there** after a run that succeeded. -/
theorem Passed.folder (hpassed : g.Passed schema classes a)
    (h : g.writeEach schema classes t = (.ok ws, u)) : u.at? a = some .folder := by
  obtain ⟨c, hc, hway⟩ := hpassed
  obtain ⟨folder, hf, hfolder⟩ := (inPlace_writeEach h hc).folder
  refine hfolder.folder_onTheWay ?_
  rwa [names_packageFolder hf]

/-- The file of a class that was free holds its source. -/
theorem at?_address_of_free (h : g.writeEach schema classes t = (.ok ws, u)) (hc : c ∈ classes)
    (hpassed : ¬ g.Passed schema classes (g.address schema c))
    (hfree : g.placement c = .manual → t.at? (g.address schema c) = none) :
    u.at? (g.address schema c) = some (.file (g.sourceBytes schema c)) := by
  have hplace := inPlace_writeEach h hc
  cases hp : g.placement c with
  | generated => exact (hplace.source hp).1
  | manual =>
    obtain ⟨folder, hf, -⟩ := hplace.folder
    obtain ⟨e, he⟩ := FileTree.exists_entry_of_hasPath (hplace.kept hp)
    rw [walk_names_filePath hf] at he
    have hchanges := changes_writeEach g schema classes t
    rw [h] at hchanges
    cases e with
    | folder => exact absurd ((hchanges.appears (hfree hp)).1 he) hpassed
    | file content =>
      rcases file_was_or_source_writeEach h c he with hwas | rfl
      · rw [hfree hp] at hwas
        cases hwas
      · exact he

/-- What is no class's to write is as it was. -/
theorem at?_eq_of_kept (h : g.writeEach schema classes t = (.ok ws, u))
    (hpassed : ¬ g.Passed schema classes a)
    (hkept : ∀ c ∈ classes, a = g.address schema c → g.placement c = .manual ∧ t.at? a ≠ none) :
    u.at? a = t.at? a := by
  have hchanges := changes_writeEach g schema classes t
  rw [h] at hchanges
  have hreplace : ¬ ∃ c ∈ classes, a = g.address schema c ∧ g.placement c = .generated := by
    rintro ⟨c, hc, ha, hp⟩
    rw [(hkept c hc ha).1] at hp
    cases hp
  rcases hbefore : t.at? a with _ | (_ | content)
  · rw [← hbefore]
    refine hchanges.at?_eq hpassed ?_ hreplace
    rintro ⟨c, hc, ha⟩
    exact (hkept c hc ha).2 hbefore
  · exact hchanges.folder_kept hbefore
  · exact (hchanges.file_kept hbefore).2 hreplace

/-- **What a run that succeeds leaves** at every address. -/
theorem outcome_writeEach (h : g.writeEach schema classes t = (.ok ws, u)) (a : Address) :
    g.Outcome schema classes t a (u.at? a) := by
  by_cases hpassed : g.Passed schema classes a
  · rw [hpassed.folder h]
    exact .folder hpassed
  · by_cases hfree : ∃ c ∈ classes, a = g.address schema c ∧
        (g.placement c = .manual → t.at? a = none)
    · obtain ⟨c, hc, ha, hfree⟩ := hfree
      have hsource := at?_address_of_free h hc (ha ▸ hpassed) (ha ▸ hfree)
      rw [← ha] at hsource
      rw [hsource]
      exact .source hpassed hc ha hfree
    · have hkept : ∀ c ∈ classes, a = g.address schema c →
          g.placement c = .manual ∧ t.at? a ≠ none := by
        intro c hc ha
        by_contra hnot
        exact hfree ⟨c, hc, ha, fun hp => by_contra fun hthere => hnot ⟨hp, hthere⟩⟩
      rw [at?_eq_of_kept h hpassed hkept]
      exact .same hpassed hkept

/-! ### What a run reports -/

/-- What is reported was asked for, and is reported with its path. -/
theorem mem_classes_of_report (h : g.writeEach schema classes t = (.ok ws, u)) (hw : w ∈ ws) :
    w.supportClass ∈ classes ∧ w.path = g.filePath schema w.supportClass := by
  have hmem : (w.supportClass, w.path) ∈ classes.map fun c => (c, g.filePath schema c) := by
    rw [← reported_writeEach h]
    exact List.mem_map.2 ⟨w, hw, rfl⟩
  obtain ⟨c, hc, heq⟩ := List.mem_map.1 hmem
  obtain ⟨rfl, hpath⟩ := Prod.mk.inj heq
  exact ⟨hc, hpath.symm⟩

/-- Every class that was asked for is reported. -/
theorem exists_report (h : g.writeEach schema classes t = (.ok ws, u)) (hc : c ∈ classes) :
    ∃ w ∈ ws, w.supportClass = c := by
  have hmem : (c, g.filePath schema c) ∈ ws.map fun w => (w.supportClass, w.path) := by
    rw [reported_writeEach h]
    exact List.mem_map.2 ⟨c, hc, rfl⟩
  obtain ⟨w, hw, heq⟩ := List.mem_map.1 hmem
  exact ⟨w, hw, congrArg Prod.fst heq⟩

/-- Of different classes there are different reports. -/
theorem nodup_report (h : g.writeEach schema classes t = (.ok ws, u)) (hnodup : classes.Nodup) :
    ws.Nodup := by
  have hpairs : (ws.map fun w => (w.supportClass, w.path)).Nodup := by
    rw [reported_writeEach h]
    exact List.Nodup.map (fun c d heq => (Prod.mk.inj heq).1) hnodup
  exact List.Nodup.of_map _ hpairs

/-- **Which classes are skipped** of those that are written once: the ones maintained
by hand in whose place something was, or in whose place a folder was needed. -/
theorem skipped_iff_of_nodup (h : g.writeEach schema classes t = (.ok ws, u))
    (hnodup : classes.Nodup) (hw : w ∈ ws) :
    w.status = .skipped ↔ g.placement w.supportClass = .manual ∧
      (t.at? (g.address schema w.supportClass) ≠ none ∨
        g.Passed schema classes (g.address schema w.supportClass)) := by
  obtain ⟨i, hi⟩ := List.mem_iff_getElem?.1 hw
  obtain ⟨c, after, hci, hturn, rfl⟩ := writeEach_turn h hi
  have hc : c ∈ classes := List.mem_of_getElem? hci
  have hbefore : c ∉ classes.take i := by
    intro htake
    have hdrop : c ∈ classes.drop i := by
      refine List.mem_of_getElem? (i := 0) ?_
      rwa [List.getElem?_drop, Nat.add_zero]
    exact List.disjoint_take_drop hnodup (Nat.le_refl i) htake hdrop
  have hchanges := changes_writeEach g schema (classes.take i) t
  -- `found` is the tree at the turn of the class.
  generalize (g.writeEach schema (classes.take i) t).2 = found at hturn hchanges
  have hstep := wrote_write g schema c found
  rw [hturn] at hstep
  rw [hstep.reported.1]
  constructor
  · intro hs
    obtain ⟨hp, hthere | hway⟩ := hstep.skipped_iff_or_onTheWay.1 hs
    · refine ⟨hp, or_iff_not_imp_left.2 fun hfree => ?_⟩
      have happears := hchanges.appears (not_not.1 hfree)
      rcases hfound : found.at? (g.address schema c) with _ | (_ | content)
      · exact absurd hfound hthere
      · obtain ⟨d, hd, hway⟩ := happears.1 hfound
        exact ⟨d, List.mem_of_mem_take hd, hway⟩
      · -- Only the class itself puts a file there, and it had no turn before.
        obtain ⟨d, hd, hsame⟩ := happears.2 content hfound
        exact absurd (address_injective hsame ▸ hd) hbefore
    · exact ⟨hp, .inr ⟨c, hc, hway⟩⟩
  · rintro ⟨hp, hthere | hpassed⟩
    · exact hstep.skipped_iff_or_onTheWay.2 ⟨hp, .inl (mt hchanges.none_was hthere)⟩
    · rcases hs : w.status with _ | _
      · -- The folder would be in the place of the file that was written.
        have hfile := holds_source_writeEach (classes.drop (i + 1)) (hstep.at?_address hs)
        rw [hpassed.folder h] at hfile
        cases hfile
      · rfl

/-- Two runs report the same of a class. -/
theorem report_eq (h : g.writeEach schema classes t = (.ok ws, u))
    (h' : g.writeEach schema classes' t = (.ok ws', u')) (hsame : ∀ c, c ∈ classes ↔ c ∈ classes')
    (hnodup : classes.Nodup) (hnodup' : classes'.Nodup) (hw : w ∈ ws) (hw' : w' ∈ ws')
    (hclass : w.supportClass = w'.supportClass) : w = w' := by
  have hskipped := skipped_iff_of_nodup h hnodup hw
  rw [passed_congr hsame, hclass, ← skipped_iff_of_nodup h' hnodup' hw'] at hskipped
  have hpath : w.path = w'.path := by
    rw [(mem_classes_of_report h hw).2, hclass, (mem_classes_of_report h' hw').2]
  obtain ⟨c, path, status⟩ := w
  obtain ⟨c', path', status'⟩ := w'
  obtain rfl : c = c' := hclass
  obtain rfl : path = path' := hpath
  cases status <;> cases status' <;> simp_all

/-- Which classes a generator wants does not matter to writing them. -/
theorem writeEach_with_classes (g : Generator) (wanted : List SupportClass) (schema : Schema)
    (classes : List SupportClass) (t : FileTree) :
    ({ g with classes := wanted } : Generator).writeEach schema classes t =
      g.writeEach schema classes t := by
  induction classes generalizing t with
  | nil => rfl
  | cons c rest ih =>
    have hwrite : ({ g with classes := wanted } : Generator).write c schema t =
      g.write c schema t := rfl
    simp only [writeEach, hwrite, ih]

/-- **The order of a selection does not matter.**  If different classes are written
in two orders from one disk, and both runs succeed, they leave the same disk and
report every class with the same path and the same status. -/
theorem selection_order_irrelevant (g : Generator) (schema : Schema) (t u u' : FileTree)
    (classes classes' : List SupportClass) (ws ws' : List WrittenClass)
    (hperm : classes.Perm classes') (hnodup : classes.Nodup)
    (h : ({ g with classes := classes } : Generator).writeAll schema t = (.ok ws, u))
    (h' : ({ g with classes := classes' } : Generator).writeAll schema t = (.ok ws', u')) :
    u = u' ∧ ws.Perm ws' ∧ ∀ w ∈ ws, ∀ w' ∈ ws', w.supportClass = w'.supportClass →
      w.path = w'.path ∧ w.status = w'.status := by
  rw [writeAll, writeEach_with_classes] at h h'
  have hsame : ∀ c, c ∈ classes ↔ c ∈ classes' := fun _ => hperm.mem_iff
  have hnodup' : classes'.Nodup := hperm.nodup_iff.1 hnodup
  have hreport : ∀ w ∈ ws, ∀ w' ∈ ws', w.supportClass = w'.supportClass → w = w' :=
    fun w hw w' hw' => report_eq h h' hsame hnodup hnodup' hw hw'
  refine ⟨FileTree.ext_at? fun a => ?_, ?_, fun w hw w' hw' hclass => ?_⟩
  · exact (outcome_writeEach h a).unique (outcome_writeEach h' a) hsame
  · refine (List.perm_ext_iff_of_nodup (nodup_report h hnodup) (nodup_report h' hnodup')).2 ?_
    intro w
    constructor
    · intro hw
      obtain ⟨w', hw', hclass⟩ := exists_report h' ((hsame _).1 (mem_classes_of_report h hw).1)
      rwa [hreport w hw w' hw' hclass.symm]
    · intro hw'
      obtain ⟨v, hv, hclass⟩ := exists_report h ((hsame _).2 (mem_classes_of_report h' hw').1)
      rwa [← hreport v hv w hw' hclass]
  · rw [hreport w hw w' hw' hclass]
    exact ⟨rfl, rfl⟩

/-- Two such runs, with one root below the other and the classes in two orders. -/
theorem selection_order_irrelevant_nestedRoots : ∃ u,
    nestedRoots.writeAll {} withException = (.ok
      [⟨.resourceException, "out/ResourceException.java", .skipped⟩,
        ⟨.parsecErrorDetail, "out/ParsecErrorDetail.java", .written⟩,
        ⟨.resourceError, "out/gen/parsec_generated/ResourceError.java", .written⟩], u) ∧
    ({ nestedRoots with classes := [.resourceError, .resourceException, .parsecErrorDetail] } :
      Generator).writeAll {} withException = (.ok
        [⟨.resourceError, "out/gen/parsec_generated/ResourceError.java", .written⟩,
          ⟨.resourceException, "out/ResourceException.java", .skipped⟩,
          ⟨.parsecErrorDetail, "out/ParsecErrorDetail.java", .written⟩], u) := by
  have hreport : (nestedRoots.writeAll {} withException).1.toOption = some
      [⟨.resourceException, "out/ResourceException.java", .skipped⟩,
        ⟨.parsecErrorDetail, "out/ParsecErrorDetail.java", .written⟩,
        ⟨.resourceError, "out/gen/parsec_generated/ResourceError.java", .written⟩] := by
    decide +kernel
  have hreport' : (({ nestedRoots with
      classes := [.resourceError, .resourceException, .parsecErrorDetail] } :
        Generator).writeAll {} withException).1.toOption = some
      [⟨.resourceError, "out/gen/parsec_generated/ResourceError.java", .written⟩,
        ⟨.resourceException, "out/ResourceException.java", .skipped⟩,
        ⟨.parsecErrorDetail, "out/ParsecErrorDetail.java", .written⟩] := by
    decide +kernel
  rcases h : nestedRoots.writeAll {} withException with ⟨e | ws, u⟩ <;> rw [h] at hreport
  · cases hreport
  rcases h' : ({ nestedRoots with
      classes := [.resourceError, .resourceException, .parsecErrorDetail] } :
        Generator).writeAll {} withException with ⟨e | ws', u'⟩ <;> rw [h'] at hreport'
  · cases hreport'
  obtain rfl := Option.some.inj hreport
  obtain rfl := Option.some.inj hreport'
  obtain ⟨rfl, -, -⟩ := selection_order_irrelevant nestedRoots {} withException u u'
    [.resourceException, .parsecErrorDetail, .resourceError]
    [.resourceError, .resourceException, .parsecErrorDetail] _ _ (by decide) (by decide) h h'
  exact ⟨u, rfl, rfl⟩

/-- One order can fail where another succeeds: the folder above a class that is
generated may have the name of a file that is maintained by hand. -/
example :
    let g := ({ generatedRoot? := some "out/ResourceError.java", manualRoot? := some "out" } :
      Generator).place .resourceError .manual
    (({ g with classes := [.resourceError, .resourceException] } : Generator).writeAll {}
        .empty).1.isOk = false ∧
      (({ g with classes := [.resourceException, .resourceError] } : Generator).writeAll {}
        .empty).1.isOk = true := by
  decide +kernel

end Generator

end ResourceSchema
