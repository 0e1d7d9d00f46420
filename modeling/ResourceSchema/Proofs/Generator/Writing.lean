/-
# What writing classes does to the disk

`Generator.Wrote` lists what can come of writing a class: the package cannot be
laid out, its folder cannot be made, the file of a class maintained by hand is
there already, the file cannot be written, or it is written.  It is the only
place that looks into `Generator.write` (`Generator.wrote_write`).

From it follow the two facts every run is built from.  A step makes folders on
the way to its class's file, and touches no other file; content is replaced only
for a class that is generated (`Generator.Wrote.changes`).  And a file that holds
the source of its class holds it afterwards, whatever class is written
(`Generator.Wrote.holds_source`), since the name of a file tells its class.

A step skips its class if it is maintained by hand and something is in its place or
a folder has to be (`Generator.Wrote.skipped_iff_or_onTheWay`).

A run goes through its classes up to the first failure.  Both facts hold of it by
induction, however it ends (`Generator.changes_writeEach`,
`Generator.holds_source_writeEach`), and `Generator.writeEach_turn` finds in a
run that succeeds the turn of each class.
-/

import ResourceSchema.Generator.Basic
import ResourceSchema.Proofs.Disk.Standing
import ResourceSchema.Proofs.Package.Folder

namespace ResourceSchema

namespace SupportClass

/-- **The name of a file tells its class.** -/
theorem fileName_injective {c d : SupportClass} (h : c.fileName = d.fileName) : c = d := by
  cases c <;> cases d <;> first | rfl | exact absurd h (by decide)

/-- The name of a file is a single name. -/
theorem isName_fileName (c : SupportClass) :
    '/' ∉ c.fileName.toList ∧ Path.isName c.fileName = true := by
  cases c <;> decide

/-- The name of a file does not lead back. -/
theorem fileName_ne_parent (c : SupportClass) : c.fileName ≠ ".." := by
  cases c <;> decide

end SupportClass

namespace Generator

/-- The package of a class. -/
def packageOf (g : Generator) (schema : Schema) (c : SupportClass) : String :=
  (g.placement c).package schema g.override?

/-- The path of the file of a class: below the root of its placement a folder for
each name of its package, and there the file. -/
def filePath (g : Generator) (schema : Schema) (c : SupportClass) : Path :=
  ((packageNames (g.packageOf schema c)).foldl Path.join (g.root (g.placement c))).join c.fileName

/-- The names along the folder of a class. -/
def folderNames (g : Generator) (schema : Schema) (c : SupportClass) : List String :=
  (g.root (g.placement c)).names ++ packageNames (g.packageOf schema c)

/-- The address of the file of a class. -/
def address (g : Generator) (schema : Schema) (c : SupportClass) : Address :=
  Address.walk [] (g.folderNames schema c) ++ [c.fileName]

/-- The bytes of the source of a class. -/
def sourceBytes (g : Generator) (schema : Schema) (c : SupportClass) : ByteArray :=
  (c.render schema (g.context c)).toUTF8

/-- What can come of writing a class, and the tree after it. -/
inductive Wrote (g : Generator) (schema : Schema) (c : SupportClass) (t : FileTree) :
    Except GenerateError WrittenClass → FileTree → Prop
  | noPackage {e : GenerateError}
      (hf : packageFolder (g.root (g.placement c)) (g.packageOf schema c) = .error e) :
      Wrote g schema c t (.error e) t
  | noFolder {folder : Path} {e : IoError} {u : FileTree}
      (hf : packageFolder (g.root (g.placement c)) (g.packageOf schema c) = .ok folder)
      (hu : t.createFolders folder = (.error e, u)) : Wrote g schema c t (.error (.io e)) u
  | skipped {folder : Path} {u : FileTree}
      (hf : packageFolder (g.root (g.placement c)) (g.packageOf schema c) = .ok folder)
      (hu : t.createFolders folder = (.ok (), u)) (hp : g.placement c = .manual)
      (hthere : u.hasPath (g.filePath schema c) = true) :
      Wrote g schema c t (.ok ⟨c, g.filePath schema c, .skipped⟩) u
  | noFile {folder : Path} {e : IoError} {u : FileTree}
      (hf : packageFolder (g.root (g.placement c)) (g.packageOf schema c) = .ok folder)
      (hu : t.createFolders folder = (.ok (), u))
      (hw : u.fileAddress (g.filePath schema c) = .error e) : Wrote g schema c t (.error (.io e)) u
  | written {folder : Path} {u : FileTree} {front : List String} {name : String}
      (hf : packageFolder (g.root (g.placement c)) (g.packageOf schema c) = .ok folder)
      (hu : t.createFolders folder = (.ok (), u))
      (hnew : g.placement c = .manual → u.hasPath (g.filePath schema c) = false)
      (hw : u.Writable (g.filePath schema c) front name) :
      Wrote g schema c t (.ok ⟨c, g.filePath schema c, .written⟩)
        (u.put (g.address schema c) (.file (g.sourceBytes schema c)))

variable {g : Generator} {schema : Schema} {c d : SupportClass} {t u : FileTree} {folder : Path}

/-- The path of a file is that of its folder with its name. -/
theorem filePath_eq
    (hf : packageFolder (g.root (g.placement c)) (g.packageOf schema c) = .ok folder) :
    folder.join c.fileName = g.filePath schema c := by
  obtain ⟨-, rfl⟩ := packageFolder_eq_ok_iff.1 hf
  rfl

/-- The names along the file of a class. -/
theorem names_filePath
    (hf : packageFolder (g.root (g.placement c)) (g.packageOf schema c) = .ok folder) :
    (g.filePath schema c).names = g.folderNames schema c ++ [c.fileName] := by
  rw [← filePath_eq hf, Path.names_join folder c.isName_fileName.1 c.isName_fileName.2,
    names_packageFolder hf, folderNames]

/-- The path of a file walks to its address. -/
theorem walk_names_filePath
    (hf : packageFolder (g.root (g.placement c)) (g.packageOf schema c) = .ok folder) :
    Address.walk [] (g.filePath schema c).names = g.address schema c := by
  rw [names_filePath hf, Address.walk_concat_of_ne c.fileName_ne_parent, address]

/-- Without a folder for its package a class is not written. -/
theorem write_of_ensurePackage_error {e : GenerateError}
    (h : t.ensurePackage (g.root (g.placement c)) (g.packageOf schema c) = (.error e, u)) :
    g.write c schema t = (.error e, u) := by
  rw [packageOf] at h
  simp only [write, context_eq, Context.package, h]

/-- **With a folder for its package** a class is skipped if it is maintained by hand and its
path leads somewhere, and else written, if the file can be. -/
theorem write_of_ensurePackage
    (h : t.ensurePackage (g.root (g.placement c)) (g.packageOf schema c) = (.ok folder, u)) :
    g.write c schema t =
      if g.placement c = .manual ∧ u.hasPath (folder.join c.fileName) = true then
        (.ok ⟨c, folder.join c.fileName, .skipped⟩, u)
      else match u.fileAddress (folder.join c.fileName) with
        | .error e => (.error (.io e), u)
        | .ok a => (.ok ⟨c, folder.join c.fileName, .written⟩,
            u.put a (.file (g.sourceBytes schema c))) := by
  rw [packageOf] at h
  simp only [write, context_eq, Context.package, h, FileTree.writeFile, sourceBytes]
  rcases u.fileAddress (folder.join c.fileName) with e | a <;> rfl

/-- **Writing a class** does one of these. -/
theorem wrote_write (g : Generator) (schema : Schema) (c : SupportClass) (t : FileTree) :
    g.Wrote schema c t (g.write c schema t).1 (g.write c schema t).2 := by
  rcases hf : packageFolder (g.root (g.placement c)) (g.packageOf schema c) with e | folder
  · have hensure : t.ensurePackage (g.root (g.placement c)) (g.packageOf schema c) =
        (.error e, t) := by simp only [FileTree.ensurePackage, hf]
    rw [write_of_ensurePackage_error hensure]
    exact .noPackage hf
  · rcases hu : t.createFolders folder with ⟨e | ⟨⟩, u⟩
    · have hensure : t.ensurePackage (g.root (g.placement c)) (g.packageOf schema c) =
          (.error (.io e), u) := by simp only [FileTree.ensurePackage, hf, hu]
      rw [write_of_ensurePackage_error hensure]
      exact .noFolder hf hu
    · have hensure : t.ensurePackage (g.root (g.placement c)) (g.packageOf schema c) =
          (.ok folder, u) := by simp only [FileTree.ensurePackage, hf, hu]
      rw [write_of_ensurePackage hensure, filePath_eq hf]
      split
      · rename_i h
        exact .skipped hf hu h.1 h.2
      · rename_i h
        rcases hw : u.fileAddress (g.filePath schema c) with e | a
        · exact .noFile hf hu hw
        · have hnew : g.placement c = .manual → u.hasPath (g.filePath schema c) = false :=
            fun hp => Bool.eq_false_iff.2 fun hthere => h ⟨hp, hthere⟩
          obtain ⟨ha, front, name, hwritable⟩ := FileTree.exists_writable_of_fileAddress hw
          rw [walk_names_filePath hf] at ha
          rw [ha]
          dsimp only
          exact .written hf hu hnew hwritable

/-- A file at the address of a class has the name of that class. -/
theorem eq_of_concat_eq_address {above : Address}
    (h : above ++ [d.fileName] = g.address schema c) : d = c := by
  have hlast := (List.append_inj' h rfl).2
  exact SupportClass.fileName_injective (List.singleton_inj.1 hlast)

/-- Making the folder of a class. -/
theorem changes_folder {r : Except IoError Unit}
    (hf : packageFolder (g.root (g.placement c)) (g.packageOf schema c) = .ok folder)
    (hu : t.createFolders folder = (r, u)) :
    t.Changes (Address.OnTheWay [] (g.folderNames schema c)) FileTree.nowhere FileTree.nowhere u := by
  have h := FileTree.changes_createFolders t folder
  rwa [hu, names_packageFolder hf] at h

namespace Wrote

variable {r : Except GenerateError WrittenClass}

/-- A step makes folders on the way to its class and writes the file, or only the
former. -/
theorem made_or_written (h : g.Wrote schema c t r u) : ∃ v,
    t.Changes (Address.OnTheWay [] (g.folderNames schema c)) FileTree.nowhere FileTree.nowhere v ∧
      (u = v ∨ u = v.put (g.address schema c) (.file (g.sourceBytes schema c)) ∧
        (g.placement c = .manual → v.hasPath (g.filePath schema c) = false) ∧
        Address.walk [] (g.filePath schema c).names = g.address schema c ∧
        ∃ front name, v.Writable (g.filePath schema c) front name) := by
  cases h with
  | noPackage _ => exact ⟨t, .refl t, .inl rfl⟩
  | noFolder hf hu => exact ⟨u, changes_folder hf hu, .inl rfl⟩
  | skipped hf hu _ _ => exact ⟨u, changes_folder hf hu, .inl rfl⟩
  | noFile hf hu _ => exact ⟨u, changes_folder hf hu, .inl rfl⟩
  | @written _ v front name hf hu hnew hw =>
    exact ⟨v, changes_folder hf hu, .inr ⟨rfl, hnew, walk_names_filePath hf, front, name, hw⟩⟩

/-- **The step changes** folders on the way to the file of the class and that
file, whose content it replaces only if the class is generated. -/
theorem changes (h : g.Wrote schema c t r u) :
    t.Changes (Address.OnTheWay [] (g.folderNames schema c)) (· = g.address schema c)
      (fun a => a = g.address schema c ∧ g.placement c = .generated) u := by
  obtain ⟨v, hfolders, hu⟩ := h.made_or_written
  have hmade : t.Changes (Address.OnTheWay [] (g.folderNames schema c)) (· = g.address schema c)
      (fun a => a = g.address schema c ∧ g.placement c = .generated) v :=
    hfolders.mono (fun _ ha => ha) (fun _ ha => ha.elim) (fun _ ha => ha.elim)
  rcases hu with rfl | ⟨rfl, hnew, hwalk, front, name, hw⟩
  · exact hmade
  · refine hmade.trans ?_
    have hput := hw.changes_put (g.sourceBytes schema c)
    rw [hwalk] at hput
    refine hput.mono (fun _ ha => ha.elim) (fun _ ha => ha) fun a ha => ⟨ha.1, ?_⟩
    -- A class maintained by hand is written only where nothing is.
    rcases hp : g.placement c with _ | _
    · rfl
    · have hnone := hw.at?_eq_none (hnew hp)
      rw [hwalk, ← ha.1] at hnone
      exact absurd hnone ha.2

/-- **A source that is in place stays in place**, whatever class is written. -/
theorem holds_source (h : g.Wrote schema c t r u)
    (hd : t.at? (g.address schema d) = some (.file (g.sourceBytes schema d))) :
    u.at? (g.address schema d) = some (.file (g.sourceBytes schema d)) := by
  by_cases heq : d = c
  · subst heq
    obtain ⟨v, hfolders, hu⟩ := h.made_or_written
    rcases hu with rfl | ⟨rfl, hnew, hwalk, front, name, hw⟩
    · exact (hfolders.file_kept hd).2 not_false
    · rw [FileTree.at?_put _ (hwalk ▸ hw.admits), if_pos rfl]
  · exact (h.changes.file_kept hd).2 fun hr => heq (eq_of_concat_eq_address hr.1)

/-- The source of a class that was written is in place. -/
theorem at?_address {w : WrittenClass} (h : g.Wrote schema c t (.ok w) u)
    (hs : w.status = .written) :
    u.at? (g.address schema c) = some (.file (g.sourceBytes schema c)) := by
  cases h with
  | skipped _ _ _ _ => cases hs
  | written hf _ _ hw =>
    have hadmits := hw.admits
    rw [walk_names_filePath hf] at hadmits
    rw [FileTree.at?_put _ hadmits, if_pos rfl]

/-- As long as it is in place and no folder goes, the source of a class that was
written is read by its path. -/
theorem readBytes {v : FileTree} {w : WrittenClass} (h : g.Wrote schema c t (.ok w) u)
    (hs : w.status = .written) (hkeep : ∀ b, u.at? b = some .folder → v.at? b = some .folder)
    (hv : v.at? (g.address schema c) = some (.file (g.sourceBytes schema c))) :
    v.readBytes w.path = .ok (g.sourceBytes schema c) := by
  cases h with
  | skipped _ _ _ _ => cases hs
  | written hf _ _ hw =>
    have hput := hw.changes_put (g.sourceBytes schema c)
    rw [← walk_names_filePath hf] at hv hkeep
    exact hw.readBytes_of_folders (fun b hb => hkeep b (hput.folder_kept hb)) hv

/-- A class is reported with its path. -/
theorem reported {w : WrittenClass} (h : g.Wrote schema c t (.ok w) u) :
    w.supportClass = c ∧ w.path = g.filePath schema c := by
  cases h with
  | skipped _ _ _ _ => exact ⟨rfl, rfl⟩
  | written _ _ _ _ => exact ⟨rfl, rfl⟩

/-- **A step skips its class** if it is maintained by hand and something is in its
place, or a folder is needed there for the package of the class itself. -/
theorem skipped_iff_or_onTheWay {w : WrittenClass} (h : g.Wrote schema c t (.ok w) u) :
    w.status = .skipped ↔ g.placement c = .manual ∧ (t.at? (g.address schema c) ≠ none ∨
      Address.OnTheWay [] (g.folderNames schema c) (g.address schema c)) := by
  cases h with
  | skipped hf hu hp hthere =>
    refine ⟨fun _ => ⟨hp, or_iff_not_imp_left.2 fun hfree => ?_⟩, fun _ => rfl⟩
    obtain ⟨e, he⟩ := FileTree.exists_entry_of_hasPath hthere
    rw [walk_names_filePath hf] at he
    have happears := (changes_folder hf hu).appears (not_not.1 hfree)
    cases e with
    | folder => exact happears.1 he
    | file content => exact (happears.2 content he).elim
  | written hf hu hnew hw =>
    refine ⟨nofun, fun ⟨hp, hthere⟩ => ?_⟩
    have hnone := hw.at?_eq_none (hnew hp)
    rw [walk_names_filePath hf] at hnone
    rcases hthere with hthere | hway
    · exact absurd ((changes_folder hf hu).none_was hnone) hthere
    · rw [folderNames, ← names_packageFolder hf] at hway
      rw [(FileTree.HasFolder.of_createFolders hu).folder_onTheWay hway] at hnone
      cases hnone

/-- A class is written to the folder of its package. -/
theorem exists_folder {w : WrittenClass} (h : g.Wrote schema c t (.ok w) u) :
    ∃ folder, packageFolder (g.root (g.placement c)) (g.packageOf schema c) = .ok folder ∧
      w.path = folder.join c.fileName := by
  cases h with
  | skipped hf _ _ _ => exact ⟨_, hf, (filePath_eq hf).symm⟩
  | written hf _ _ _ => exact ⟨_, hf, (filePath_eq hf).symm⟩

end Wrote

/-! ### Runs -/

variable {classes rest : List SupportClass} {ws : List WrittenClass} {w : WrittenClass}

/-- The first failure ends a run. -/
theorem writeEach_of_error {e : GenerateError} (h : g.write c schema t = (.error e, u)) :
    g.writeEach schema (c :: rest) t = (.error e, u) := by
  simp only [writeEach, h]

/-- After a class that was dealt with, the run goes on from the tree it left. -/
theorem writeEach_snd_of_ok (h : g.write c schema t = (.ok w, u)) :
    (g.writeEach schema (c :: rest) t).2 = (g.writeEach schema rest u).2 := by
  simp only [writeEach, h]
  rcases g.writeEach schema rest u with ⟨e | ws, v⟩ <;> rfl

/-- A run that succeeds deals with its first class and then succeeds with the others. -/
theorem exists_of_writeEach_eq_ok {v : FileTree}
    (h : g.writeEach schema (c :: rest) t = (.ok ws, v)) :
    ∃ w u ws', g.write c schema t = (.ok w, u) ∧ g.writeEach schema rest u = (.ok ws', v) ∧
      ws = w :: ws' := by
  rcases hw : g.write c schema t with ⟨e | w, u⟩
  · rw [writeEach_of_error hw] at h
    cases h
  · simp only [writeEach, hw] at h
    rcases hr : g.writeEach schema rest u with ⟨e | ws', v'⟩
    · rw [hr] at h
      cases h
    · rw [hr] at h
      cases h
      exact ⟨w, u, ws', rfl, hr, rfl⟩

/-- What every step keeps a run keeps, however it ends. -/
theorem writeEach_induction {P : FileTree → FileTree → Prop} (hrefl : ∀ t, P t t)
    (htrans : ∀ t u v, P t u → P u v → P t v)
    (hstep : ∀ c ∈ classes, ∀ t, P t (g.write c schema t).2) (t : FileTree) :
    P t (g.writeEach schema classes t).2 := by
  induction classes generalizing t with
  | nil => exact hrefl t
  | cons c rest ih =>
    have hc := hstep c List.mem_cons_self t
    have hrest := ih fun d hd => hstep d (List.mem_cons_of_mem _ hd)
    rcases hw : g.write c schema t with ⟨e | w, u⟩
    · rw [writeEach_of_error hw]
      rwa [hw] at hc
    · rw [writeEach_snd_of_ok hw]
      rw [hw] at hc
      exact htrans _ _ _ hc (hrest u)

/-- **A run changes** folders on the way to the files of its classes and these
files, whose content it replaces only for classes that are generated. -/
theorem changes_writeEach (g : Generator) (schema : Schema) (classes : List SupportClass)
    (t : FileTree) :
    t.Changes (fun a => ∃ c ∈ classes, Address.OnTheWay [] (g.folderNames schema c) a)
      (fun a => ∃ c ∈ classes, a = g.address schema c)
      (fun a => ∃ c ∈ classes, a = g.address schema c ∧ g.placement c = .generated)
      (g.writeEach schema classes t).2 := by
  refine writeEach_induction .refl (fun _ _ _ => .trans) (fun c hc t => ?_) t
  exact (wrote_write g schema c t).changes.mono (fun _ ha => ⟨c, hc, ha⟩) (fun _ ha => ⟨c, hc, ha⟩)
    (fun _ ha => ⟨c, hc, ha⟩)

/-- **A source that is in place stays in place** in every run. -/
theorem holds_source_writeEach (classes : List SupportClass)
    (hd : t.at? (g.address schema d) = some (.file (g.sourceBytes schema d))) :
    (g.writeEach schema classes t).2.at? (g.address schema d) =
      some (.file (g.sourceBytes schema d)) :=
  writeEach_induction
    (P := fun t u => t.at? (g.address schema d) = some (.file (g.sourceBytes schema d)) →
      u.at? (g.address schema d) = some (.file (g.sourceBytes schema d)))
    (fun _ h => h) (fun _ _ _ h h' h'' => h' (h h''))
    (fun c _ t => (wrote_write g schema c t).holds_source) t hd

/-- **The turn of a class** in a run that succeeds: what was written before it,
the step, and what is written after it. -/
theorem writeEach_turn {v : FileTree} (h : g.writeEach schema classes t = (.ok ws, v)) {i : Nat}
    (hi : ws[i]? = some w) :
    ∃ c u, classes[i]? = some c ∧
      g.write c schema (g.writeEach schema (classes.take i) t).2 = (.ok w, u) ∧
      v = (g.writeEach schema (classes.drop (i + 1)) u).2 := by
  induction classes generalizing t ws i with
  | nil =>
    cases h
    cases hi
  | cons c rest ih =>
    obtain ⟨w', u, ws', hw, hr, rfl⟩ := exists_of_writeEach_eq_ok h
    cases i with
    | zero =>
      obtain rfl := Option.some.inj hi
      exact ⟨c, u, rfl, hw, (congrArg Prod.snd hr).symm⟩
    | succ i =>
      obtain ⟨d, u', hd, hwd, hv⟩ := ih hr hi
      refine ⟨d, u', hd, ?_, hv⟩
      rwa [List.take_succ_cons, writeEach_snd_of_ok hw]

/-- Every class is reported, in order, with its path. -/
theorem reported_writeEach (h : g.writeEach schema classes t = (.ok ws, u)) :
    ws.map (fun w => (w.supportClass, w.path)) =
      classes.map fun c => (c, g.filePath schema c) := by
  induction classes generalizing t ws with
  | nil =>
    cases h
    rfl
  | cons c rest ih =>
    obtain ⟨w, v, ws', hw, hr, rfl⟩ := exists_of_writeEach_eq_ok h
    have hstep := wrote_write g schema c t
    rw [hw] at hstep
    obtain ⟨hclass, hpath⟩ := hstep.reported
    rw [List.map_cons, List.map_cons, ih hr, hclass, hpath]

/-- What is reported was written in its turn, and what follows is the rest of the
run. -/
theorem exists_wrote_of_mem {v : FileTree} (h : g.writeEach schema classes t = (.ok ws, v))
    (hw : w ∈ ws) : ∃ before after rest, g.Wrote schema w.supportClass before (.ok w) after ∧
      v = (g.writeEach schema rest after).2 := by
  obtain ⟨i, hi⟩ := List.mem_iff_getElem?.1 hw
  obtain ⟨c, u, _, hturn, hv⟩ := writeEach_turn h hi
  have hstep := wrote_write g schema c (g.writeEach schema (classes.take i) t).2
  rw [hturn] at hstep
  rw [hstep.reported.1]
  exact ⟨_, u, _, hstep, hv⟩

/-- **What was written is read at the end**, so no class that came later has
touched it. -/
theorem readBytes_of_written {v : FileTree} (h : g.writeEach schema classes t = (.ok ws, v))
    (hw : w ∈ ws) (hs : w.status = .written) :
    v.readBytes w.path = .ok (g.sourceBytes schema w.supportClass) := by
  obtain ⟨_, u, rest, hstep, rfl⟩ := exists_wrote_of_mem h hw
  exact hstep.readBytes hs (fun _ hb => (changes_writeEach g schema rest u).folder_kept hb)
    (holds_source_writeEach rest (hstep.at?_address hs))

end Generator

end ResourceSchema
