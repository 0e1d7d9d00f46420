/-
# What is there stays there

A step makes folders and files that are missing, and may replace the content of
files (`FileTree.Changes`).  So names that can be followed can be followed
afterwards (`FileTree.Leads.of_changes`), a path that leads to something still
does, and a folder that is there is there.  A file can be written again by the
same path unless a folder has appeared in its place
(`FileTree.Writable.of_changes`).

What is there need not be done twice.  A path whose folders were created has its
folder (`FileTree.HasFolder`), and creating them again changes nothing; nor does
putting at an address what it holds already (`FileTree.put_eq_self`).
-/

import ResourceSchema.Proofs.Disk.Change

namespace ResourceSchema

namespace Address

variable {here a : Address} {name : String} {names : List String}

/-- The first of the addresses that names lead through is the one they start at. -/
theorem OnTheWay.eq_or_of_cons (h : OnTheWay here (name :: names) a) :
    a = here ∨ OnTheWay (step here name) names a := by
  obtain ⟨front, hfront, rfl⟩ := h
  cases front with
  | nil => exact .inl rfl
  | cons first front =>
    obtain ⟨rfl, hrest⟩ := List.cons_prefix_cons.1 hfront
    exact .inr ⟨front, hrest, rfl⟩

end Address

namespace FileTree

variable {folder file replace : Address → Prop} {t u : FileTree} {here a b : Address}
  {name : String} {names front : List String} {path : Path}

/-! ### What can be followed -/

/-- **Names that can be followed can be followed afterwards.** -/
theorem Leads.of_changes (h : t.Leads here names a) (hc : t.Changes folder file replace u) :
    u.Leads here names a := by
  induction h with
  | here => exact .here
  | up _ ih => exact .up ih
  | into hn hs hf _ ih => exact .into hn hs (hc.folder_kept hf) ih
  | file hn hs hf =>
    obtain ⟨⟨_, hf'⟩, -⟩ := hc.file_kept hf
    exact .file hn hs hf'

/-- A path that leads somewhere still does when nothing is lost. -/
theorem hasPath_of_changes (h : t.hasPath path = true) (hc : t.Changes folder file replace u) :
    u.hasPath path = true := by
  obtain ⟨a, ha⟩ := hasPath_eq_true_iff.1 h
  obtain ⟨hcheck, hleads, hfolder⟩ := locate_eq_ok_iff.1 ha
  have ha' : u.locate path = .ok a := locate_eq_ok_iff.2
    ⟨hcheck, hleads.of_changes hc, fun hasks => hc.folder_kept (hfolder hasks)⟩
  exact hasPath_eq_true_iff.2 ⟨a, ha'⟩

/-- Names that lead from a folder to a folder lead through nothing but folders. -/
theorem Leads.folder_onTheWay (h : t.Leads here names a) (hhere : t.at? here = some .folder)
    (ha : t.at? a = some .folder) (hb : Address.OnTheWay here names b) :
    t.at? b = some .folder := by
  induction h with
  | here =>
    obtain ⟨front, hfront, rfl⟩ := hb
    obtain rfl := List.prefix_nil.1 hfront
    exact hhere
  | up _ ih =>
    rcases hb.eq_or_of_cons with rfl | hb
    · exact hhere
    · exact ih (at?_dropLast hhere) ha hb
  | into hn _ hf _ ih =>
    rcases hb.eq_or_of_cons with rfl | hb
    · exact hhere
    · rw [Address.step_of_ne hn] at hb
      exact ih hf ha hb
  | file _ _ hf => cases hf.symm.trans ha

/-! ### Folders -/

/-- The names of a path lead to a folder. -/
structure HasFolder (t : FileTree) (path : Path) : Prop where
  check : path = "" ∨ path.check = .ok ()
  leads : t.Leads [] path.names (Address.walk [] path.names)
  folder : t.at? (Address.walk [] path.names) = some .folder

/-- **Folders that were created can be followed.** -/
theorem leads_createAlong {dotted : Bool} (hhere : t.at? here = some .folder)
    (h : t.createAlong dotted here names = (.ok (), u)) :
    u.Leads here names (Address.walk here names) ∧
      u.at? (Address.walk here names) = some .folder := by
  induction names generalizing t here with
  | nil =>
    cases h
    exact ⟨.here, hhere⟩
  | cons name rest ih =>
    rw [createAlong] at h
    rw [Address.walk_cons]
    by_cases hn : name = ".."
    · rw [if_pos hn] at h
      rw [hn, Address.step_parent]
      obtain ⟨hleads, hfolder⟩ := ih (at?_dropLast hhere) h
      exact ⟨.up hleads, hfolder⟩
    · rw [if_neg hn] at h
      rw [Address.step_of_ne hn]
      by_cases hs : maxNameBytes < name.utf8ByteSize
      · rw [if_pos hs] at h
        cases h
      · rw [if_neg hs] at h
        -- The folder of the name is there already or is created now.
        obtain ⟨v, hmade, hv⟩ : ∃ v : FileTree, v.at? (here ++ [name]) = some .folder ∧
            v.createAlong dotted (here ++ [name]) rest = (.ok (), u) := by
          rcases hentry : t.at? (here ++ [name]) with _ | (_ | content) <;> rw [hentry] at h
          · dsimp only at h
            split at h
            · cases h
            · refine ⟨_, ?_, h⟩
              rw [at?_put t (admits_below hhere hentry), if_pos rfl]
          · exact ⟨t, hentry, h⟩
          · cases h
        obtain ⟨hleads, hfolder⟩ := ih hmade hv
        have hchanges := changes_createAlong dotted rest hmade
        rw [hv] at hchanges
        exact ⟨.into hn hs (hchanges.folder_kept hmade) hleads, hfolder⟩

/-- Where names lead to a folder, creating the folders along them does nothing. -/
theorem Leads.createAlong_eq (h : t.Leads here names a) (ha : t.at? a = some .folder)
    (dotted : Bool) : t.createAlong dotted here names = (.ok (), t) := by
  induction h with
  | here => rfl
  | up _ ih => rw [createAlong, if_pos rfl, ih ha]
  | into hn hs hf _ ih => rw [createAlong, if_neg hn, if_neg hs, hf, ih ha]
  | file _ _ hf => cases hf.symm.trans ha

namespace HasFolder

/-- **A folder that was created is there.** -/
theorem of_createFolders (h : t.createFolders path = (.ok (), u)) : u.HasFolder path := by
  unfold createFolders at h
  by_cases hempty : path = ""
  · subst hempty
    exact ⟨.inl rfl, .here, u.at?_nil⟩
  · rw [if_neg hempty] at h
    rcases hcheck : path.check with e | ⟨⟩
    · rw [hcheck] at h
      cases h
    · rw [hcheck] at h
      obtain ⟨hleads, hfolder⟩ := leads_createAlong t.at?_nil h
      exact ⟨.inr hcheck, hleads, hfolder⟩

/-- **A folder that is there need not be created.** -/
theorem createFolders_eq (h : t.HasFolder path) : t.createFolders path = (.ok (), t) := by
  unfold createFolders
  rcases h.check with hempty | hcheck
  · rw [if_pos hempty]
  · split
    · rfl
    · rw [hcheck]
      exact h.leads.createAlong_eq h.folder path.endsWithDot

/-- A folder that was created stands when nothing is lost. -/
theorem of_changes (h : t.HasFolder path) (hc : t.Changes folder file replace u) :
    u.HasFolder path :=
  ⟨h.check, h.leads.of_changes hc, hc.folder_kept h.folder⟩

/-- What lies on the way to a folder that was created is a folder. -/
theorem folder_onTheWay (h : t.HasFolder path) (ha : Address.OnTheWay [] path.names a) :
    t.at? a = some .folder :=
  h.leads.folder_onTheWay t.at?_nil h.folder ha

end HasFolder

/-! ### Files -/

/-- **A file can be written again** unless a folder has appeared in its place. -/
theorem Writable.of_changes (h : t.Writable path front name)
    (hc : t.Changes folder file replace u)
    (hfree : u.at? (Address.walk [] path.names) ≠ some .folder) : u.Writable path front name :=
  { h with
    leads := h.leads.of_changes hc
    folder := hc.folder_kept h.folder
    no_folder := hfree }

/-- A file that can be written is written at the address its names walk to. -/
theorem Writable.fileAddress_eq (h : t.Writable path front name) :
    t.fileAddress path = .ok (Address.walk [] path.names) := by
  have hlast : path.names.getLast? = some name := by
    rw [h.names_eq, List.getLast?_concat]
  have hfront : path.names.dropLast = front := by
    rw [h.names_eq, List.dropLast_concat]
  have hfree : t.at? (Address.walk [] front ++ [name]) ≠ some .folder := h.walk_eq ▸ h.no_folder
  unfold fileAddress
  simp only [h.check, hlast, hfront, follow_eq_ok_iff.2 h.leads, isFolderAt, h.folder, hfree,
    h.ne_parent, h.short, h.asks_nothing, h.walk_eq, bind, Except.bind, pure, Except.pure,
    decide_true, decide_false, Bool.not_true, Bool.or_self, Bool.false_eq_true, if_false]

/-- **Putting what is there changes nothing.** -/
theorem put_eq_self {e : Entry} (ha : t.Admits a) (h : t.at? a = some e) : t.put a e = t := by
  refine ext_at? fun b => ?_
  rw [at?_put t ha]
  split
  · rename_i hab
    rw [← hab, h]
  · rfl

end FileTree

end ResourceSchema
