/-
# What a step may change on the disk

`Change` says what may become of a single address: it stays as it is, a folder
or a file appears where nothing was, or a file's content is replaced.  Nothing
else ever happens to an address here, so whatever is there stays there, and a
folder stays a folder.

`FileTree.Changes` says so of all addresses of two trees, with the addresses at
which each may happen.  It holds of every step (`FileTree.changes_createFolders`,
`FileTree.Writable.changes_put`) and of steps one after another
(`FileTree.Changes.trans`).
-/

import ResourceSchema.Proofs.Disk.Walk

namespace ResourceSchema

/-- What may become of what is at an address, where a folder may appear under
one condition, a file under another, and content be replaced under a third. -/
inductive Change (folder file replace : Prop) : Option Entry → Option Entry → Prop
  | same (e : Option Entry) : Change folder file replace e e
  | newFolder (h : folder) : Change folder file replace none (some .folder)
  | newFile (h : file) (content : ByteArray) : Change folder file replace none (some (.file content))
  | replaced (h : replace) (old new : ByteArray) :
      Change folder file replace (some (.file old)) (some (.file new))

namespace Change

variable {folder file replace : Prop} {before middle after : Option Entry}

/-- Two changes of one entry, one after the other, are one change. -/
theorem trans (h : Change folder file replace before middle)
    (h' : Change folder file replace middle after) : Change folder file replace before after := by
  cases h with
  | same => exact h'
  | newFolder h => cases h' with
    | same => exact .newFolder h
  | newFile h _ => cases h' with
    | same => exact .newFile h _
    | replaced _ _ _ => exact .newFile h _
  | replaced h _ _ => cases h' with
    | same => exact .replaced h _ _
    | replaced _ _ _ => exact .replaced h _ _

/-- What is allowed may be widened. -/
theorem mono {folder' file' replace' : Prop} (h : Change folder file replace before after)
    (hfolder : folder → folder') (hfile : file → file') (hreplace : replace → replace') :
    Change folder' file' replace' before after := by
  cases h with
  | same => exact .same _
  | newFolder h => exact .newFolder (hfolder h)
  | newFile h _ => exact .newFile (hfile h) _
  | replaced h _ _ => exact .replaced (hreplace h) _ _

end Change

namespace FileTree

/-- Every address of a tree changes at most so, where a folder or a file may
appear only at some addresses and content be replaced only at some. -/
def Changes (folder file replace : Address → Prop) (t u : FileTree) : Prop :=
  ∀ a, Change (folder a) (file a) (replace a) (t.at? a) (u.at? a)

/-- At no address. -/
def nowhere (_ : Address) : Prop := False

variable {folder file replace : Address → Prop} {t u v : FileTree} {a here : Address}

namespace Changes

/-- A tree that stays as it is has changed as allowed. -/
theorem refl (t : FileTree) : t.Changes folder file replace t := fun _ => .same _

/-- Two changes of a tree, one after the other, are one change. -/
theorem trans (h : t.Changes folder file replace u) (h' : u.Changes folder file replace v) :
    t.Changes folder file replace v :=
  fun a => (h a).trans (h' a)

/-- What is allowed may be widened, address by address. -/
theorem mono {folder' file' replace' : Address → Prop} (h : t.Changes folder file replace u)
    (hfolder : ∀ a, folder a → folder' a) (hfile : ∀ a, file a → file' a)
    (hreplace : ∀ a, replace a → replace' a) : t.Changes folder' file' replace' u :=
  fun a => (h a).mono (hfolder a) (hfile a) (hreplace a)

/-- **A folder stays.** -/
theorem folder_kept (h : t.Changes folder file replace u) (ha : t.at? a = some .folder) :
    u.at? a = some .folder := by
  have hchange := h a
  rw [ha] at hchange
  generalize hu : u.at? a = after at hchange
  cases hchange
  rfl

/-- **A file stays a file**, and keeps its content where none may be replaced. -/
theorem file_kept (h : t.Changes folder file replace u) {content : ByteArray}
    (ha : t.at? a = some (.file content)) :
    (∃ content', u.at? a = some (.file content')) ∧
      (¬ replace a → u.at? a = some (.file content)) := by
  have hchange := h a
  rw [ha] at hchange
  generalize hu : u.at? a = after at hchange
  cases hchange with
  | same => exact ⟨⟨content, rfl⟩, fun _ => rfl⟩
  | replaced hr _ new => exact ⟨⟨new, rfl⟩, fun hn => absurd hr hn⟩

/-- What appears does so where it may. -/
theorem appears (h : t.Changes folder file replace u) (ha : t.at? a = none) :
    (u.at? a = some .folder → folder a) ∧
      ∀ content, u.at? a = some (.file content) → file a := by
  have hchange := h a
  rw [ha] at hchange
  generalize hu : u.at? a = after at hchange
  cases hchange with
  | same => exact ⟨nofun, nofun⟩
  | newFolder hf => exact ⟨fun _ => hf, nofun⟩
  | newFile hf _ => exact ⟨nofun, fun _ _ => hf⟩

/-- Where nothing is, nothing was. -/
theorem none_was (h : t.Changes folder file replace u) (hu : u.at? a = none) : t.at? a = none := by
  have hchange := h a
  rw [hu] at hchange
  generalize ht : t.at? a = before at hchange
  cases hchange
  rfl

/-- Where no file is made or replaced, a file was there before. -/
theorem file_was (h : t.Changes folder nowhere nowhere u) {content : ByteArray}
    (hu : u.at? a = some (.file content)) : t.at? a = some (.file content) := by
  have hchange := h a
  rw [hu] at hchange
  generalize ht : t.at? a = before at hchange
  cases hchange with
  | same => rfl
  | newFile h _ => exact h.elim
  | replaced h _ _ => exact h.elim

/-- Nothing happens where nothing may. -/
theorem at?_eq (h : t.Changes folder file replace u) (hfolder : ¬ folder a) (hfile : ¬ file a)
    (hreplace : ¬ replace a) : u.at? a = t.at? a := by
  have hchange := h a
  generalize ht : t.at? a = before at hchange
  generalize hu : u.at? a = after at hchange
  cases hchange with
  | same => rfl
  | newFolder hf => exact absurd hf hfolder
  | newFile hf _ => exact absurd hf hfile
  | replaced hr _ _ => exact absurd hr hreplace

end Changes

/-! ### Creating folders -/

/-- Something can be put where a folder has nothing of that name. -/
theorem admits_below {name : String} (hhere : t.at? here = some .folder)
    (hfree : t.at? (here ++ [name]) = none) : t.Admits (here ++ [name]) := by
  refine ⟨List.concat_ne_nil _ _, ?_, ?_⟩
  · rw [List.dropLast_concat]
    exact hhere
  · rw [hfree]
    exact nofun

/-- **Creating folders along names** makes folders the names lead through, and
nothing else. -/
theorem changes_createAlong (dotted : Bool) (names : List String)
    (hhere : t.at? here = some .folder) :
    t.Changes (Address.OnTheWay here names) nowhere nowhere
      (t.createAlong dotted here names).2 := by
  induction names generalizing t here with
  | nil => exact Changes.refl t
  | cons name rest ih =>
    have hcons : ∀ a, Address.OnTheWay (Address.step here name) rest a →
        Address.OnTheWay here (name :: rest) a := fun a h => h.cons
    rw [createAlong]
    split
    · rename_i hn
      rw [hn, Address.step_parent] at hcons
      rw [hn]
      exact (ih (at?_dropLast hhere)).mono hcons (fun _ h => h) (fun _ h => h)
    · rename_i hn
      rw [Address.step_of_ne hn] at hcons
      split
      · exact Changes.refl t
      · split
        · rename_i hf
          exact (ih hf).mono hcons (fun _ h => h) (fun _ h => h)
        · exact Changes.refl t
        · rename_i hfree
          split
          · exact Changes.refl t
          · -- Nothing was there, so the step adds a folder and changes nothing else.
            have hadmits := admits_below hhere hfree
            have hput := at?_put t hadmits .folder
            have hmade : (t.put (here ++ [name]) .folder).at? (here ++ [name]) = some .folder := by
              rw [hput, if_pos rfl]
            refine Changes.trans (fun a => ?_) ((ih hmade).mono hcons (fun _ h => h) (fun _ h => h))
            rw [hput]
            split
            · rename_i heq
              rw [← heq, hfree]
              exact .newFolder (hcons _ (Address.OnTheWay.start _ _))
            · exact .same _

/-- **Creating the folders of a path** makes folders on the way along its names, and changes
nothing else. -/
theorem changes_createFolders (t : FileTree) (path : Path) :
    t.Changes (Address.OnTheWay [] path.names) nowhere nowhere (t.createFolders path).2 := by
  unfold createFolders
  split
  · exact Changes.refl t
  · split
    · exact Changes.refl t
    · exact changes_createAlong path.endsWithDot path.names t.at?_nil

/-! ### Writing a file -/

/-- **Writing a file** changes its address, and replaces content only if there
was a file. -/
theorem Writable.changes_put {path : Path} {front : List String} {name : String}
    (h : t.Writable path front name) (content : ByteArray) :
    t.Changes nowhere (· = Address.walk [] path.names)
      (fun a => a = Address.walk [] path.names ∧ t.at? a ≠ none)
      (t.put (Address.walk [] path.names) (.file content)) := by
  intro a
  rw [at?_put t h.admits]
  split
  · rename_i heq
    rw [← heq]
    rcases hentry : t.at? (Address.walk [] path.names) with _ | (_ | old)
    · exact .newFile rfl content
    · exact absurd hentry h.no_folder
    · have hold : t.at? (Address.walk [] path.names) ≠ none := by
        rw [hentry]
        exact nofun
      exact .replaced ⟨rfl, hold⟩ old content
  · exact .same _

end FileTree

end ResourceSchema
