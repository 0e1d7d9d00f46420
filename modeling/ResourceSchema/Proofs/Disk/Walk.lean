/-
# Where names lead

Following a path looks at what is there at every name.  As there are no links,
the address it comes to depends on the names alone: `Address.walk` adds a name
to the address and takes the last one away at `..`.

`FileTree.Leads` says what it takes that names can be followed: whatever lies on
the way is a folder, the end may be a file.  It is what `FileTree.follow` finds
(`FileTree.follow_eq_ok_iff`).  `FileTree.Writable` is what it takes that a file
can be written by a path; it can be read there again as long as no folder goes
(`FileTree.Writable.readBytes_of_folders`).
-/

import ResourceSchema.Disk.Access
import ResourceSchema.Proofs.Results

namespace ResourceSchema

namespace Address

/-- Where one name leads from an address. -/
def step (here : Address) (name : String) : Address :=
  if name = ".." then here.dropLast else here ++ [name]

/-- Where names lead from an address, whatever is there. -/
def walk (here : Address) (names : List String) : Address := names.foldl step here

/-- The addresses that names lead through, the first and the last included. -/
def OnTheWay (here : Address) (names : List String) (a : Address) : Prop :=
  ∃ front, front <+: names ∧ walk here front = a

variable {here a : Address} {name : String} {names : List String}

@[simp] theorem step_parent (here : Address) : step here ".." = here.dropLast := rfl

/-- A name that is not `..` leads one step down. -/
theorem step_of_ne (h : name ≠ "..") : step here name = here ++ [name] := if_neg h

@[simp] theorem walk_nil (here : Address) : walk here [] = here := rfl

theorem walk_cons (here : Address) (name : String) (names : List String) :
    walk here (name :: names) = walk (step here name) names := rfl

/-- Walking along names and then along others is walking along both. -/
theorem walk_append (here : Address) (front back : List String) :
    walk here (front ++ back) = walk (walk here front) back :=
  List.foldl_append

/-- The last step of a walk is down, unless its name is `..`. -/
theorem walk_concat_of_ne (h : name ≠ "..") :
    walk here (names ++ [name]) = walk here names ++ [name] := by
  rw [walk_append, walk_cons, walk_nil, step_of_ne h]

/-- Names without `..` are added one after another. -/
theorem walk_of_not_mem (h : ".." ∉ names) : walk here names = here ++ names := by
  induction names generalizing here with
  | nil => rw [walk_nil, List.append_nil]
  | cons name rest ih =>
    obtain ⟨hname, hrest⟩ := not_or.1 (mt List.mem_cons.2 h)
    rw [walk_cons, step_of_ne (Ne.symm hname), ih hrest, List.append_assoc, List.singleton_append]

/-- A walk starts where it starts. -/
theorem OnTheWay.start (here : Address) (names : List String) : OnTheWay here names here :=
  ⟨[], List.nil_prefix, rfl⟩

/-- What is on the way from the second place on is on the way. -/
theorem OnTheWay.cons (h : OnTheWay (step here name) names a) : OnTheWay here (name :: names) a := by
  obtain ⟨front, hfront, rfl⟩ := h
  exact ⟨name :: front, List.cons_prefix_cons.2 ⟨rfl, hfront⟩, rfl⟩

/-- Names without `..` lead through the addresses that their own begins with. -/
theorem OnTheWay.isPrefix (h : OnTheWay [] names a) (hnames : ".." ∉ names) : a <+: names := by
  obtain ⟨front, hfront, rfl⟩ := h
  have hdots : ".." ∉ front := fun hmem => hnames (hfront.subset hmem)
  rwa [walk_of_not_mem hdots, List.nil_append]

end Address

namespace FileTree

/-- Names can be followed from a folder to an address. -/
inductive Leads (t : FileTree) : Address → List String → Address → Prop
  | here {here : Address} : Leads t here [] here
  | up {here a : Address} {rest : List String} (h : Leads t here.dropLast rest a) :
      Leads t here (".." :: rest) a
  | into {here a : Address} {name : String} {rest : List String} (hn : name ≠ "..")
      (hs : ¬ maxNameBytes < name.utf8ByteSize) (hf : t.at? (here ++ [name]) = some .folder)
      (h : Leads t (here ++ [name]) rest a) : Leads t here (name :: rest) a
  | file {here : Address} {name : String} {content : ByteArray} (hn : name ≠ "..")
      (hs : ¬ maxNameBytes < name.utf8ByteSize)
      (hf : t.at? (here ++ [name]) = some (.file content)) : Leads t here [name] (here ++ [name])

variable {t u : FileTree} {here a : Address} {name : String} {names : List String} {path : Path}

/-- `..` leads back to the folder above. -/
theorem follow_parent (t : FileTree) (here : Address) (rest : List String) :
    t.follow here (".." :: rest) = t.follow here.dropLast rest := by
  rw [follow, if_pos rfl]

/-- The name of a folder leads into it. -/
theorem follow_into (hn : name ≠ "..") (hs : ¬ maxNameBytes < name.utf8ByteSize)
    (hf : t.at? (here ++ [name]) = some .folder) :
    t.follow here (name :: names) = t.follow (here ++ [name]) names := by
  rw [follow, if_neg hn, if_neg hs, hf]

/-- The name of a file leads to it, as the last of a path. -/
theorem follow_file {content : ByteArray} (hn : name ≠ "..")
    (hs : ¬ maxNameBytes < name.utf8ByteSize)
    (hf : t.at? (here ++ [name]) = some (.file content)) :
    t.follow here [name] = .ok (here ++ [name]) := by
  rw [follow, if_neg hn, if_neg hs, hf]
  rfl

/-- What a path is followed to, its names lead to. -/
theorem Leads.of_follow (h : t.follow here names = .ok a) : t.Leads here names a := by
  induction names generalizing here with
  | nil =>
    obtain rfl := Except.ok.inj h
    exact .here
  | cons name rest ih =>
    rw [follow] at h
    by_cases hn : name = ".."
    · rw [if_pos hn] at h
      rw [hn]
      exact .up (ih h)
    · rw [if_neg hn] at h
      obtain ⟨hs, h⟩ := of_guarded_eq_ok h
      rcases hf : t.at? (here ++ [name]) with _ | (_ | content) <;> rw [hf] at h
      · cases h
      · exact .into hn hs hf (ih h)
      · by_cases hrest : rest = []
        · rw [hrest] at h ⊢
          obtain rfl := Except.ok.inj h
          exact .file hn hs hf
        · simp only [if_neg hrest, reduceCtorEq] at h

/-- A path is followed to what its names lead to. -/
theorem Leads.follow (h : t.Leads here names a) : t.follow here names = .ok a := by
  induction h with
  | here => rfl
  | up _ ih => rw [follow_parent, ih]
  | into hn hs hf _ ih => rw [follow_into hn hs hf, ih]
  | file hn hs hf => exact follow_file hn hs hf

/-- **Following names finds where they lead.** -/
theorem follow_eq_ok_iff : t.follow here names = .ok a ↔ t.Leads here names a :=
  ⟨.of_follow, Leads.follow⟩

/-- **The end depends on the names alone.** -/
theorem Leads.eq_walk (h : t.Leads here names a) : a = Address.walk here names := by
  induction h with
  | here => rfl
  | up _ ih => rw [ih, Address.walk_cons, Address.step_parent]
  | into hn _ _ _ ih => rw [ih, Address.walk_cons, Address.step_of_ne hn]
  | file hn _ _ => rw [Address.walk_cons, Address.step_of_ne hn, Address.walk_nil]

/-- What lies above a folder is a folder. -/
theorem at?_dropLast (h : t.at? here = some .folder) : t.at? here.dropLast = some .folder := by
  rcases List.eq_nil_or_concat here with rfl | ⟨above, name, rfl⟩
  · exact h
  · rw [List.concat_eq_append] at h ⊢
    rw [List.dropLast_concat]
    exact t.folder_of_at? h

/-- There is something where names lead from a folder. -/
theorem Leads.exists_entry (h : t.Leads here names a) (hhere : t.at? here = some .folder) :
    ∃ e, t.at? a = some e := by
  induction h with
  | here => exact ⟨_, hhere⟩
  | up _ ih => exact ih (at?_dropLast hhere)
  | into _ _ hf _ ih => exact ih hf
  | file _ _ hf => exact ⟨_, hf⟩

/-- Names that lead to a folder can be gone on from. -/
theorem Leads.append {b : Address} {more : List String} (h : t.Leads here names a)
    (ha : t.at? a = some .folder) (hb : t.Leads a more b) : t.Leads here (names ++ more) b := by
  induction h with
  | here => exact hb
  | up _ ih => exact .up (ih ha hb)
  | into hn hs hf _ ih => exact .into hn hs hf (ih ha hb)
  | file _ _ hf => cases hf.symm.trans ha

/-- Where the folders of one tree are folders of another, names that lead to a
folder lead there too. -/
theorem Leads.of_folders (h : t.Leads here names a) (ha : t.at? a = some .folder)
    (hkeep : ∀ b, t.at? b = some .folder → u.at? b = some .folder) : u.Leads here names a := by
  induction h with
  | here => exact .here
  | up _ ih => exact .up (ih ha)
  | into hn hs hf _ ih => exact .into hn hs (hkeep _ hf) (ih ha)
  | file _ _ hf => cases hf.symm.trans ha

/-- The test for a folder says what is at the address. -/
theorem isFolderAt_iff : t.isFolderAt a = true ↔ t.at? a = some .folder := decide_eq_true_iff

/-! ### The operations by path -/

/-- **What a path leads to** is where its names lead, and a folder if the path asks
for one. -/
theorem locate_eq_ok_iff : t.locate path = .ok a ↔ path.check = .ok () ∧
    t.Leads [] path.names a ∧ (path.asksForFolder = true → t.at? a = some .folder) := by
  unfold locate
  constructor
  · intro h
    obtain ⟨⟨⟩, hc, h⟩ := exists_of_bind_eq_ok h
    obtain ⟨b, hf, h⟩ := exists_of_bind_eq_ok h
    obtain ⟨hguard, h⟩ := of_guarded_eq_ok h
    obtain rfl := Except.ok.inj h
    refine ⟨hc, follow_eq_ok_iff.1 hf, fun hasks => ?_⟩
    rw [hasks, Bool.true_and, Bool.not_eq_true', Bool.not_eq_false, isFolderAt_iff] at hguard
    exact hguard
  · rintro ⟨hc, hleads, hfolder⟩
    have hguard : ¬ (path.asksForFolder && !t.isFolderAt a) = true := by
      intro h
      obtain ⟨hasks, hmissing⟩ := Bool.and_eq_true_iff.1 h
      rw [isFolderAt_iff.2 (hfolder hasks)] at hmissing
      cases hmissing
    have hfollow := follow_eq_ok_iff.2 hleads
    simp only [bind, Except.bind, hc, hfollow, if_neg hguard, pure, Except.pure]

/-- A path leads to something exactly if it has an address. -/
theorem hasPath_eq_true_iff : t.hasPath path = true ↔ ∃ a, t.locate path = .ok a := by
  unfold hasPath
  rcases t.locate path with e | a
  · exact ⟨nofun, nofun⟩
  · exact ⟨fun _ => ⟨a, rfl⟩, fun _ => rfl⟩

/-- There is something at the address of a path that leads to anything. -/
theorem exists_entry_of_hasPath (h : t.hasPath path = true) :
    ∃ e, t.at? (Address.walk [] path.names) = some e := by
  obtain ⟨a, ha⟩ := hasPath_eq_true_iff.1 h
  obtain ⟨-, hleads, -⟩ := locate_eq_ok_iff.1 ha
  rw [← hleads.eq_walk]
  exact hleads.exists_entry t.at?_nil

/-- A file can be written by a path: its names lead to a folder that is there,
the last one names something in it, and no folder is in its place. -/
structure Writable (t : FileTree) (path : Path) (front : List String) (name : String) : Prop where
  check : path.check = .ok ()
  asks_nothing : path.asksForFolder = false
  names_eq : path.names = front ++ [name]
  ne_parent : name ≠ ".."
  short : ¬ maxNameBytes < name.utf8ByteSize
  leads : t.Leads [] front (Address.walk [] front)
  folder : t.at? (Address.walk [] front) = some .folder
  no_folder : t.at? (Address.walk [] path.names) ≠ some .folder

/-- **Where a file is written.** -/
theorem exists_writable_of_fileAddress (h : t.fileAddress path = .ok a) :
    a = Address.walk [] path.names ∧ ∃ front name, t.Writable path front name := by
  unfold fileAddress at h
  obtain ⟨⟨⟩, hc, h⟩ := exists_of_bind_eq_ok h
  rcases hlast : path.names.getLast? with _ | name
  · rw [hlast] at h
    cases h
  · rw [hlast] at h
    obtain ⟨folder, hf, h⟩ := exists_of_bind_eq_ok h
    obtain ⟨hfolder, h⟩ := of_guarded_eq_ok h
    obtain ⟨hne, h⟩ := of_guarded_eq_ok h
    obtain ⟨hshort, h⟩ := of_guarded_eq_ok h
    obtain ⟨hfree, h⟩ := of_guarded_eq_ok h
    obtain rfl := Except.ok.inj h
    rw [Bool.not_eq_true', Bool.not_eq_false, isFolderAt_iff] at hfolder
    rw [Bool.or_eq_true, not_or, Bool.not_eq_true, isFolderAt_iff] at hfree
    have hnames : path.names = path.names.dropLast ++ [name] := by
      obtain ⟨front, hfront⟩ := List.getLast?_eq_some_iff.1 hlast
      rw [hfront, List.dropLast_concat]
    have hleads := follow_eq_ok_iff.1 hf
    have hwalk : Address.walk [] path.names = folder ++ [name] := by
      rw [hnames, Address.walk_concat_of_ne hne, hleads.eq_walk]
    refine ⟨hwalk.symm, path.names.dropLast, name, hc, hfree.1, hnames, hne, hshort, ?_, ?_,
      hwalk ▸ hfree.2⟩
    · exact hleads.eq_walk ▸ hleads
    · exact hleads.eq_walk ▸ hfolder

namespace Writable

variable {front : List String}

/-- The address of a file that can be written is that of its folder and its name. -/
theorem walk_eq (h : t.Writable path front name) :
    Address.walk [] path.names = Address.walk [] front ++ [name] := by
  rw [h.names_eq, Address.walk_concat_of_ne h.ne_parent]

/-- **What can be written can be put.** -/
theorem admits (h : t.Writable path front name) : t.Admits (Address.walk [] path.names) := by
  refine ⟨?_, ?_, h.no_folder⟩
  · rw [h.walk_eq]
    exact List.concat_ne_nil _ _
  · rw [h.walk_eq, List.dropLast_concat]
    exact h.folder

/-- A file where a file could be written is found by the path, in every tree that
has the same folders. -/
theorem locate_of_folders (h : t.Writable path front name)
    (hkeep : ∀ b, t.at? b = some .folder → u.at? b = some .folder) {content : ByteArray}
    (hfile : u.at? (Address.walk [] path.names) = some (.file content)) :
    u.locate path = .ok (Address.walk [] path.names) := by
  have hfront := h.leads.of_folders h.folder hkeep
  rw [h.walk_eq] at hfile
  have hleads : u.Leads [] path.names (Address.walk [] path.names) := by
    rw [h.walk_eq, h.names_eq]
    exact hfront.append (hkeep _ h.folder) (.file h.ne_parent h.short hfile)
  refine locate_eq_ok_iff.2 ⟨h.check, hleads, fun hasks => ?_⟩
  exact absurd (h.asks_nothing.symm.trans hasks) Bool.false_ne_true

/-- **A file is read where it was written**, in every tree that has the same
folders. -/
theorem readBytes_of_folders (h : t.Writable path front name)
    (hkeep : ∀ b, t.at? b = some .folder → u.at? b = some .folder) {content : ByteArray}
    (hfile : u.at? (Address.walk [] path.names) = some (.file content)) :
    u.readBytes path = .ok content := by
  unfold readBytes
  rw [h.locate_of_folders hkeep hfile]
  simp only [bind, Except.bind, hfile, pure, Except.pure]

/-- Nothing is at the address of a path that leads nowhere. -/
theorem at?_eq_none (h : t.Writable path front name) (hnew : t.hasPath path = false) :
    t.at? (Address.walk [] path.names) = none := by
  rcases hentry : t.at? (Address.walk [] path.names) with _ | (_ | content)
  · rfl
  · exact absurd hentry h.no_folder
  · have hfound : t.hasPath path = true :=
      hasPath_eq_true_iff.2 ⟨_, h.locate_of_folders (fun _ hb => hb) hentry⟩
    rw [hnew] at hfound
    cases hfound

end Writable

end FileTree

end ResourceSchema
