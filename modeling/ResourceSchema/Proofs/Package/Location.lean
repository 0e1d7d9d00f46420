/-
# Packages stay below their root

`packageFolder` puts the names of a package behind a root, be the root empty,
relative, absolute or ended by a slash.  `packages_located` says where that is.

A path is read without a disk by its components (`Path.components`): whether it
starts at the outermost folder or at the current one, and then its names, of which
`..` is none that anything is called.  Joining adds one component and leaves the
others as they are (`Path.components_join`).  So the folder of a package has the
components of the root and behind them the names of the package, all of them
ordinary; the package can be read back from the two paths (`packageBelow?`); and on
a disk the folder is below the root wherever the root may lead.
-/

import ResourceSchema.Proofs.Disk.Walk
import ResourceSchema.Proofs.Package.Folder

namespace ResourceSchema

namespace Path

/-- A component of a path. -/
inductive Component where
  | outermost
  | current
  | above
  | named (name : String)
deriving DecidableEq, Repr

namespace Component

/-- The component of a name that counts. -/
def ofName (name : String) : Component := if name = ".." then above else named name

/-- The name of an ordinary component. -/
def name? : Component → Option String
  | named name => some name
  | outermost | current | above => none

end Component

/-- What a path starts with besides its names: an absolute path starts at the
outermost folder, and a single dot counts where nothing stands before it. -/
def start (path : Path) : List Component :=
  if path.toList.head? = some '/' then [.outermost]
  else if (pieces '/' path).head? = some "." then [.current]
  else []

/-- The components of a path. -/
def components (path : Path) : List Component := path.start ++ path.names.map Component.ofName

/-- What comes behind the first slash does not change how a path starts. -/
theorem start_append_slash {front : Path} (h : front ≠ "") (back : String) :
    start (front ++ "/" ++ back) = start front := by
  have hfront : front.toList ≠ [] := fun hempty => h (String.toList_inj.1 hempty)
  rw [start, pieces_eq_append front back (toList_append_slash front back),
    toList_append_slash, List.head?_append_of_ne_nil _ hfront,
    List.head?_append_of_ne_nil _ (pieces_ne_nil '/' front), start]

/-- A path that starts with a slash starts at the outermost folder. -/
theorem start_of_slash {path : Path} (h : path.toList.head? = some '/') :
    start path = [.outermost] := if_pos h

/-- How a path starts is settled before its first slash, also if that is all there is. -/
theorem start_slash_append (front back back' : String) :
    start (front ++ "/" ++ back) = start (front ++ "/" ++ back') := by
  by_cases h : front = ""
  · have hslash (behind : String) : (front ++ "/" ++ behind).toList.head? = some '/' := by
      rw [toList_append_slash, h]
      rfl
    rw [start_of_slash (hslash back), start_of_slash (hslash back')]
  · rw [start_append_slash h, start_append_slash h]

/-- A single name starts with nothing but itself. -/
theorem start_of_isName {name : String} (hslash : '/' ∉ name.toList) (hn : isName name = true) :
    start name = [] := by
  have hhead : name.toList.head? ≠ some '/' := fun h => hslash (List.mem_of_mem_head? h)
  have hdot : name ≠ "." := (of_decide_eq_true hn).2
  rw [start, if_neg hhead, pieces_of_not_mem hslash, List.head?_cons,
    if_neg (mt Option.some.inj hdot)]

/-- Joining a name does not change how a path starts. -/
theorem start_join (left : Path) {name : String} (hslash : '/' ∉ name.toList)
    (hn : isName name = true) : (join left name).start = left.start := by
  unfold join
  split
  · rename_i h
    rcases h with hempty | hslashed
    · obtain rfl : left = "" := String.toList_inj.1 hempty
      rw [String.empty_append, start_of_isName hslash hn]
      rfl
    · obtain ⟨front, rfl⟩ := exists_eq_append_slash hslashed
      have hempty : front ++ "/" ++ "" = front ++ "/" := String.append_empty
      exact (start_slash_append front name "").trans (congrArg start hempty)
  · rename_i h
    have hleft : left ≠ "" := by
      rintro rfl
      exact h (.inl rfl)
    exact start_append_slash hleft name

/-- **Joining adds a component.** -/
theorem components_join (left : Path) {name : String} (hslash : '/' ∉ name.toList)
    (hn : isName name = true) (hparent : name ≠ "..") :
    (join left name).components = left.components ++ [.named name] := by
  rw [components, start_join left hslash hn, names_join left hslash hn, List.map_append,
    List.map_singleton, Component.ofName, if_neg hparent, ← List.append_assoc, components]

/-- Joining names adds their components, one after the other. -/
theorem components_foldl_join (root : Path) {below : List String}
    (h : ∀ name ∈ below, '/' ∉ name.toList ∧ isName name = true) (hparent : ".." ∉ below) :
    (below.foldl join root).components = root.components ++ below.map .named := by
  induction below generalizing root with
  | nil => rw [List.foldl_nil, List.map_nil, List.append_nil]
  | cons name rest ih =>
    obtain ⟨hslash, hn⟩ := h name List.mem_cons_self
    obtain ⟨hname, hrest⟩ := not_or.1 (mt List.mem_cons.2 hparent)
    rw [List.foldl_cons, ih _ (fun other hmem => h other (List.mem_cons_of_mem _ hmem)) hrest,
      components_join root hslash hn (Ne.symm hname), List.append_assoc, List.singleton_append,
      List.map_cons]

end Path

/-- A name that a folder can have. -/
structure IsOrdinary (name : String) : Prop where
  nonempty : name ≠ ""
  ne_current : name ≠ "."
  ne_parent : name ≠ ".."
  no_slash : '/' ∉ name.toList

/-- The package of these names. -/
def packageOf (names : List String) : String :=
  String.ofList (['.'].intercalate (names.map String.toList))

/-- The package of a folder below a root, read back from the two paths. -/
def packageBelow? (root folder : Path) : Option String :=
  if root.components <+: folder.components then
    ((folder.components.drop root.components.length).mapM Path.Component.name?).map packageOf
  else none

/-- Two paths are one folder: as paths, or because they lead to one place on a disk. -/
def SameFolder (folder folder' : Path) : Prop :=
  folder.components = folder'.components ∨
    ∃ here, Address.walk here folder.names = Address.walk here folder'.names

variable {root folder folder' : Path} {package package' : String}

/-- **A package is its names with dots between them.** -/
theorem packageOf_packageNames (package : String) : packageOf (packageNames package) = package := by
  unfold packageNames
  split
  · rename_i h
    exact h.symm
  · rw [packageOf, map_toList_pieces, List.intercalate_splitOn, String.ofList_toList]

/-- The names of ordinary components are read back from them. -/
theorem mapM_name?_named (names : List String) :
    (names.map Path.Component.named).mapM Path.Component.name? = some names := by
  induction names with
  | nil => rfl
  | cons name rest ih =>
    rw [List.map_cons, List.mapM_cons, ih]
    rfl

/-- The names of a package that has a folder are ordinary ones. -/
theorem isOrdinary_of_mem_packageNames {name : String} (h : name ∈ packageNames package)
    (hfolder : isFolderName name = true) : IsOrdinary name := by
  obtain ⟨hslash, hn⟩ := isName_of_mem_packageNames h hfolder
  obtain ⟨hne, hdot⟩ := of_decide_eq_true hn
  refine ⟨hne, hdot, ?_, hslash⟩
  rintro rfl
  exact parent_not_mem_packageNames package h

/-- **A package has a folder** unless it is misnamed. -/
theorem exists_packageFolder_iff_not_misnamed (root : Path) :
    (∃ folder, packageFolder root package = .ok folder) ↔ ¬ Misnamed package := by
  by_cases h : Misnamed package
  · rw [packageFolder_of_misnamed h]
    exact ⟨nofun, fun hn => absurd h hn⟩
  · rw [packageFolder_of_not_misnamed h]
    exact ⟨fun _ => h, fun _ => ⟨_, rfl⟩⟩

/-- **Which packages have a folder,** said by the pieces between the dots. -/
theorem exists_packageFolder_iff (root : Path) :
    (∃ folder, packageFolder root package = .ok folder) ↔
      package = "" ∨ ∀ name ∈ pieces '.' package,
        name ≠ "" ∧ '/' ∉ name.toList ∧ '\\' ∉ name.toList := by
  rw [exists_packageFolder_iff_not_misnamed, Misnamed, not_and_or, not_not]
  simp only [not_exists, not_and, not_or, ne_eq]

/-- **The components of a package's folder.** -/
theorem components_packageFolder (h : packageFolder root package = .ok folder) :
    folder.components = root.components ++ (packageNames package).map .named := by
  obtain ⟨hall, rfl⟩ := packageFolder_eq_ok_iff.1 h
  refine Path.components_foldl_join root (fun name hmem => ?_) (parent_not_mem_packageNames package)
  exact isName_of_mem_packageNames hmem (List.all_eq_true.1 hall name hmem)

/-- On a disk, the folder of a package is below the root. -/
theorem walk_packageFolder (h : packageFolder root package = .ok folder) (here : Address) :
    Address.walk here folder.names = Address.walk here root.names ++ packageNames package := by
  rw [names_packageFolder h, Address.walk_append,
    Address.walk_of_not_mem (parent_not_mem_packageNames package)]

/-- **A package is read back from the path of its folder.** -/
theorem packageBelow?_packageFolder (h : packageFolder root package = .ok folder) :
    packageBelow? root folder = some package := by
  rw [packageBelow?, components_packageFolder h, if_pos (List.prefix_append _ _), List.drop_left,
    mapM_name?_named, Option.map_some, packageOf_packageNames]

/-- **Below one root, packages with one folder are one package.** -/
theorem eq_of_sameFolder (h : packageFolder root package = .ok folder)
    (h' : packageFolder root package' = .ok folder') (hsame : SameFolder folder folder') :
    package = package' := by
  rcases hsame with hpath | ⟨here, hplace⟩
  · rw [components_packageFolder h, components_packageFolder h',
      List.append_cancel_left_eq] at hpath
    have hnames := congrArg (List.mapM Path.Component.name?) hpath
    rw [mapM_name?_named, mapM_name?_named] at hnames
    exact packageNames_injective (Option.some.inj hnames)
  · rw [walk_packageFolder h, walk_packageFolder h'] at hplace
    exact packageNames_injective (List.append_cancel_left hplace)

/-- The generated package has a folder where the base package has one. -/
theorem exists_packageFolder_generated_iff (schema : Schema) (override? : Option String)
    (root : Path) :
    (∃ folder, packageFolder root (schema.generatedPackage override?) = .ok folder) ↔
      ∃ folder, packageFolder root (schema.basePackage override?) = .ok folder := by
  rw [exists_packageFolder_iff_not_misnamed, exists_packageFolder_iff_not_misnamed,
    Schema.generatedPackage, misnamed_generatedBelow_iff]

/-- **Packages stay below their root and do not collide.**  A package has a folder
exactly if it is the default package or no name of it is empty or holds a slash or a
backslash.  The folder's components are those of the root and then the names of the
package, which are ordinary ones; it lies below the root on every disk, and the package
can be read back from it.  So no two packages share a folder, and the generated
package of a schema never has the folder of the base package. -/
theorem packages_located (root : Path) :
    (∀ package, (∃ folder, packageFolder root package = .ok folder) ↔
      package = "" ∨ ∀ name ∈ pieces '.' package,
        name ≠ "" ∧ '/' ∉ name.toList ∧ '\\' ∉ name.toList) ∧
    (∀ package folder, packageFolder root package = .ok folder →
      folder.components = root.components ++ (packageNames package).map .named ∧
      (∀ name ∈ packageNames package, IsOrdinary name) ∧
      (∀ here, Address.walk here folder.names =
        Address.walk here root.names ++ packageNames package) ∧
      packageBelow? root folder = some package) ∧
    (∀ package package' folder folder', packageFolder root package = .ok folder →
      packageFolder root package' = .ok folder' → SameFolder folder folder' →
      package = package') ∧
    ∀ (schema : Schema) (override? : Option String),
      ((∃ folder, packageFolder root (schema.generatedPackage override?) = .ok folder) ↔
        ∃ folder, packageFolder root (schema.basePackage override?) = .ok folder) ∧
      ∀ generated base, packageFolder root (schema.generatedPackage override?) = .ok generated →
        packageFolder root (schema.basePackage override?) = .ok base →
        ¬ SameFolder generated base := by
  refine ⟨fun _ => exists_packageFolder_iff root, fun package folder h => ?_,
    fun _ _ _ _ h h' hsame => eq_of_sameFolder h h' hsame, fun schema override? => ?_⟩
  · obtain ⟨hall, -⟩ := packageFolder_eq_ok_iff.1 h
    have hordinary : ∀ name ∈ packageNames package, IsOrdinary name := fun name hmem =>
      isOrdinary_of_mem_packageNames hmem (List.all_eq_true.1 hall name hmem)
    exact ⟨components_packageFolder h, hordinary, walk_packageFolder h,
      packageBelow?_packageFolder h⟩
  · refine ⟨exists_packageFolder_generated_iff schema override? root,
      fun generated base hg hb hsame => ?_⟩
    exact generatedBelow_ne _ (eq_of_sameFolder hg hb hsame)

/-- Such a folder, below a root that starts with a dot and ends with a slash, and a package
that would leave it. -/
theorem packages_located_dotted :
    packageFolder "./out/" "pets.shop" = .ok "./out/pets/shop" ∧
    Path.components "./out/pets/shop" =
      [.current, .named "out", .named "pets", .named "shop"] ∧
    packageBelow? "./out/" "./out/pets/shop" = some "pets.shop" ∧
    (¬ ∃ folder, packageFolder "./out/" "com../etc" = .ok folder) ∧
    ∃ generated, packageFolder "./out/"
      (Schema.generatedPackage { package? := some "pets.shop" } none) = .ok generated := by
  obtain ⟨hexists, hlocated, -, hschema⟩ := packages_located "./out/"
  have hfolder : packageFolder "./out/" "pets.shop" = .ok "./out/pets/shop" :=
    packageFolder_eq_ok_iff.2 ⟨by decide +kernel, by decide +kernel⟩
  have hroot : Path.components "./out/" = [.current, .named "out"] := by decide +kernel
  have hnames : packageNames "pets.shop" = ["pets", "shop"] := by decide +kernel
  obtain ⟨hcomponents, -, -, hback⟩ := hlocated "pets.shop" "./out/pets/shop" hfolder
  rw [hroot, hnames] at hcomponents
  refine ⟨hfolder, hcomponents, hback, fun h => ?_, ?_⟩
  · rcases (hexists "com../etc").1 h with hempty | hnames
    · exact absurd hempty (by decide)
    · have hslash := (hnames "/etc" (by decide +kernel)).2.1
      exact absurd hslash (by decide)
  · exact (hschema { package? := some "pets.shop" } none).1.2 ⟨_, hfolder⟩

end ResourceSchema
