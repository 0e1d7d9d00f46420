/-
# The folder of a package

The folder of a package has the names of the root and after them the names of
the package (`names_packageFolder`).  No name of a package is `..`, since the
dots are what separates them, so the folder lies below its root; and for one
root a package is known by its folder (`packageNames_injective`).

The generated package of a schema is never its base package
(`generatedBelow_ne`).  It has one more name, which is a good one, so the two are
`Misnamed` together, and then neither has a folder.
-/

import ResourceSchema.Package.Basic
import ResourceSchema.Package.Layout

namespace ResourceSchema

/-! ### Joining paths -/

namespace Path

/-- The characters on both sides of a slash. -/
theorem toList_append_slash (left right : String) :
    (left ++ "/" ++ right).toList = left.toList ++ '/' :: right.toList := by
  rw [String.toList_append, String.toList_append, List.append_assoc]
  rfl

/-- The names on both sides of a slash are the names of the whole path. -/
theorem names_append_slash (left right : String) :
    names (left ++ "/" ++ right) = names left ++ names right := by
  rw [names, pieces_eq_append left right (toList_append_slash left right), List.filter_append,
    names, names]

/-- A single name is a path with that name. -/
theorem names_of_isName {name : String} (hslash : '/' ∉ name.toList) (hn : isName name = true) :
    names name = [name] := by
  rw [names, pieces_of_not_mem hslash, List.filter_cons_of_pos hn, List.filter_nil]

/-- A path that ends with a slash is one with a slash behind it. -/
theorem exists_eq_append_slash {path : Path} (h : path.toList.getLast? = some '/') :
    ∃ front, path = front ++ "/" := by
  obtain ⟨front, hfront⟩ := List.getLast?_eq_some_iff.1 h
  refine ⟨String.ofList front, ?_⟩
  rw [← String.toList_inj, hfront, String.toList_append, String.toList_ofList]
  rfl

/-- **Joining adds a name.** -/
theorem names_join (left : Path) {name : String} (hslash : '/' ∉ name.toList)
    (hn : isName name = true) : (join left name).names = left.names ++ [name] := by
  rw [← names_of_isName hslash hn]
  unfold join
  split
  · rename_i h
    rcases h with hempty | hslashed
    · obtain rfl : left = "" := String.toList_inj.1 hempty
      rw [String.empty_append]
      rfl
    · -- The slash is there already, and nothing counts behind it.
      obtain ⟨front, rfl⟩ := exists_eq_append_slash hslashed
      have hfront : names (front ++ "/") = names front ++ names "" := by
        rw [← names_append_slash, String.append_empty]
      rw [names_append_slash, hfront]
      exact congrArg (· ++ names name) (List.append_nil _).symm
  · exact names_append_slash left name

/-- Joining names to a root puts them behind the names of the root. -/
theorem names_foldl_join (root : Path) {below : List String}
    (h : ∀ name ∈ below, '/' ∉ name.toList ∧ isName name = true) :
    (below.foldl join root).names = root.names ++ below := by
  induction below generalizing root with
  | nil => rw [List.foldl_nil, List.append_nil]
  | cons name rest ih =>
    obtain ⟨hslash, hn⟩ := h name List.mem_cons_self
    have hrest : ∀ name ∈ rest, '/' ∉ name.toList ∧ isName name = true :=
      fun other hmem => h other (List.mem_cons_of_mem _ hmem)
    rw [List.foldl_cons, ih _ hrest, names_join root hslash hn, List.append_assoc,
      List.singleton_append]

end Path

/-! ### The names of a package -/

/-- No name of a package has a dot in it. -/
theorem dot_not_mem_of_mem_packageNames {package name : String}
    (h : name ∈ packageNames package) : '.' ∉ name.toList := by
  unfold packageNames at h
  split at h
  · cases h
  · exact not_mem_of_mem_pieces h

/-- No name of a package leads back. -/
theorem parent_not_mem_packageNames (package : String) : ".." ∉ packageNames package := by
  intro h
  exact dot_not_mem_of_mem_packageNames h (by decide)

/-- **A package is known by its names.** -/
theorem packageNames_injective {a b : String} (h : packageNames a = packageNames b) : a = b := by
  unfold packageNames at h
  split at h
  · rename_i ha
    split at h
    · rename_i hb
      rw [ha, hb]
    · exact absurd h.symm (pieces_ne_nil _ _)
  · split at h
    · exact absurd h (pieces_ne_nil _ _)
    · exact pieces_injective h

/-- A name of a package that can be that of a folder is a single name. -/
theorem isName_of_mem_packageNames {package name : String} (h : name ∈ packageNames package)
    (hfolder : isFolderName name = true) : '/' ∉ name.toList ∧ Path.isName name = true := by
  obtain ⟨hne, hslash, _⟩ := of_decide_eq_true hfolder
  refine ⟨hslash, decide_eq_true ⟨hne, ?_⟩⟩
  rintro rfl
  exact dot_not_mem_of_mem_packageNames h (by decide)

/-- **A package has a folder exactly if all its names can be names of folders,** and then the
folder is the root with these names behind it. -/
theorem packageFolder_eq_ok_iff {root folder : Path} {package : String} :
    packageFolder root package = .ok folder ↔ (packageNames package).all isFolderName = true ∧
      folder = (packageNames package).foldl Path.join root := by
  unfold packageFolder
  split
  · rename_i h
    rw [Except.ok.injEq]
    exact ⟨fun heq => ⟨h, heq.symm⟩, fun heq => heq.2.symm⟩
  · rename_i h
    exact ⟨nofun, fun heq => absurd heq.1 h⟩

/-- **The folder of a package** has the names of the root and those of the
package. -/
theorem names_packageFolder {root folder : Path} {package : String}
    (h : packageFolder root package = .ok folder) :
    folder.names = root.names ++ packageNames package := by
  obtain ⟨hall, rfl⟩ := packageFolder_eq_ok_iff.1 h
  refine Path.names_foldl_join root fun name hmem => ?_
  exact isName_of_mem_packageNames hmem (List.all_eq_true.1 hall name hmem)

/-- **The generated package is another one.** -/
theorem generatedBelow_ne (package : String) : generatedBelow package ≠ package := by
  unfold generatedBelow
  split
  · rename_i h
    rw [h]
    decide
  · intro h
    have hlength := congrArg (fun text : String => text.toList.length) h
    simp only [String.toList_append, List.length_append] at hlength
    have hdot : ".".toList.length = 1 := rfl
    omega

/-- The generated package has one more name. -/
theorem packageNames_generatedBelow (package : String) :
    packageNames (generatedBelow package) = packageNames package ++ [generatedName] := by
  have hname : pieces '.' generatedName = [generatedName] := pieces_of_not_mem (by decide)
  by_cases hempty : package = ""
  · rw [generatedBelow, if_pos hempty, hempty, packageNames, if_neg (by decide), hname]
    rfl
  · have htext : (package ++ "." ++ generatedName).toList =
        package.toList ++ '.' :: generatedName.toList := by
      rw [String.toList_append, String.toList_append, List.append_assoc]
      rfl
    have hnonempty : package ++ "." ++ generatedName ≠ "" := by
      intro h
      rw [← String.toList_inj, htext] at h
      exact absurd h (List.append_ne_nil_of_right_ne_nil _ (List.cons_ne_nil _ _))
    rw [generatedBelow, if_neg hempty, packageNames, if_neg hnonempty, packageNames, if_neg hempty,
      pieces_eq_append package generatedName htext, hname]

/-! ### Packages without a folder -/

/-- A package that has no folder: it is not the default package, and between its
dots there is an empty piece or one with a slash or a backslash. -/
def Misnamed (package : String) : Prop :=
  package ≠ "" ∧
    ∃ name ∈ pieces '.' package, name = "" ∨ '/' ∈ name.toList ∨ '\\' ∈ name.toList

/-- What keeps a name from being that of a folder. -/
theorem isFolderName_eq_false_iff {name : String} :
    isFolderName name = false ↔ name = "" ∨ '/' ∈ name.toList ∨ '\\' ∈ name.toList := by
  simp only [isFolderName, decide_eq_false_iff_not, ne_eq, Decidable.not_and_iff_not_or_not,
    Decidable.not_not]

/-- A package is misnamed exactly if a name of it cannot be that of a folder. -/
theorem misnamed_iff {package : String} :
    Misnamed package ↔ (packageNames package).all isFolderName = false := by
  unfold Misnamed packageNames
  split
  · rename_i h
    exact ⟨fun hm => absurd h hm.1, nofun⟩
  · rename_i h
    simp only [List.all_eq_false, Bool.not_eq_true, isFolderName_eq_false_iff]
    exact ⟨fun hm => hm.2, fun hm => ⟨h, hm⟩⟩

/-- **The generated package has a folder exactly when the base package has one.** -/
theorem misnamed_generatedBelow_iff {package : String} :
    Misnamed (generatedBelow package) ↔ Misnamed package := by
  have hname : isFolderName generatedName = true := by decide
  rw [misnamed_iff, misnamed_iff, packageNames_generatedBelow, List.all_append, List.all_cons,
    List.all_nil, hname, Bool.and_true, Bool.and_true]

/-- For a misnamed package the whole package is named in the error. -/
theorem packageFolder_of_misnamed {package : String} (h : Misnamed package) (root : Path) :
    packageFolder root package =
      .error (.generation ("invalid package name '" ++ package ++ "'")) :=
  if_neg (Bool.not_eq_true _ ▸ misnamed_iff.1 h)

/-- A package that is not misnamed has a folder below every root. -/
theorem packageFolder_of_not_misnamed {package : String} (h : ¬ Misnamed package) (root : Path) :
    packageFolder root package = .ok ((packageNames package).foldl Path.join root) :=
  if_pos (Bool.not_eq_false _ ▸ mt misnamed_iff.2 h)

end ResourceSchema
