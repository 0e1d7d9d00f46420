/-
# Folders and files

A `FileTree` holds what is below one folder: at the address of each thing, the
names leading to it, either a folder or a file with its bytes.  Whatever is
there is inside a folder that is there too; the outermost folder is always
there.

This is less than a disk.  There are no links, neither symbolic nor hard, so a
thing has one address and a file's bytes are under no other.  There are no
permissions, so whatever is there can be read, replaced and removed.  There is
room for everything, and nothing but the operations of this library changes a
tree.

`FileTree.at?` is the whole view of a tree: two trees with the same view are
equal (`FileTree.ext_at?`).
-/

import Std.Data.ExtTreeMap

namespace ResourceSchema

-- Bytes are compared as the core library does, also where Batteries does it its own way.
attribute [local instance (high)] ByteArray.instDecidableEq

/-- The names that lead to a thing from the outermost folder. -/
abbrev Address : Type := List String

/-- A folder, or a file with its bytes. -/
inductive Entry where
  | folder
  | file (content : ByteArray)
deriving DecidableEq

/-- What is below the outermost folder, by address. -/
structure FileTree where
  entries : Std.ExtTreeMap Address Entry compare
  /-- The outermost folder is not listed. -/
  root_unlisted : entries[([] : Address)]? = none
  /-- Everything lies in a folder. -/
  inFolder : ∀ (above : Address) (name : String) (entry : Entry),
    entries[above ++ [name]]? = some entry → above ≠ [] → entries[above]? = some .folder

namespace FileTree

/-- The tree with nothing but the outermost folder. -/
def empty : FileTree := ⟨∅, by simp, by simp⟩

/-- What is at an address. -/
def at? (t : FileTree) (a : Address) : Option Entry :=
  if a = [] then some .folder else t.entries[a]?

@[simp] theorem at?_nil (t : FileTree) : t.at? [] = some .folder := rfl

/-- Below the outermost folder the view is the listing. -/
theorem at?_of_ne_nil (t : FileTree) {a : Address} (h : a ≠ []) : t.at? a = t.entries[a]? := by
  simp [at?, h]

/-- A tree is its listing. -/
theorem ext {t u : FileTree} (h : t.entries = u.entries) : t = u := by
  cases t; cases u; cases h; rfl

/-- **The view determines the tree.** -/
theorem ext_at? {t u : FileTree} (h : ∀ a, t.at? a = u.at? a) : t = u := by
  apply ext
  apply Std.ExtTreeMap.ext_getElem?
  intro a
  by_cases ha : a = []
  · rw [ha, t.root_unlisted, u.root_unlisted]
  · rw [← t.at?_of_ne_nil ha, ← u.at?_of_ne_nil ha, h]

/-- What lies in something lies in a folder. -/
theorem folder_of_at? (t : FileTree) {above : Address} {name : String} {entry : Entry}
    (h : t.at? (above ++ [name]) = some entry) : t.at? above = some .folder := by
  by_cases ha : above = []
  · simp [ha]
  · rw [t.at?_of_ne_nil ha]
    exact t.inFolder above name entry (by rwa [t.at?_of_ne_nil (by simp)] at h) ha

/-- Whether something new can be put at an address: it lies in a folder, and
there is no folder in its place. -/
def Admits (t : FileTree) (a : Address) : Prop :=
  a ≠ [] ∧ t.at? a.dropLast = some .folder ∧ t.at? a ≠ some .folder

instance (t : FileTree) (a : Address) : Decidable (t.Admits a) :=
  inferInstanceAs (Decidable (_ ∧ _ ∧ _))

/-- What is at an address after an insertion, with addresses compared by equality. -/
theorem getElem?_insert (m : Std.ExtTreeMap Address Entry compare) (a b : Address) (e : Entry) :
    (m.insert a e)[b]? = if a = b then some e else m[b]? := by
  simp [Std.ExtTreeMap.getElem?_insert]

/-- The tree with an entry put at an address, if it can be. -/
def put (t : FileTree) (a : Address) (e : Entry) : FileTree :=
  if h : t.Admits a then
    { entries := t.entries.insert a e
      root_unlisted := by
        rw [getElem?_insert, if_neg h.1]
        exact t.root_unlisted
      inFolder := by
        intro above name entry hin hne
        rw [getElem?_insert] at hin ⊢
        split at hin
        · rename_i ha
          have h' := h.2.1
          subst ha
          rw [List.dropLast_concat, t.at?_of_ne_nil hne] at h'
          rw [if_neg (by simp), h']
        · have habove := t.inFolder above name entry hin hne
          split
          · rename_i ha
            subst ha
            exact absurd (by rw [t.at?_of_ne_nil hne]; exact habove) h.2.2
          · exact habove }
  else t

/-- **Putting changes one address.** -/
theorem at?_put (t : FileTree) {a : Address} (h : t.Admits a) (e : Entry) (b : Address) :
    (t.put a e).at? b = if a = b then some e else t.at? b := by
  by_cases hb : b = []
  · subst hb
    simp [h.1]
  · rw [at?_of_ne_nil _ hb, at?_of_ne_nil _ hb, put, dif_pos h]
    exact getElem?_insert _ _ _ _

/-- The tree without the file at an address. -/
def removeFile (t : FileTree) (a : Address) : FileTree :=
  if h : a ≠ [] ∧ t.at? a ≠ some .folder then
    { entries := t.entries.erase a
      root_unlisted := by
        rw [Std.ExtTreeMap.getElem?_erase]
        split
        · rfl
        · exact t.root_unlisted
      inFolder := by
        intro above name entry hin hne
        rw [Std.ExtTreeMap.getElem?_erase] at hin ⊢
        split at hin
        · simp at hin
        · have habove := t.inFolder above name entry hin hne
          split
          · rename_i ha
            have ha : a = above := by simpa using ha
            subst ha
            exact absurd (by rw [t.at?_of_ne_nil hne]; exact habove) h.2
          · exact habove }
  else t

/-- The path of an entry below the outermost folder; a folder's ends with a
slash. -/
def entryPath (a : Address) (e : Entry) : String :=
  "/".intercalate a ++ (if e = .folder then "/" else "")

/-- The bytes of a file. -/
def Entry.size? : Entry → Option Nat
  | .folder => none
  | .file content => some content.size

/-- Everything in the tree, in the order of the paths, with the sizes of the
files. -/
def listing (t : FileTree) : List (String × Option Nat) :=
  (t.entries.toList.map fun (a, e) => (entryPath a e, Entry.size? e)).mergeSort
    fun x y => x.1 ≤ y.1

end FileTree

end ResourceSchema
