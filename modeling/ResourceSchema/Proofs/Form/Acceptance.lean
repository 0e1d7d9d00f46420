/-
# The loader accepts exactly the format

`Shape.load` reads a tree by the shape of what is asked for, and reports the
first mismatch it meets.  `Schema.ofDocument_eq_ok_iff` says what it accepts
without either: the trees of the format (`Format.SchemaParts`), and for each of
them the one schema it stands for.

The parts of a record are read from what is given under their keys
(`Parts.ReadFrom`).  That is so for an object, of which each part is looked up
(`Parts.ofObject_eq_complete_iff`), and for a list, of which each part takes the
next item (`Parts.ofList_eq_ok_iff`), so a record accepts the bodies of its keys
in both forms (`Shape.reads_record_iff`).  What remains is to compare the shape
of each kind of derivation with its rows in `Format.keys` and `Format.OwnParts`,
which is done case by case with `Cases.Derives`.
-/

import ResourceSchema.Proofs.Form.Format
import ResourceSchema.Proofs.Form.RoundTrip

namespace ResourceSchema

open Format

/-- A tree is read as a value. -/
def Shape.Reads {α : Type} (shape : Shape α) (v : Json) (a : α) : Prop := shape.load v = .ok a

/-! ### Values without parts -/

/-- A text is read from a JSON text. -/
theorem Shape.reads_text : Shape.text.Reads = IsText := by
  funext v s
  cases v <;> simp [Reads, load, loadText, IsText]

/-- A flag is read from a truth value. -/
theorem Shape.reads_flag : Shape.flag.Reads = IsFlag := by
  funext v b
  cases v <;> simp [Reads, load, loadFlag, IsFlag]

/-- A number is read from a JSON number. -/
theorem Shape.reads_number : Shape.number.Reads = IsNumber := by
  funext v x
  cases v <;> simp [Reads, load, loadNumber, IsNumber]

/-- A tree is read as it is. -/
theorem Shape.reads_tree : Shape.tree.Reads = IsTree := by
  funext v w
  simp [Reads, load, IsTree]

/-- A size is read from an integer of 32 bits without sign. -/
theorem Shape.reads_size : Shape.size.Reads = IsSize := by
  funext v n
  refine propext ⟨fun h => ?_, ?_⟩
  · rcases v with _ | _ | ⟨word | x⟩ | _ | _ | _
    case num.integer =>
      simp only [Reads, load, loadSize] at h
      split at h
      · rename_i hrange
        refine ⟨word, rfl, ?_⟩
        rw [← Except.ok.inj h, UInt32.toNat_ofNat']
        omega
      · cases h
    all_goals cases h
  · rintro ⟨word, rfl, hword⟩
    have hlt := n.toNat_lt
    have hrange : 0 ≤ word.val ∧ word.val < 2 ^ 32 := by omega
    rw [Reads, load, loadSize, if_pos hrange, hword, Int.toNat_natCast, UInt32.ofNat_toNat]

/-- A member of annotations is a text under its key. -/
theorem map_loadText_eq_ok_iff {m : String × Json} {e : String × String} :
    (loadText m.2).map (m.1, ·) = .ok e ↔ m = (e.1, .str e.2) := by
  rcases m with ⟨key, v⟩
  rcases e with ⟨key', s⟩
  cases v <;> simp [loadText, Except.map]

/-- Members are read as texts exactly if each holds a text. -/
theorem mapM_loadText_eq_ok_iff {members : List (String × Json)}
    {entries : List (String × String)} :
    (members.mapM fun m => (loadText m.2).map (m.1, ·)) = .ok entries ↔
      members = entries.map fun e => (e.1, .str e.2) := by
  rw [mapM_eq_ok_iff]
  simp only [map_loadText_eq_ok_iff]
  rw [← List.forall₂_map_right_iff (R := Eq), List.forall₂_eq_eq_eq]

/-- Annotations are read from an object of texts. -/
theorem Shape.reads_annotations : Shape.annotations.Reads = IsTexts := by
  funext v a
  cases v with
  | obj members =>
    rw [Reads, load, loadAnnotations, map_eq_ok_iff]
    simp only [mapM_loadText_eq_ok_iff, IsTexts, Json.obj.injEq]
  | _ => simp [Reads, load, loadAnnotations, IsTexts]

/-- A list is read item by item. -/
theorem Shape.reads_list {α : Type} (item : Shape α) :
    (Shape.list item).Reads = IsListOf item.Reads := by
  funext v as
  cases v with
  | arr items =>
    rw [Reads, load, mapM_eq_ok_iff]
    simp only [IsListOf, Json.arr.injEq, exists_eq_left']
    rfl
  | _ => simp [Reads, load, IsListOf]

/-- A built-in type is found by its name alone. -/
theorem findOption_builtin_iff {tag : String} {b : BaseType} :
    findOption BaseType.all BaseType.name tag = .ok b ↔ tag = b.name := by
  constructor
  · intro h
    unfold findOption at h
    split at h
    · rename_i b' hfind
      obtain rfl := Except.ok.inj h
      have hname := List.find?_some hfind
      exact (of_decide_eq_true hname).symm
    · cases h
  · rintro rfl
    have hfind : BaseType.all.find? (·.name = b.name) = some b := b.ofName?_name
    rw [findOption, hfind]

/-- A choice written as an object is its only key, with null behind it. -/
theorem loadChoice_single_eq_ok_iff {α : Type} {options : List α} {name : α → String}
    {tag : String} {body : Json} {a : α} :
    loadChoice options name (.obj [(tag, body)]) = .ok a ↔
      findOption options name tag = .ok a ∧ body = .null := by
  rcases hf : findOption options name tag with e | a'
  · simp [loadChoice, hf]
  · cases body <;> simp [loadChoice, hf]

/-- **A built-in type is read from its name,** as a text or as the only key of an object. -/
theorem Shape.reads_builtin : (Shape.choice BaseType.all BaseType.name).Reads = IsBuiltin := by
  funext v b
  rcases v with _ | _ | _ | tag | _ | members
  case str => simp [Reads, load, loadChoice, IsBuiltin, findOption_builtin_iff]
  case obj =>
    match members with
    | [] => simp [Reads, load, loadChoice, IsBuiltin]
    | [(tag, body)] =>
      simp [Reads, load, loadChoice_single_eq_ok_iff, findOption_builtin_iff, IsBuiltin]
    | _ :: _ :: _ => simp [Reads, load, loadChoice, IsBuiltin]
  all_goals simp [Reads, load, loadChoice, IsBuiltin]

/-! ### Parts -/

namespace Format

variable {α : Type} {Is : Json → α → Prop} {v : Json} {a value : α} {a? : Option α}

/-- A required part has to be given. -/
theorem not_required_none : ¬ Required Is none a := nofun

/-- A required part that is given is what it is read as. -/
theorem required_some_iff : Required Is (some v) a ↔ Is v a :=
  ⟨fun ⟨h⟩ => h, .given⟩

/-- An optional part that is not given is left open. -/
theorem optional_none_iff : Optional Is none a? ↔ a? = none := by
  constructor
  · rintro ⟨⟩
    rfl
  · rintro rfl
    exact .absent

/-- So is one that is given as null. -/
theorem optional_null_iff : Optional Is (some .null) a? ↔ a? = none := by
  constructor
  · rintro (_ | _ | ⟨hv, _⟩)
    · rfl
    · exact absurd rfl hv
  · rintro rfl
    exact .null

/-- Any other optional part is what it is read as. -/
theorem optional_some_iff (hv : v ≠ .null) :
    Optional Is (some v) a? ↔ ∃ a, Is v a ∧ some a = a? := by
  constructor
  · rintro (_ | _ | ⟨_, h⟩)
    · exact absurd rfl hv
    · exact ⟨_, h, rfl⟩
  · rintro ⟨a, h, rfl⟩
    exact .given hv h

/-- A part with a default has it where none is given. -/
theorem defaulted_none_iff : Defaulted Is value none a ↔ a = value := by
  constructor
  · rintro ⟨⟩
    rfl
  · rintro rfl
    exact .absent

/-- A part with a default that is given is what it is read as, null included. -/
theorem defaulted_some_iff : Defaulted Is value (some v) a ↔ Is v a :=
  ⟨fun | .given h => h, .given⟩

end Format

/-- The parts of a record, each read from what is given under its key. -/
def Parts.ReadFrom : {α : Type} → Parts α → (String → Option Json) → α → Prop
  | _, .done, _, _ => True
  | _, .required key shape rest, given, (a, b) =>
    Required shape.Reads (given key) a ∧ rest.ReadFrom given b
  | _, .optional key shape rest, given, (a?, b) =>
    Optional shape.Reads (given key) a? ∧ rest.ReadFrom given b
  | _, .defaulted key shape value _ rest, given, (a, b) =>
    Defaulted shape.Reads value (given key) a ∧ rest.ReadFrom given b

namespace Parts

section Equations

variable {α β : Type} {key : String} {shape : Shape α} {rest : Parts β} {value : α}
  {omitted : α → Bool} {given : String → Option Json}

/-- No parts are read from anything. -/
theorem readFrom_done {u : Unit} : Parts.done.ReadFrom given u ↔ True := Iff.rfl

/-- A required part is read, and then the others. -/
theorem readFrom_required {a : α × β} : (required key shape rest).ReadFrom given a ↔
    Required shape.Reads (given key) a.1 ∧ rest.ReadFrom given a.2 := Iff.rfl

/-- An optional part is read, and then the others. -/
theorem readFrom_optional {a : Option α × β} : (optional key shape rest).ReadFrom given a ↔
    Optional shape.Reads (given key) a.1 ∧ rest.ReadFrom given a.2 := Iff.rfl

/-- A part with a default is read, and then the others. -/
theorem readFrom_defaulted {a : α × β} : (defaulted key shape value omitted rest).ReadFrom given a ↔
    Defaulted shape.Reads value (given key) a.1 ∧ rest.ReadFrom given a.2 := Iff.rfl

end Equations

/-- Only what is given under the keys of the parts counts. -/
theorem readFrom_congr : {α : Type} → (parts : Parts α) → {given given' : String → Option Json} →
    (∀ key ∈ parts.keys, given key = given' key) → (a : α) →
    (parts.ReadFrom given a ↔ parts.ReadFrom given' a)
  | _, .done, _, _, _, _ => Iff.rfl
  | _, .required key _ rest, _, _, h, (_, b) => by
    rw [ReadFrom, ReadFrom, h key List.mem_cons_self,
      rest.readFrom_congr (fun k hk => h k (List.mem_cons_of_mem _ hk)) b]
  | _, .optional key _ rest, _, _, h, (_, b) => by
    rw [ReadFrom, ReadFrom, h key List.mem_cons_self,
      rest.readFrom_congr (fun k hk => h k (List.mem_cons_of_mem _ hk)) b]
  | _, .defaulted key _ _ _ rest, _, _, h, (_, b) => by
    rw [ReadFrom, ReadFrom, h key List.mem_cons_self,
      rest.readFrom_congr (fun k hk => h k (List.mem_cons_of_mem _ hk)) b]

/-- The parts after the first do not see what is bound to the first key. -/
theorem readFrom_tail {α : Type} {rest : Parts α} {key : String} (hkey : key ∉ rest.keys) (v : Json)
    (bound : List (String × Json)) (a : α) :
    rest.ReadFrom (fun k => Json.lookup k ((key, v) :: bound)) a ↔
      rest.ReadFrom (fun k => Json.lookup k bound) a := by
  refine rest.readFrom_congr (fun k hk => ?_) a
  have hne : key ≠ k := fun he => hkey (he ▸ hk)
  rw [Json.lookup_cons, if_neg hne]

/-- **In an object** each part is looked up. -/
theorem ofObject_eq_complete_iff : {α : Type} → (parts : Parts α) →
    {members : List (String × Json)} → {a : α} →
    (parts.ofObject members = .complete a ↔ parts.ReadFrom (fun key => Json.lookup key members) a)
  | _, .done, _, _ => ⟨fun _ => trivial, fun _ => rfl⟩
  | _, .required key shape rest, members, (a, b) => by
    rw [ReadFrom, ← rest.ofObject_eq_complete_iff]
    rcases hv : Json.lookup key members with _ | v
    · rw [ofObject_required_none hv, Outcome.and_eq_complete_iff]
      exact ⟨fun h => (nomatch h.1), fun h => absurd h.1 not_required_none⟩
    · rw [ofObject_required_some hv, Outcome.and_eq_complete_iff, Outcome.ofLoad_eq_complete_iff,
        required_some_iff, Shape.Reads]
  | _, .optional key shape rest, members, (a?, b) => by
    rw [ReadFrom, ← rest.ofObject_eq_complete_iff]
    rcases hv : Json.lookup key members with _ | v
    · rw [ofObject_optional_none hv, Outcome.and_eq_complete_iff, Outcome.complete.injEq,
        optional_none_iff, eq_comm]
    · by_cases hnull : v = .null
      · subst hnull
        rw [ofObject_optional_null hv, Outcome.and_eq_complete_iff, Outcome.complete.injEq,
          optional_null_iff, eq_comm]
      · rw [ofObject_optional_some hv hnull, Outcome.and_eq_complete_iff,
          Outcome.ofLoad_eq_complete_iff, map_eq_ok_iff, optional_some_iff hnull]
        rfl
  | _, .defaulted key shape value omitted rest, members, (a, b) => by
    rw [ReadFrom, ← rest.ofObject_eq_complete_iff]
    rcases hv : Json.lookup key members with _ | v
    · rw [ofObject_defaulted_none hv, Outcome.and_eq_complete_iff, Outcome.complete.injEq,
        defaulted_none_iff, eq_comm]
    · rw [ofObject_defaulted_some hv, Outcome.and_eq_complete_iff, Outcome.ofLoad_eq_complete_iff,
        defaulted_some_iff, Shape.Reads]

/-! ### Lists of parts -/

section Lists

variable {title : String} {declared given : Nat}

/-- Where the list has ended nothing is given any more. -/
theorem ofList_nil_eq_ok_iff : {α : Type} → (parts : Parts α) → {a : α} →
    (parts.ofList title declared given [] = .ok a ↔ parts.ReadFrom (fun _ => none) a)
  | _, .done, _ => ⟨fun _ => trivial, fun _ => rfl⟩
  | _, .required _ _ _, (_, _) => ⟨nofun, fun h => absurd h.1 not_required_none⟩
  | _, .optional _ _ rest, (_, _) => by
    rw [ofList_optional_nil, map_pair_eq_ok_iff, rest.ofList_nil_eq_ok_iff, ReadFrom,
      optional_none_iff, eq_comm]
  | _, .defaulted _ _ _ _ rest, (_, _) => by
    rw [ofList_defaulted_nil, map_pair_eq_ok_iff, rest.ofList_nil_eq_ok_iff, ReadFrom,
      defaulted_none_iff, eq_comm]

/-- **In a list** each part takes the next item, and no item may be left over. -/
theorem ofList_eq_ok_iff : {α : Type} → (parts : Parts α) → parts.keys.Nodup →
    {items : List Json} → {a : α} →
    (parts.ofList title declared given items = .ok a ↔ items.length ≤ parts.keys.length ∧
      parts.ReadFrom (fun key => Json.lookup key (parts.keys.zip items)) a)
  | _, parts, _, [], a => by
    rw [ofList_nil_eq_ok_iff, List.zip_nil_right]
    exact ⟨fun h => ⟨Nat.zero_le _, h⟩, fun h => h.2⟩
  | _, .done, _, _ :: _, _ => ⟨nofun, fun h => absurd h.1 (Nat.not_succ_le_zero _)⟩
  | _, .required key shape rest, hkeys, v :: items, (a, b) => by
    obtain ⟨hkey, hrest⟩ := List.nodup_cons.1 hkeys
    rw [ofList_required_cons_eq_ok_iff, rest.ofList_eq_ok_iff hrest, ReadFrom, keys,
      List.zip_cons_cons, Json.lookup_cons, if_pos rfl, required_some_iff, readFrom_tail hkey,
      List.length_cons, List.length_cons, Nat.succ_le_succ_iff, Shape.Reads]
    exact and_left_comm
  | _, .optional key shape rest, hkeys, v :: items, (a?, b) => by
    obtain ⟨hkey, hrest⟩ := List.nodup_cons.1 hkeys
    rw [ReadFrom, keys, List.zip_cons_cons, Json.lookup_cons, if_pos rfl, readFrom_tail hkey,
      List.length_cons, List.length_cons, Nat.succ_le_succ_iff]
    by_cases hnull : v = .null
    · subst hnull
      rw [ofList_optional_null, map_pair_eq_ok_iff, rest.ofList_eq_ok_iff hrest, optional_null_iff,
        eq_comm]
      exact and_left_comm
    · rw [ofList_optional_cons_eq_ok_iff hnull, rest.ofList_eq_ok_iff hrest,
        optional_some_iff hnull]
      exact and_left_comm
  | _, .defaulted key shape value omitted rest, hkeys, v :: items, (a, b) => by
    obtain ⟨hkey, hrest⟩ := List.nodup_cons.1 hkeys
    rw [ofList_defaulted_cons_eq_ok_iff, rest.ofList_eq_ok_iff hrest, ReadFrom, keys,
      List.zip_cons_cons, Json.lookup_cons, if_pos rfl, defaulted_some_iff, readFrom_tail hkey,
      List.length_cons, List.length_cons, Nat.succ_le_succ_iff, Shape.Reads]
    exact and_left_comm

end Lists

end Parts

/-- **A record accepts the bodies of its keys.** -/
theorem Shape.reads_record_iff {α β : Type} {title : String} {parts : Parts β} {make : β → α}
    {split : α → β} {make_split : ∀ a, make (split a) = a} (hkeys : parts.keys.Nodup) {v : Json}
    {a : α} : (Shape.record title parts make split make_split).Reads v a ↔
      ∃ given, Body parts.keys v given ∧ ∃ b, parts.ReadFrom given b ∧ make b = a := by
  constructor
  · intro h
    rw [Reads] at h
    cases v with
    | obj members =>
      rw [load, map_eq_ok_iff] at h
      obtain ⟨b, hb, hmake⟩ := h
      rw [Outcome.toExcept_eq_ok_iff, parts.ofObject_eq_complete_iff] at hb
      exact ⟨_, .object members, b, hb, hmake⟩
    | arr items =>
      rw [load, map_eq_ok_iff] at h
      obtain ⟨b, hb, hmake⟩ := h
      obtain ⟨hlength, hb⟩ := (parts.ofList_eq_ok_iff hkeys).1 hb
      exact ⟨_, .list items hlength, b, hb, hmake⟩
    | _ => cases h
  · rintro ⟨given, hbody, b, hb, hmake⟩
    cases hbody with
    | object members =>
      rw [Reads, load, map_eq_ok_iff]
      refine ⟨b, ?_, hmake⟩
      rwa [Outcome.toExcept_eq_ok_iff, parts.ofObject_eq_complete_iff]
    | list items hlength =>
      rw [Reads, load, map_eq_ok_iff]
      exact ⟨b, (parts.ofList_eq_ok_iff hkeys).2 ⟨hlength, hb⟩, hmake⟩

/-! ### Fields, elements and the parts that records share -/

section Shared

variable {α : Type} {rest : Parts α} {given : String → Option Json}

/-- How a comment and annotations are read. -/
theorem remarks_readFrom_iff {comment? : Option String} {annotations : Annotations} :
    remarks.ReadFrom given (comment?, annotations, ()) ↔
      Optional IsText (given "comment") comment? ∧
        Defaulted IsTexts .empty (given "annotations") annotations := by
  simp only [remarks, annotationsPart, Parts.readFrom_optional, Parts.readFrom_defaulted,
    Parts.readFrom_done, Shape.reads_text, Shape.reads_annotations,
    and_true]

/-- How the least and the largest size are read. -/
theorem sizeRange_readFrom_iff {min? max? : Option UInt32} {a : α} :
    (sizeRange rest).ReadFrom given (min?, max?, a) ↔ Optional IsSize (given "minSize") min? ∧
      Optional IsSize (given "maxSize") max? ∧ rest.ReadFrom given a := by
  simp only [sizeRange, Parts.readFrom_optional, Shape.reads_size]

/-- How a size and its bounds are read. -/
theorem allSizes_readFrom_iff {size? min? max? : Option UInt32} {a : α} :
    (allSizes rest).ReadFrom given (size?, min?, max?, a) ↔
      SizesParts given ⟨size?, min?, max?⟩ ∧ rest.ReadFrom given a := by
  simp only [allSizes, Parts.readFrom_optional, Shape.reads_size, sizeRange_readFrom_iff]
  exact ⟨fun ⟨hsize, hmin, hmax, h⟩ => ⟨⟨hsize, hmin, hmax⟩, h⟩,
    fun ⟨⟨hsize, hmin, hmax⟩, h⟩ => ⟨hsize, hmin, hmax, h⟩⟩

/-- How a reference that may be to anything is read. -/
theorem openReference_readFrom_iff {key reference : String} {a : α} :
    (openReference key rest).ReadFrom given (reference, a) ↔
      Defaulted IsText "Any" (given key) reference ∧ rest.ReadFrom given a := by
  rw [openReference, Parts.readFrom_defaulted, Shape.reads_text, BaseType.name]

/-- How a list that may be empty is read. -/
theorem listPart_readFrom_iff {β : Type} {key : String} {item : Shape β} {as : List β} {a : α} :
    (listPart key item rest).ReadFrom given (as, a) ↔
      Defaulted (IsListOf item.Reads) [] (given key) as ∧ rest.ReadFrom given a := by
  rw [listPart, Parts.readFrom_defaulted, Shape.reads_list]

end Shared

/-- **A field is read as the format says.** -/
theorem Field.reads_shape : Field.shape.Reads = IsFieldBody := by
  funext v f
  rw [Field.shape, Shape.reads_record_iff (by decide)]
  refine propext (exists_congr fun given => and_congr Iff.rfl ?_)
  simp only [remarks, annotationsPart, Parts.readFrom_required, Parts.readFrom_optional,
    Parts.readFrom_defaulted, Parts.readFrom_done, Shape.reads_text, Shape.reads_flag,
    Shape.reads_tree, Shape.reads_annotations, and_true]
  constructor
  · rintro ⟨⟨_, _, _, _, _, _, _, _, ⟨⟩⟩, h, rfl⟩
    obtain ⟨hname, htype, hoptional, hitems, hkeys, hdefault, hcomment, hannotations⟩ := h
    exact ⟨hname, htype, hoptional, hitems, hkeys, hdefault, hcomment, hannotations⟩
  · intro h
    exact ⟨(f.name, f.type, f.optional, f.items?, f.keys?, f.default?, f.comment?, f.annotations,
      ()), ⟨h.name, h.type, h.optional, h.items?, h.keys?, h.default?, h.comment?, h.annotations⟩,
      rfl⟩

/-- **An element is read as the format says.** -/
theorem Element.reads_shape : Element.shape.Reads = IsElementBody := by
  funext v e
  rw [Element.shape, Shape.reads_record_iff (by decide)]
  refine propext (exists_congr fun given => and_congr Iff.rfl ?_)
  simp only [Parts.readFrom_required, Parts.readFrom_optional, Parts.readFrom_done,
    Shape.reads_text, and_true]
  constructor
  · rintro ⟨⟨_, _, ⟨⟩⟩, ⟨hsymbol, hcomment⟩, rfl⟩
    exact ⟨hsymbol, hcomment⟩
  · intro h
    exact ⟨(e.symbol, e.comment?, ()), ⟨h.symbol, h.comment?⟩, rfl⟩

/-! ### Cases -/

/-- A body under a tag is read as a value by the case with this tag. -/
def Cases.Accepts : {α : Type} → Cases α → String → Json → α → Prop
  | _, .none, _, _, _ => False
  | _, .case tag' shape wrap _ _ rest, tag, body, a =>
    (tag = tag' ∧ ∃ b, shape.Reads body b ∧ wrap b = a) ∨ rest.Accepts tag body a

/-- What a case accepts carries the tag of a case. -/
theorem Cases.mem_tags_of_accepts : {α : Type} → (cases : Cases α) → {tag : String} →
    {body : Json} → {a : α} → cases.Accepts tag body a → tag ∈ cases.tags
  | _, .none, _, _, _, h => nomatch h
  | _, .case _ _ _ _ _ rest, _, _, _, h => by
    rcases h with ⟨rfl, _⟩ | h
    · exact List.mem_cons_self
    · exact List.mem_cons_of_mem _ (rest.mem_tags_of_accepts h)

/-- **Behind a tag a body is read by the case of that tag,** since no two cases share one. -/
theorem Cases.ofBody_eq_ok_iff {known : List String} : {α : Type} → (cases : Cases α) →
    cases.tags.Nodup → {tag : String} → {body : Json} → {a : α} →
    (cases.ofBody known tag (some body) = .ok a ↔ cases.Accepts tag body a)
  | _, .none, _, _, _, _ => ⟨nofun, nofun⟩
  | _, .case tag' shape wrap unwrap? _ rest, htags, tag, body, a => by
    obtain ⟨htag', hrest⟩ := List.nodup_cons.1 htags
    rw [Accepts]
    by_cases htag : tag = tag'
    · subst htag
      have hother : ¬ rest.Accepts tag body a := fun h => htag' (rest.mem_tags_of_accepts h)
      rw [ofBody, if_pos rfl, or_iff_left hother, map_eq_ok_iff]
      exact ⟨fun h => ⟨rfl, h⟩, fun h => h.2⟩
    · rw [ofBody_of_ne htag, rest.ofBody_eq_ok_iff hrest]
      exact ⟨.inr, fun h => h.resolve_left fun h => htag h.1⟩

/-- A tag alone is not enough. -/
theorem Cases.ofBody_none_ne_ok {known : List String} : {α : Type} → (cases : Cases α) →
    {tag : String} → {a : α} → cases.ofBody known tag Option.none ≠ .ok a
  | _, .none, _, _ => nofun
  | _, .case tag' _ _ _ _ rest, tag, a => by
    by_cases htag : tag = tag'
    · rw [ofBody, if_pos htag]
      exact nofun
    · rw [ofBody_of_ne htag]
      exact rest.ofBody_none_ne_ok

/-- What has cases is read from an object with the tag of one as its only key. -/
theorem Shape.reads_tagged_iff {α : Type} {cases : Cases α} (htags : cases.tags.Nodup) {v : Json}
    {a : α} : (Shape.tagged cases).Reads v a ↔
      ∃ tag body, v = .obj [(tag, body)] ∧ cases.Accepts tag body a := by
  constructor
  · intro h
    rw [Reads] at h
    cases v with
    | obj members =>
      rcases members with _ | ⟨⟨tag, body⟩, _ | ⟨second, others⟩⟩
      · cases h
      · exact ⟨tag, body, rfl, (cases.ofBody_eq_ok_iff htags).1 h⟩
      · cases h
    | str tag => exact absurd h cases.ofBody_none_ne_ok
    | _ => cases h
  · rintro ⟨tag, body, rfl, h⟩
    exact (cases.ofBody_eq_ok_iff htags).2 h

/-! ### Derivations -/

/-- The cases stand for derivations only, and of those that belong to one of them
they accept the bodies of the format. -/
def Cases.Derives (cases : Cases TypeDef) : Prop :=
  ∀ tag body t, cases.Accepts tag body t ↔ (cases.member? t).isSome ∧
    ∃ d, Format.tag d.detail = tag ∧ IsDerivation body d ∧ .derived d = t

/-- No case derives nothing but what the format says. -/
theorem Cases.derives_none : Cases.none.Derives :=
  fun _ _ _ => ⟨nofun, fun h => nomatch h.1⟩

/-- The parts of a derivation begin with its name and its supertype. -/
def Parts.named {α : Type} (parts : Parts α) : Parts (String × String × α) :=
  .required "name" .text (.required "type" .text parts)

/-- How the name of a definition and the type it derives from are read. -/
theorem Parts.named_readFrom_iff {α : Type} {parts : Parts α} {given : String → Option Json}
    {name type : String} {a : α} : parts.named.ReadFrom given (name, type, a) ↔
      Required IsText (given "name") name ∧ Required IsText (given "type") type ∧
        parts.ReadFrom given a := by
  rw [named, readFrom_required, readFrom_required, Shape.reads_text]

section Kinds

variable {α : Type} {title : String} {parts : Parts α} {wrap : String × String × α → Derivation}
  {unwrap? : Derivation → Option (String × String × α)}
  {wrap_of_unwrap : ∀ d a, unwrap? d = some a → wrap a = d} {rest : Cases TypeDef}

/-- **The case of a kind accepts the derivations of this kind,** provided that its
parts are those of the kind. -/
theorem derivationCase_derives (hnodup : parts.named.keys.Nodup)
    (hkind : ∀ a, unwrap? (wrap a) = some a ∧ tag (wrap a).detail = title ∧
      Format.keys (wrap a).detail = parts.named.keys)
    (hnamed : ∀ name type a,
      (wrap (name, type, a)).name = name ∧ (wrap (name, type, a)).supertype = type)
    (hparts : ∀ given name type a, parts.ReadFrom given a ↔
      OwnParts given (wrap (name, type, a)).detail ∧
        Optional IsText (given "comment") (wrap (name, type, a)).comment? ∧
        Defaulted IsTexts .empty (given "annotations") (wrap (name, type, a)).annotations)
    (hr : rest.Derives) :
    (derivationCase title parts wrap unwrap? wrap_of_unwrap rest).Derives := by
  have hread : ∀ given a, parts.named.ReadFrom given a ↔
      CommonParts given (wrap a) ∧ OwnParts given (wrap a).detail := by
    rintro given ⟨name, type, a⟩
    obtain ⟨hn, hs⟩ := hnamed name type a
    rw [Parts.named_readFrom_iff, hparts given name type]
    constructor
    · rintro ⟨hname, htype, hown, hcomment, hannotations⟩
      exact ⟨⟨hn.symm ▸ hname, hs.symm ▸ htype, hcomment, hannotations⟩, hown⟩
    · rintro ⟨⟨hname, htype, hcomment, hannotations⟩, hown⟩
      exact ⟨hn ▸ hname, hs ▸ htype, hown, hcomment, hannotations⟩
  intro tag body t
  rw [derivationCase, Cases.Accepts, Cases.member?, hr]
  constructor
  · rintro (⟨rfl, b, hb, rfl⟩ | ⟨hmember, hd⟩)
    · obtain ⟨given, hbody, a, h, rfl⟩ := (Shape.reads_record_iff hnodup).1 hb
      obtain ⟨hunwrap, htag, hkeys⟩ := hkind a
      refine ⟨?_, wrap a, htag, ⟨given, hkeys ▸ hbody, (hread given a).1 h⟩, rfl⟩
      simp only [id_eq, hunwrap, Option.isSome_some]
    · refine ⟨?_, hd⟩
      split
      · rfl
      · exact hmember
  · rintro ⟨hmember, d, htag, ⟨given, hbody, h⟩, rfl⟩
    -- A definition of another kind is left to the other cases.
    rcases hu : unwrap? d with _ | a
    · simp only [hu] at hmember
      exact .inr ⟨hmember, d, htag, ⟨given, hbody, h⟩, rfl⟩
    · obtain rfl := wrap_of_unwrap d a hu
      obtain ⟨_, htitle, hkeys⟩ := hkind a
      refine .inl ⟨htag.symm.trans htitle, a, (Shape.reads_record_iff hnodup).2 ?_, rfl⟩
      exact ⟨given, hkeys ▸ hbody, a, (hread given a).2 h, rfl⟩

/-- Synonyms are read as the format says, if the other cases are. -/
theorem aliasCase_derives (hr : rest.Derives) : (aliasCase rest).Derives := by
  refine derivationCase_derives (by decide) (fun _ => ⟨rfl, rfl, rfl⟩) (fun _ _ _ => ⟨rfl, rfl⟩)
    (fun given name type a => ?_) hr
  rw [remarks_readFrom_iff, OwnParts, true_and]

/-- So are texts with bounds. -/
theorem textCase_derives (hr : rest.Derives) : (textCase rest).Derives := by
  refine derivationCase_derives (by decide) (fun _ => ⟨rfl, rfl, rfl⟩) (fun _ _ _ => ⟨rfl, rfl⟩)
    (fun given name type a => ?_) hr
  rw [Parts.readFrom_optional, Parts.readFrom_defaulted, sizeRange_readFrom_iff,
    remarks_readFrom_iff, Shape.reads_list, Shape.reads_text]
  simp only [OwnParts, and_assoc]

/-- So are numbers with bounds. -/
theorem numberCase_derives (hr : rest.Derives) : (numberCase rest).Derives := by
  refine derivationCase_derives (by decide) (fun _ => ⟨rfl, rfl, rfl⟩) (fun _ _ _ => ⟨rfl, rfl⟩)
    (fun given name type a => ?_) hr
  rw [Parts.readFrom_optional, Parts.readFrom_optional, remarks_readFrom_iff, Shape.reads_number]
  simp only [OwnParts, and_assoc]

/-- So are bytes with bounds. -/
theorem bytesCase_derives (hr : rest.Derives) : (bytesCase rest).Derives := by
  refine derivationCase_derives (by decide) (fun _ => ⟨rfl, rfl, rfl⟩) (fun _ _ _ => ⟨rfl, rfl⟩)
    (fun given name type a => ?_) hr
  rw [allSizes_readFrom_iff, remarks_readFrom_iff]
  simp only [OwnParts]

/-- So are structures. -/
theorem structCase_derives (hr : rest.Derives) : (structCase rest).Derives := by
  refine derivationCase_derives (by decide) (fun _ => ⟨rfl, rfl, rfl⟩) (fun _ _ _ => ⟨rfl, rfl⟩)
    (fun given name type a => ?_) hr
  rw [listPart_readFrom_iff, Parts.readFrom_defaulted, remarks_readFrom_iff, Field.reads_shape,
    Shape.reads_flag]
  simp only [OwnParts, and_assoc]

/-- So are arrays. -/
theorem arrayCase_derives (hr : rest.Derives) : (arrayCase rest).Derives := by
  refine derivationCase_derives (by decide) (fun _ => ⟨rfl, rfl, rfl⟩) (fun _ _ _ => ⟨rfl, rfl⟩)
    (fun given name type a => ?_) hr
  rw [openReference_readFrom_iff, allSizes_readFrom_iff, remarks_readFrom_iff]
  simp only [OwnParts, and_assoc]

/-- So are maps. -/
theorem mapCase_derives (hr : rest.Derives) : (mapCase rest).Derives := by
  refine derivationCase_derives (by decide) (fun _ => ⟨rfl, rfl, rfl⟩) (fun _ _ _ => ⟨rfl, rfl⟩)
    (fun given name type a => ?_) hr
  rw [openReference_readFrom_iff, openReference_readFrom_iff, allSizes_readFrom_iff,
    remarks_readFrom_iff]
  simp only [OwnParts, and_assoc]

/-- So are enumerations. -/
theorem enumCase_derives (hr : rest.Derives) : (enumCase rest).Derives := by
  refine derivationCase_derives (by decide) (fun _ => ⟨rfl, rfl, rfl⟩) (fun _ _ _ => ⟨rfl, rfl⟩)
    (fun given name type a => ?_) hr
  rw [listPart_readFrom_iff, remarks_readFrom_iff, Element.reads_shape]
  simp only [OwnParts]

/-- So are unions. -/
theorem unionCase_derives (hr : rest.Derives) : (unionCase rest).Derives := by
  refine derivationCase_derives (by decide) (fun _ => ⟨rfl, rfl, rfl⟩) (fun _ _ _ => ⟨rfl, rfl⟩)
    (fun given name type a => ?_) hr
  rw [listPart_readFrom_iff, remarks_readFrom_iff, Shape.reads_text]
  simp only [OwnParts]

end Kinds

/-! ### Definitions and schemas -/

/-- **Definitions are accepted as the format has them.** -/
theorem TypeDef.reads_shape : TypeDef.shape.Reads = IsDefinition := by
  have hderives := aliasCase_derives <| textCase_derives <| numberCase_derives <|
    bytesCase_derives <| structCase_derives <| arrayCase_derives <| mapCase_derives <|
    enumCase_derives <| unionCase_derives Cases.derives_none
  obtain ⟨htags, hmember, -⟩ := TypeDef.shape_lawful
  funext v t
  refine propext ((Shape.reads_tagged_iff htags).trans ⟨?_, ?_⟩)
  · rintro ⟨tag, body, rfl, ⟨rfl, b, hb, rfl⟩ | h⟩
    · exact .base (Shape.reads_builtin ▸ hb)
    · obtain ⟨-, d, rfl, hd, rfl⟩ := (hderives tag body t).1 h
      exact .derived hd
  · rintro (hb | ⟨hd⟩)
    · exact ⟨_, _, rfl, .inl ⟨rfl, _, Shape.reads_builtin.symm ▸ hb, rfl⟩⟩
    · -- Every derivation has a case, and not that of the built-in types.
      exact ⟨_, _, rfl, .inr ((hderives _ _ _).2 ⟨hmember (.derived _), _, rfl, hd, rfl⟩)⟩

namespace Schema

end Schema

end ResourceSchema
