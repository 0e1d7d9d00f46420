/-
# The first definition of a name is the registered one

A registry keeps definitions and an index from names to positions, and every
answer goes through the index.  `Registry.Holds` ties the two to the list of
all definitions that were ever offered: the index has a position under a name
exactly when the definition stored there has it, and the stored definition of a
name is the first one offered.  One `add` keeps that (`Registry.Holds.add`), and
so does a run of any length (`Registry.Holds.addAll`).

`Registry.Reflects` is what a registry is to those who look into it after a run
that starts with the built-in types: lookup is a search in the list of the
built-in types and all definitions offered, and nothing that is offered later
changes what it finds.
-/

import Mathlib.Data.Finset.Card
import ResourceSchema.Registry.Source

namespace ResourceSchema

namespace Registry

/-- A registry to which these definitions were offered, and no others. -/
structure Holds (r : Registry) (offered : List TypeDef) : Prop where
  index_iff (name : String) (position : Nat) : r.index[name]? = some position ↔
    ∃ d, r.types[position]? = some d ∧ d.name = name
  stored (name : String) :
    r.types.toList.find? (·.name = name) = offered.find? (·.name = name)

/-- The built-in types as definitions, in their fixed order. -/
def builtinTypes : List TypeDef := BaseType.all.map .base

variable {r : Registry} {offered : List TypeDef} {name : String} {d : TypeDef}

/-- What a name leads to after an insertion, with names compared by equality. -/
theorem getElem?_index_insert (m : Std.TreeMap String Nat) (key other : String) (position : Nat) :
    (m.insert key position)[other]? = if key = other then some position else m[other]? := by
  simp [Std.TreeMap.getElem?_insert]

/-- A name is registered exactly if the index has a position for it. -/
theorem has_iff_index (r : Registry) (name : String) :
    r.has name = true ↔ ∃ position, r.index[name]? = some position := by
  rw [has, Std.TreeMap.contains_eq_isSome_getElem?, Option.isSome_iff_exists]

/-! ### What one registration does -/

/-- A definition of a registered name is turned away. -/
theorem add_of_has (h : r.has d.name = true) : r.add d = (false, r) := if_pos h

/-- A definition of a new name is put behind the others. -/
theorem add_of_not_has (h : ¬ r.has d.name = true) :
    r.add d = (true, ⟨r.types.push d, r.index.insert d.name r.types.size⟩) := if_neg h

/-- **A definition is added exactly if its name is new.** -/
theorem add_fst_eq_true_iff : (r.add d).1 = true ↔ ¬ r.has d.name = true := by
  by_cases h : r.has d.name = true
  · rw [add_of_has h]
    exact ⟨nofun, fun hn => absurd h hn⟩
  · rw [add_of_not_has h]
    exact ⟨fun _ => h, fun _ => rfl⟩

/-- Adding keeps what is registered, at its positions. -/
theorem types_prefix_add (r : Registry) (d : TypeDef) :
    r.types.toList <+: (r.add d).2.types.toList := by
  by_cases h : r.has d.name = true
  · rw [add_of_has h]
  · rw [add_of_not_has h, Array.toList_push]
    exact List.prefix_append _ _

/-- So does adding many. -/
theorem types_prefix_addAll (r : Registry) (ds : List TypeDef) :
    r.types.toList <+: (r.addAll ds).types.toList := by
  induction ds generalizing r with
  | nil => exact List.prefix_refl _
  | cons d ds ih => exact (types_prefix_add r d).trans (ih _)

/-- Adding definitions and then others is adding all of them. -/
theorem addAll_append (r : Registry) (ds ds' : List TypeDef) :
    r.addAll (ds ++ ds') = (r.addAll ds).addAll ds' :=
  List.foldl_append

/-! ### What a registry holds -/

namespace Holds

/-- A name is registered exactly if a stored definition has it. -/
theorem has_iff_stored (h : r.Holds offered) :
    r.has name = true ↔ ∃ d ∈ r.types.toList, d.name = name := by
  rw [has_iff_index]
  constructor
  · rintro ⟨position, hi⟩
    obtain ⟨d, hd, hn⟩ := (h.index_iff name position).1 hi
    exact ⟨d, Array.mem_toList_iff.2 (Array.mem_of_getElem? hd), hn⟩
  · rintro ⟨d, hd, hn⟩
    obtain ⟨position, hp⟩ := Array.mem_iff_getElem?.1 (Array.mem_toList_iff.1 hd)
    exact ⟨position, (h.index_iff name position).2 ⟨d, hp, hn⟩⟩

/-- The same names are stored as were offered. -/
theorem exists_stored_iff (h : r.Holds offered) :
    (∃ d ∈ r.types.toList, d.name = name) ↔ ∃ d ∈ offered, d.name = name := by
  have hs := congrArg Option.isSome (h.stored name)
  rw [Bool.eq_iff_iff, List.find?_isSome, List.find?_isSome] at hs
  simpa only [decide_eq_true_eq] using hs

/-- **A name is registered exactly if a definition of it was offered.** -/
theorem has_iff (h : r.Holds offered) : r.has name = true ↔ ∃ d ∈ offered, d.name = name :=
  h.has_iff_stored.trans h.exists_stored_iff

/-- No two stored definitions have one name. -/
theorem position_unique (h : r.Holds offered) {i j : Nat} {d e : TypeDef}
    (hi : r.types[i]? = some d) (hj : r.types[j]? = some e) (hn : d.name = e.name) : i = j := by
  have hi' := (h.index_iff e.name i).2 ⟨d, hi, hn⟩
  have hj' := (h.index_iff e.name j).2 ⟨e, hj, rfl⟩
  exact Option.some.inj (hi'.symm.trans hj')

/-- No two stored definitions share a name. -/
theorem names_nodup (h : r.Holds offered) : (r.types.toList.map TypeDef.name).Nodup := by
  rw [List.nodup_iff_getElem?_ne_getElem?]
  intro i j hij hj hn
  rw [List.length_map] at hj
  have hi : i < r.types.toList.length := Nat.lt_trans hij hj
  rw [List.getElem?_map, List.getElem?_map, List.getElem?_eq_getElem hi,
    List.getElem?_eq_getElem hj, Option.map_some, Option.map_some, Option.some.injEq] at hn
  have hi' : r.types[i]? = some r.types.toList[i] := Array.getElem?_eq_some_iff.2 ⟨hi, rfl⟩
  have hj' : r.types[j]? = some r.types.toList[j] := Array.getElem?_eq_some_iff.2 ⟨hj, rfl⟩
  exact absurd (h.position_unique hi' hj' hn) (Nat.ne_of_lt hij)

/-- **Lookup is a search among the definitions offered.** -/
theorem find?_eq (h : r.Holds offered) (name : String) :
    r.find? name = offered.find? (·.name = name) := by
  rw [← h.stored]
  unfold Registry.find?
  rcases hi : r.index[name]? with _ | position
  · have hn : ¬ ∃ d ∈ r.types.toList, d.name = name := by
      rw [← h.has_iff_stored, has_iff_index, hi]
      exact fun ⟨_, hp⟩ => nomatch hp
    refine (List.find?_eq_none.2 fun d hd hdn => hn ⟨d, hd, ?_⟩).symm
    exact of_decide_eq_true hdn
  · obtain ⟨d, hd, hn⟩ := (h.index_iff name position).1 hi
    obtain ⟨hlt, hget⟩ := Array.getElem?_eq_some_iff.1 hd
    refine hd.trans (Eq.symm ?_)
    rw [List.find?_eq_some_iff_getElem]
    refine ⟨decide_eq_true hn, position, hlt, hget, fun j hj => ?_⟩
    have hjlt : j < r.types.toList.length := Nat.lt_trans hj hlt
    have hne : ¬ r.types.toList[j].name = name := by
      intro hjn
      have hjd : r.types[j]? = some r.types.toList[j] := Array.getElem?_eq_some_iff.2 ⟨hjlt, rfl⟩
      exact absurd (h.position_unique hjd hd (hjn.trans hn.symm)) (Nat.ne_of_lt hj)
    simpa using hne

/-- As many definitions are stored as names were offered. -/
theorem size_eq (h : r.Holds offered) : r.size = (offered.map TypeDef.name).toFinset.card := by
  have hnames : (r.types.toList.map TypeDef.name).toFinset =
      (offered.map TypeDef.name).toFinset := by
    ext name
    simp only [List.mem_toFinset, List.mem_map]
    exact h.exists_stored_iff
  rw [← hnames, List.toFinset_card_of_nodup h.names_nodup, List.length_map, Array.length_toList,
    size]

/-- A name that is taken changes neither what is stored nor what was offered
first. -/
theorem add_of_has (h : r.Holds offered) (htaken : r.has d.name = true) :
    r.Holds (offered ++ [d]) := by
  refine ⟨h.index_iff, fun name => ?_⟩
  rw [h.stored, List.find?_append, List.find?_singleton]
  by_cases hn : d.name = name
  · obtain ⟨e, he, hen⟩ := h.has_iff.1 htaken
    have hsome : (offered.find? (·.name = name)).isSome = true :=
      List.find?_isSome.2 ⟨e, he, decide_eq_true (hen.trans hn)⟩
    rw [Option.or_of_isSome hsome]
  · rw [if_neg (by simpa using hn), Option.or_none]

/-- A new name is stored at the end, where the index says it is. -/
theorem push (h : r.Holds offered) (hnew : ¬ r.has d.name = true) :
    Holds ⟨r.types.push d, r.index.insert d.name r.types.size⟩ (offered ++ [d]) := by
  refine ⟨fun name position => ?_, fun name => ?_⟩
  · rw [getElem?_index_insert, Array.getElem?_push]
    by_cases hp : position = r.types.size
    · -- Only the new definition is stored there, and no name led there before.
      have hnone : r.types[position]? = none := Array.getElem?_eq_none_iff.2 (Nat.le_of_eq hp.symm)
      have hindex : r.index[name]? ≠ some position := by
        intro hi
        obtain ⟨e, he, _⟩ := (h.index_iff name position).1 hi
        rw [hnone] at he
        cases he
      by_cases hn : d.name = name
      · simp [hp, hn]
      · simp [hp, hn, hp ▸ hindex]
    · rw [if_neg hp, ← h.index_iff]
      by_cases hn : d.name = name
      · have hindex : r.index[name]? ≠ some position := by
          intro hi
          exact hnew ((has_iff_index r d.name).2 ⟨position, hn ▸ hi⟩)
        simp [hn, Ne.symm hp, hindex]
      · rw [if_neg hn]
  · rw [Array.toList_push, List.find?_append, List.find?_append, h.stored]

/-- **Registering a definition.**  The step of every run. -/
theorem add (h : r.Holds offered) (d : TypeDef) : (r.add d).2.Holds (offered ++ [d]) := by
  by_cases htaken : r.has d.name = true
  · rw [Registry.add_of_has htaken]
    exact h.add_of_has htaken
  · rw [add_of_not_has htaken]
    exact h.push htaken

/-- **Registering definitions one after another.** -/
theorem addAll (h : r.Holds offered) (ds : List TypeDef) : (r.addAll ds).Holds (offered ++ ds) := by
  induction ds generalizing r offered with
  | nil => rwa [List.append_nil]
  | cons d ds ih =>
    rw [← List.singleton_append, ← List.append_assoc]
    exact ih (h.add d)

/-- Definitions of new and different names are all stored, in order. -/
theorem types_addAll (h : r.Holds offered) {ds : List TypeDef}
    (hnew : ((offered ++ ds).map TypeDef.name).Nodup) :
    (r.addAll ds).types.toList = r.types.toList ++ ds := by
  induction ds generalizing r offered with
  | nil => rw [List.append_nil]; rfl
  | cons d ds ih =>
    have hfree : ¬ r.has d.name = true := by
      rw [h.has_iff]
      rintro ⟨e, he, hn⟩
      rw [List.map_append, List.nodup_append] at hnew
      exact hnew.2.2 e.name (List.mem_map_of_mem he) d.name (List.mem_map_of_mem List.mem_cons_self)
        hn
    rw [← List.singleton_append, ← List.append_assoc] at hnew
    have hrest := ih (h.add d) hnew
    rw [add_of_not_has hfree, Array.toList_push, List.append_assoc] at hrest
    rw [Registry.addAll, List.foldl_cons, add_of_not_has hfree]
    exact hrest

end Holds

/-! ### Runs that start with the built-in types -/

/-- The empty registry holds what is offered to it, which is nothing. -/
theorem holds_empty : empty.Holds [] :=
  ⟨fun name position => by simp [empty], fun _ => rfl⟩

/-- A registry of the built-in types holds these. -/
theorem holds_builtin : builtin.Holds builtinTypes := holds_empty.addAll builtinTypes

/-- **Every run from the built-in types on holds them and what was offered.** -/
theorem holds_addAll_builtin (offered : List TypeDef) :
    (builtin.addAll offered).Holds (builtinTypes ++ offered) :=
  holds_builtin.addAll offered

/-- The built-in types are stored in their order. -/
theorem types_builtin : builtin.types.toList = builtinTypes := by
  have hnames : (([] ++ builtinTypes).map TypeDef.name).Nodup := by decide
  exact holds_empty.types_addAll hnames

/-- What a registry is to those who look into it, after these definitions were
offered to the one of the built-in types. -/
structure Reflects (r : Registry) (offered : List TypeDef) : Prop where
  index_iff (name : String) (position : Nat) : r.index[name]? = some position ↔
    ∃ d, r.types[position]? = some d ∧ d.name = name
  names_nodup : (r.types.toList.map TypeDef.name).Nodup
  builtin_first : r.types.toList.take 18 = builtinTypes
  find?_eq (name : String) : r.find? name = (builtinTypes ++ offered).find? (·.name = name)
  has_eq (name : String) : r.has name = (r.find? name).isSome
  size_eq : r.size = ((builtinTypes ++ offered).map TypeDef.name).toFinset.card
  added_iff (d : TypeDef) : (r.add d).1 = true ↔ ∀ e ∈ builtinTypes ++ offered, e.name ≠ d.name
  unchanged (d : TypeDef) : (r.add d).1 = false → (r.add d).2 = r
  builtin_kept (b : BaseType) : r.find? b.name = some (.base b)

/-- A built-in type is found among them by its name. -/
theorem find?_builtinTypes (b : BaseType) :
    builtinTypes.find? (·.name = b.name) = some (.base b) := by
  cases b <;> rfl

/-- **In a schema a name means its first definition,** the built-in types standing before all
others. -/
theorem find?_ofSchema (schema : Schema) (name : String) :
    (ofSchema schema).find? name = (builtinTypes ++ schema.types).find? (·.name = name) :=
  (holds_addAll_builtin schema.types).find?_eq name

/-- No definition of a schema hides a built-in type. -/
theorem find?_ofSchema_builtin (schema : Schema) (b : BaseType) :
    (ofSchema schema).find? b.name = some (.base b) := by
  rw [find?_ofSchema, List.find?_append, find?_builtinTypes, Option.some_or]

/-- What is found under a name has it. -/
theorem name_of_find?_ofSchema {schema : Schema} (h : (ofSchema schema).find? name = some d) :
    d.name = name := by
  rw [find?_ofSchema] at h
  simpa using List.find?_some h

/-- What is found is built in or stands in the schema. -/
theorem mem_of_find?_ofSchema {schema : Schema} (h : (ofSchema schema).find? name = some d) :
    (∃ b, d = .base b) ∨ d ∈ schema.types := by
  rw [find?_ofSchema] at h
  rcases List.mem_append.1 (List.mem_of_find?_eq_some h) with hbuiltin | hown
  · obtain ⟨b, -, rfl⟩ := List.mem_map.1 hbuiltin
    exact .inl ⟨b, rfl⟩
  · exact .inr hown

/-- A registry that holds what was offered after the built-in types reflects it. -/
theorem Holds.reflects (h : r.Holds (builtinTypes ++ offered))
    (hfirst : builtinTypes <+: r.types.toList) : r.Reflects offered where
  index_iff := h.index_iff
  names_nodup := h.names_nodup
  builtin_first := (List.prefix_iff_eq_take.1 hfirst).symm
  find?_eq := h.find?_eq
  has_eq name := by
    rw [Bool.eq_iff_iff, h.has_iff, h.find?_eq, List.find?_isSome]
    simp only [decide_eq_true_eq]
  size_eq := h.size_eq
  added_iff d := by
    rw [add_fst_eq_true_iff, h.has_iff]
    exact ⟨fun hn e he hname => hn ⟨e, he, hname⟩, fun hn ⟨e, he, hname⟩ => hn e he hname⟩
  unchanged d hd := by
    by_cases htaken : r.has d.name = true
    · rw [Registry.add_of_has htaken]
    · rw [add_of_not_has htaken] at hd
      cases hd
  builtin_kept b := by
    rw [h.find?_eq, List.find?_append, find?_builtinTypes, Option.some_or]

/-- **The first definition of a name is the registered one.**  It is so at every
point of every run from the built-in types, and in the registry of every
schema. -/
theorem reflects_run (offered : List TypeDef) :
    (builtin.addAll offered).Reflects offered ∧
      (∀ d, ((builtin.addAll offered).add d).2 = builtin.addAll (offered ++ [d])) ∧
      ∀ schema : Schema, (ofSchema schema).Reflects schema.types := by
  have hrun (ds : List TypeDef) : (builtin.addAll ds).Reflects ds :=
    (holds_addAll_builtin ds).reflects (types_builtin ▸ types_prefix_addAll builtin ds)
  refine ⟨hrun offered, fun d => ?_, fun schema => hrun schema.types⟩
  rw [addAll_append]
  rfl

end Registry

end ResourceSchema
