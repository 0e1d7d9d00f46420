/-
# The unfolding of a reference

What a reference refers to, said without any limit of depth and without an
order of evaluation.  A definition that derives from `Array` refers to the type
of its elements, one that derives from `Map` to the types of its keys and of its
values, and any other to nothing (`Below`).  Following references from a root
either ends everywhere, and then it is a finite tree (`TypeSource.Unfolds`), or
it does not; the references on the way stand at paths of branches
(`TypeSource.Reaches`), and `Precedes` is the depth-first order of these paths.

The last part ties the step of the resolver, `TypeSource.meaning`, to these
relations: it is the only place that looks into it.
-/

import ResourceSchema.TypeExpr.Resolve

namespace ResourceSchema

/-- A definition that is an array of these elements, whatever it derives from. -/
def TypeDef.IsArrayOf (definition : TypeDef) (items : String) : Prop :=
  ∃ name supertype sizes comment? annotations,
    definition = .derived ⟨name, supertype, .array items sizes, comment?, annotations⟩

/-- A definition that is a map of these keys and values, whatever it derives
from. -/
def TypeDef.IsMapOf (definition : TypeDef) (keys items : String) : Prop :=
  ∃ name supertype sizes comment? annotations,
    definition = .derived ⟨name, supertype, .map keys items sizes, comment?, annotations⟩

/-- The element and key types that are given with a reference. -/
structure Given where
  items? : Option String
  keys? : Option String
deriving DecidableEq

/-- Nothing is given with the references inside a definition. -/
def Given.nothing : Given := ⟨none, none⟩

/-- What a type given or not given stands for. -/
inductive StandsFor : Option String → String → Prop
  | absent : StandsFor none "Any"
  | empty : StandsFor (some "") "Any"
  | given {name : String} (h : name ≠ "") : StandsFor (some name) name

/-- A way from a reference to one below it. -/
inductive Branch where
  | element
  | key
  | value
deriving DecidableEq

/-- The references below a definition that derives from a built-in type: its own
where its kind matches, and otherwise those given with the reference to it. -/
inductive Below (given : Given) (definition : TypeDef) : BaseType → Branch → String → Prop
  | ownElement {items : String} (h : definition.IsArrayOf items) :
      Below given definition .array .element items
  | givenElement {items : String} (h : ∀ own, ¬ definition.IsArrayOf own)
      (hi : StandsFor given.items? items) : Below given definition .array .element items
  | ownKey {keys items : String} (h : definition.IsMapOf keys items) :
      Below given definition .map .key keys
  | givenKey {keys : String} (h : ∀ own own', ¬ definition.IsMapOf own own')
      (hk : StandsFor given.keys? keys) : Below given definition .map .key keys
  | ownValue {keys items : String} (h : definition.IsMapOf keys items) :
      Below given definition .map .value items
  | givenValue {items : String} (h : ∀ own own', ¬ definition.IsMapOf own own')
      (hi : StandsFor given.items? items) : Below given definition .map .value items

/-- A finite unfolding of a reference.  A leaf keeps what its token depends on. -/
inductive TypeTree where
  | leaf (reference : String) (definition : TypeDef) (base : BaseType)
  | list (reference : String) (element : TypeTree)
  | map (reference : String) (key value : TypeTree)
deriving DecidableEq

/-- The most collections on a path of a tree. -/
def TypeTree.nesting : TypeTree → Nat
  | leaf _ _ _ => 0
  | list _ element => element.nesting + 1
  | map _ key value => max key.nesting value.nesting + 1

namespace TypeSource

/-- A reference that is found and has a base type refers to another. -/
def RefersTo (source : TypeSource) (given : Given) (reference : String) (branch : Branch)
    (child : String) : Prop :=
  ∃ definition base, source.find? reference = some definition ∧
    source.base? definition = some base ∧ Below given definition base branch child

/-- A reference unfolds to a finite tree: every reference in it is found and has
a base type, and only what derives from `Array` or `Map` has anything below. -/
inductive Unfolds (source : TypeSource) : Given → String → TypeTree → Prop
  | leaf {given : Given} {reference : String} {definition : TypeDef} {base : BaseType}
      (hf : source.find? reference = some definition) (hb : source.base? definition = some base)
      (ha : base ≠ .array) (hm : base ≠ .map) :
      Unfolds source given reference (.leaf reference definition base)
  | list {given : Given} {reference element : String} {tree : TypeTree}
      (h : source.RefersTo given reference .element element)
      (ht : Unfolds source .nothing element tree) :
      Unfolds source given reference (.list reference tree)
  | map {given : Given} {reference key value : String} {keyTree valueTree : TypeTree}
      (hk : source.RefersTo given reference .key key)
      (hv : source.RefersTo given reference .value value)
      (hkt : Unfolds source .nothing key keyTree)
      (hvt : Unfolds source .nothing value valueTree) :
      Unfolds source given reference (.map reference keyTree valueTree)

/-- Following a path of branches from a root leads to a reference.  Each branch
passes one collection, so the path's length is the depth of nesting. -/
inductive Reaches (source : TypeSource) : Given → String → List Branch → String → Prop
  | here {given : Given} {reference : String} : Reaches source given reference [] reference
  | through {given : Given} {reference child target : String} {branch : Branch}
      {path : List Branch} (h : source.RefersTo given reference branch child)
      (ht : Reaches source .nothing child path target) :
      Reaches source given reference (branch :: path) target

end TypeSource

/-- The depth-first order of paths: a reference comes before what is below it,
and what is below a map's key before what is below its value. -/
inductive Precedes : List Branch → List Branch → Prop
  | root {branch : Branch} {path : List Branch} : Precedes [] (branch :: path)
  | keyFirst {path path' : List Branch} : Precedes (.key :: path) (.value :: path')
  | under {branch : Branch} {path path' : List Branch} (h : Precedes path path') :
      Precedes (branch :: path) (branch :: path')

/-- The built-in type that a definition with such a branch derives from. -/
def Branch.base : Branch → BaseType
  | element => .array
  | key | value => .map

/-! ### What is below a definition -/

/-- What is given stands for itself, and nothing for anything. -/
theorem standsFor_iff {given? : Option String} {name : String} :
    StandsFor given? name ↔ givenOrAny given? = name := by
  constructor
  · rintro (_ | _ | h)
    · rfl
    · rfl
    · exact if_neg h
  · rintro rfl
    rcases given? with _ | g
    · exact .absent
    · by_cases hg : g = ""
      · subst hg
        exact .empty
      · rw [givenOrAny, if_neg hg]
        exact .given hg

/-- A definition tells its items exactly if it is an array of them. -/
theorem TypeDef.arrayItems?_eq_some_iff {d : TypeDef} {items : String} :
    d.arrayItems? = some items ↔ d.IsArrayOf items := by
  constructor
  · intro h
    unfold arrayItems? at h
    split at h
    · obtain rfl := Option.some.inj h
      exact ⟨_, _, _, _, _, rfl⟩
    · cases h
  · rintro ⟨_, _, _, _, _, rfl⟩
    rfl

/-- A definition tells its keys and items exactly if it is a map of them. -/
theorem TypeDef.mapParts?_eq_some_iff {d : TypeDef} {keys items : String} :
    d.mapParts? = some (keys, items) ↔ d.IsMapOf keys items := by
  constructor
  · intro h
    unfold mapParts? at h
    split at h
    · cases h
      exact ⟨_, _, _, _, _, rfl⟩
    · cases h
  · rintro ⟨_, _, _, _, _, rfl⟩
    rfl

/-- A definition that tells no items is no array. -/
theorem TypeDef.arrayItems?_eq_none_iff {d : TypeDef} :
    d.arrayItems? = none ↔ ∀ own, ¬ d.IsArrayOf own := by
  simp only [Option.eq_none_iff_forall_ne_some, ne_eq, TypeDef.arrayItems?_eq_some_iff]

/-- A definition that tells no keys and items is no map. -/
theorem TypeDef.mapParts?_eq_none_iff {d : TypeDef} :
    d.mapParts? = none ↔ ∀ own own', ¬ d.IsMapOf own own' := by
  simp only [Option.eq_none_iff_forall_ne_some, ne_eq, Prod.forall,
    TypeDef.mapParts?_eq_some_iff]

section Below

variable {given : Given} {d : TypeDef} {base : BaseType} {branch : Branch} {a b : String}

/-- What the element of an array is: its own items, or else those that are given. -/
theorem below_element_iff : Below given d .array .element a ↔
    d.arrayItems?.getD (givenOrAny given.items?) = a := by
  constructor
  · rintro (h | ⟨h, hi⟩)
    · rw [TypeDef.arrayItems?_eq_some_iff.2 h, Option.getD_some]
    · rw [TypeDef.arrayItems?_eq_none_iff.2 h, Option.getD_none]
      exact standsFor_iff.1 hi
  · rintro rfl
    rcases h : d.arrayItems? with _ | own
    · exact .givenElement (TypeDef.arrayItems?_eq_none_iff.1 h) (standsFor_iff.2 rfl)
    · exact .ownElement (TypeDef.arrayItems?_eq_some_iff.1 h)

/-- What the key of a map is: its own keys, or else those that are given. -/
theorem below_key_iff : Below given d .map .key a ↔
    (d.mapParts?.getD (givenOrAny given.keys?, givenOrAny given.items?)).1 = a := by
  constructor
  · rintro (_ | _ | h | ⟨h, hk⟩)
    · rw [TypeDef.mapParts?_eq_some_iff.2 h, Option.getD_some]
    · rw [TypeDef.mapParts?_eq_none_iff.2 h, Option.getD_none]
      exact standsFor_iff.1 hk
  · rintro rfl
    rcases h : d.mapParts? with _ | own
    · exact .givenKey (TypeDef.mapParts?_eq_none_iff.1 h) (standsFor_iff.2 rfl)
    · exact .ownKey (TypeDef.mapParts?_eq_some_iff.1 h)

/-- What the value of a map is: its own items, or else those that are given. -/
theorem below_value_iff : Below given d .map .value a ↔
    (d.mapParts?.getD (givenOrAny given.keys?, givenOrAny given.items?)).2 = a := by
  constructor
  · rintro (_ | _ | _ | _ | h | ⟨h, hi⟩)
    · rw [TypeDef.mapParts?_eq_some_iff.2 h, Option.getD_some]
    · rw [TypeDef.mapParts?_eq_none_iff.2 h, Option.getD_none]
      exact standsFor_iff.1 hi
  · rintro rfl
    rcases h : d.mapParts? with _ | own
    · exact .givenValue (TypeDef.mapParts?_eq_none_iff.1 h) (standsFor_iff.2 rfl)
    · exact .ownValue (TypeDef.mapParts?_eq_some_iff.1 h)

/-- What has a branch derives from the collection that has it. -/
theorem Below.base_eq (h : Below given d base branch a) : base = branch.base := by
  cases h <;> rfl

/-- A branch leads to one reference. -/
theorem Below.unique (ha : Below given d base branch a) (hb : Below given d base branch b) :
    a = b := by
  obtain rfl := ha.base_eq
  cases branch with
  | element => exact (below_element_iff.1 ha).symm.trans (below_element_iff.1 hb)
  | key => exact (below_key_iff.1 ha).symm.trans (below_key_iff.1 hb)
  | value => exact (below_value_iff.1 ha).symm.trans (below_value_iff.1 hb)

end Below

namespace TypeSource

variable {source : TypeSource} {given : Given} {reference : String}

/-- What branches off a reference tells what it derives from. -/
theorem RefersTo.base_eq {d : TypeDef} {base : BaseType} {branch : Branch} {child : String}
    (h : source.RefersTo given reference branch child) (hf : source.find? reference = some d)
    (hb : source.base? d = some base) : base = branch.base := by
  obtain ⟨d', base', hf', hb', h⟩ := h
  obtain rfl := Option.some.inj (hf.symm.trans hf')
  obtain rfl := Option.some.inj (hb.symm.trans hb')
  exact h.base_eq

/-- A branch of a reference leads to one reference. -/
theorem RefersTo.unique {a b : String} {branch : Branch}
    (ha : source.RefersTo given reference branch a)
    (hb : source.RefersTo given reference branch b) : a = b := by
  obtain ⟨d, base, hf, hbase, ha⟩ := ha
  obtain ⟨d', base', hf', hbase', hb⟩ := hb
  obtain rfl := Option.some.inj (hf.symm.trans hf')
  obtain rfl := Option.some.inj (hbase.symm.trans hbase')
  exact ha.unique hb

/-- All branches of a reference are those of one kind of collection. -/
theorem RefersTo.same_base {a b : String} {branch branch' : Branch}
    (ha : source.RefersTo given reference branch a)
    (hb : source.RefersTo given reference branch' b) : branch.base = branch'.base := by
  obtain ⟨d, base, hf, hbase, ha⟩ := ha
  exact ha.base_eq.symm.trans (hb.base_eq hf hbase)

/-! ### One step of the resolver -/

/-- What the resolver's step can find a reference to be. -/
inductive Step (source : TypeSource) (given : Given) (reference : String) :
    Except GenerateError Meaning → Prop
  | unknown (hf : source.find? reference = none) :
      Step source given reference (.error (.unknownType reference))
  | noBase {definition : TypeDef} (hf : source.find? reference = some definition)
      (hb : source.base? definition = none) :
      Step source given reference (.error (.noBaseType reference))
  | scalar {definition : TypeDef} {base : BaseType}
      (hf : source.find? reference = some definition) (hb : source.base? definition = some base)
      (ha : base ≠ .array) (hm : base ≠ .map) :
      Step source given reference (.ok (.scalar (scalarTokens reference definition base)))
  | list {element : String} (h : source.RefersTo given reference .element element) :
      Step source given reference (.ok (.list element))
  | map {key value : String} (hk : source.RefersTo given reference .key key)
      (hv : source.RefersTo given reference .value value) :
      Step source given reference (.ok (.map key value))

/-- **What a reference means,** case by case. -/
theorem step_meaning (source : TypeSource) (given : Given) (reference : String) :
    Step source given reference (source.meaning reference given.items? given.keys?) := by
  unfold meaning
  split
  · exact .unknown ‹_›
  · rename_i d hf
    split
    · exact .noBase hf ‹_›
    · rename_i base hb
      cases base
      case array => exact .list ⟨d, .array, hf, hb, below_element_iff.2 rfl⟩
      case map =>
        exact .map ⟨d, .map, hf, hb, below_key_iff.2 rfl⟩ ⟨d, .map, hf, hb, below_value_iff.2 rfl⟩
      all_goals exact .scalar hf hb (by decide) (by decide)

/-- A reference to what is no collection means a scalar. -/
theorem meaning_of_scalar {definition : TypeDef} {base : BaseType}
    (hf : source.find? reference = some definition) (hb : source.base? definition = some base)
    (ha : base ≠ .array) (hm : base ≠ .map) :
    source.meaning reference given.items? given.keys? =
      .ok (.scalar (scalarTokens reference definition base)) := by
  simp only [meaning, hf, hb]
  cases base <;> first | rfl | exact absurd rfl ha | exact absurd rfl hm

/-- A reference with an element means a list of it. -/
theorem meaning_of_element {element : String}
    (h : source.RefersTo given reference .element element) :
    source.meaning reference given.items? given.keys? = .ok (.list element) := by
  obtain ⟨d, base, hf, hb, h⟩ := h
  obtain rfl := h.base_eq
  simp only [meaning, hf, hb, Branch.base, TypeDef.meaning, below_element_iff.1 h]

/-- A reference with a key and a value means a map from one to the other. -/
theorem meaning_of_key_value {key value : String}
    (hk : source.RefersTo given reference .key key)
    (hv : source.RefersTo given reference .value value) :
    source.meaning reference given.items? given.keys? = .ok (.map key value) := by
  obtain ⟨d, base, hf, hb, hk⟩ := hk
  obtain ⟨d', base', hf', hb', hv⟩ := hv
  obtain rfl := Option.some.inj (hf.symm.trans hf')
  obtain rfl := hk.base_eq
  obtain rfl := hv.base_eq
  simp only [meaning, hf, hb, Branch.base, TypeDef.meaning, below_key_iff.1 hk,
    below_value_iff.1 hv]

end TypeSource

end ResourceSchema
