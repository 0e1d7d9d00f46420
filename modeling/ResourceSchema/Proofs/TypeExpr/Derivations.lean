/-
# What a derivation inherits

A definition derives from another, that one from a third, and so on to a
built-in type.  The resolver looks at both ends of this chain and at nothing in
between: at the definition itself, and at the built-in type.

`Registry.only_base_counts` says what is left of the definition.  If it derives
from a built-in type that is `isNominal`, only its name is: it is a class that
is called so.  Otherwise only its element, key and value types are, and these
only if it is an array that derives from `Array` or a map that derives from `Map`
(`TypeDef.HasOwnParts`).  Everything else is written like the built-in type,
whatever stands on the chain.  So a synonym of an array forgets the elements of
the array and takes those that are given with it.
-/

import ResourceSchema.Proofs.Registry.FirstDefinition
import ResourceSchema.Proofs.TypeExpr.Unfolding

namespace ResourceSchema

/-- Whether what derives from a built-in type is known by its own name. -/
def BaseType.isNominal : BaseType → Bool
  | bytes | struct | enum | union => true
  | _ => false

/-- A definition that derives from `base` and brings the element, key or value
types that are followed in it. -/
def TypeDef.HasOwnParts (definition : TypeDef) : BaseType → Prop
  | .array => ∃ items, definition.IsArrayOf items
  | .map => ∃ keys items, definition.IsMapOf keys items
  | _ => False

/-- A built-in type has no parts of its own. -/
theorem TypeDef.not_hasOwnParts_base (b base : BaseType) : ¬ (TypeDef.base b).HasOwnParts base := by
  cases base
  case array => exact fun ⟨_, _, _, _, _, _, h⟩ => nomatch h
  case map => exact fun ⟨_, _, _, _, _, _, _, h⟩ => nomatch h
  all_goals exact id

variable {d e : TypeDef} {base : BaseType} {items? keys? : Option String}

/-- **What has no name and no parts of its own** stands for what its built-in type
makes of the types given with it. -/
theorem TypeDef.meaning_eq_of_same_base (hbase : base.isNominal = false)
    (hd : ¬ d.HasOwnParts base) (he : ¬ e.HasOwnParts base) (a b : String) :
    d.meaning a items? keys? base = e.meaning b items? keys? base := by
  cases base
  case array =>
    rw [meaning, meaning, arrayItems?_eq_none_iff.2 (not_exists.1 hd),
      arrayItems?_eq_none_iff.2 (not_exists.1 he)]
  case map =>
    rw [meaning, meaning, mapParts?_eq_none_iff.2 fun keys => not_exists.1 (not_exists.1 hd keys),
      mapParts?_eq_none_iff.2 fun keys => not_exists.1 (not_exists.1 he keys)]
  case bytes | struct | enum | union => cases hbase
  all_goals rfl

/-- A derivation of a nominal type is written by its name, unless it is itself
called `Struct`. -/
theorem scalarTokens_eq_same (hbase : base.isNominal = true) (hd : d.name ≠ "Struct")
    (reference : String) : scalarTokens reference d base = .same reference := by
  cases base
  case struct => exact if_neg hd
  case bytes | enum | union => rfl
  all_goals cases hbase

namespace TypeSource

variable {source : TypeSource} {a b : String}

/-- References that stand for the same are resolved alike. -/
theorem resolve_eq_of_meaning_eq
    (h : source.meaning a items? keys? = source.meaning b items? keys?) (optional : Bool) :
    source.resolve a optional items? keys? = source.resolve b optional items? keys? := by
  rw [resolve, resolve, resolveWithin, resolveWithin, h]

/-- A reference that is found means what its definition and its base say. -/
theorem meaning_of_found (hf : source.find? a = some d) (hb : source.base? d = some base) :
    source.meaning a items? keys? = .ok (d.meaning a items? keys? base) := by
  simp only [meaning, hf, hb]

/-- A reference that is no collection is resolved to its token. -/
theorem resolve_of_scalar (hf : source.find? a = some d) (hb : source.base? d = some base)
    (harray : base ≠ .array) (hmap : base ≠ .map) (optional : Bool) :
    source.resolve a optional items? keys? =
      .ok (.token ((scalarTokens a d base).pick optional)) := by
  have hmeaning := @meaning_of_scalar source ⟨items?, keys?⟩ a d base hf hb harray hmap
  rw [resolve, resolveWithin, hmeaning]

end TypeSource

namespace Registry

variable {schema : Schema} {reference : String}

/-- **Only the base type counts.**  A reference that derives from a nominal type is
resolved to its own name, except `Struct` itself, which is an `Object`.  Any other
without parts of its own is resolved like the built-in type it derives from, to
the same expression or to the same error. -/
theorem only_base_counts (hf : (ofSchema schema).find? reference = some d)
    (hb : (ofSchema schema).base? d = some base) (optional : Bool)
    (items? keys? : Option String) :
    (base.isNominal = false → ¬ d.HasOwnParts base →
      (ofSchema schema).source.resolve reference optional items? keys? =
        (ofSchema schema).source.resolve base.name optional items? keys?) ∧
    (base.isNominal = true → reference ≠ "Struct" →
      (ofSchema schema).source.resolve reference optional items? keys? =
        .ok (.token reference)) ∧
    (reference = "Struct" →
      (ofSchema schema).source.resolve reference optional items? keys? =
        .ok (.token "Object")) := by
  refine ⟨fun hbase hd => ?_, fun hbase hreference => ?_, fun hreference => ?_⟩
  · have hbuiltin : (ofSchema schema).source.find? base.name = some (.base base) :=
      find?_ofSchema_builtin schema base
    refine TypeSource.resolve_eq_of_meaning_eq ?_ optional
    rw [TypeSource.meaning_of_found hf hb, TypeSource.meaning_of_found hbuiltin rfl,
      TypeDef.meaning_eq_of_same_base hbase hd (TypeDef.not_hasOwnParts_base base base)]
  · have hname : d.name ≠ "Struct" := name_of_find?_ofSchema hf ▸ hreference
    have harray : base ≠ .array := by rintro rfl; cases hbase
    have hmap : base ≠ .map := by rintro rfl; cases hbase
    rw [TypeSource.resolve_of_scalar hf hb harray hmap, scalarTokens_eq_same hbase hname]
    cases optional <;> rfl
  · have hstruct : (ofSchema schema).source.find? reference = some (.base .struct) :=
      hreference ▸ find?_ofSchema_builtin schema .struct
    rw [TypeSource.resolve_of_scalar hstruct rfl (by decide) (by decide)]
    cases optional <;> rfl

/-- A schema with a synonym of an array, a map that derives from this synonym, and a
synonym of a struct. -/
def renamings : Schema :=
  { types := [.derived (.array "Names" "String"), .derived (.synonym "Labels" "Names"),
      .derived { Derivation.map "Table" "String" "Int32" with supertype := "Labels" },
      .derived (.struct "Pet" []), .derived (.synonym "Animal" "Pet")] }

/-- Such references: renamings of an array, one of them with the parts of a map, and of a
structure. -/
theorem only_base_counts_renamings :
    ((ofSchema renamings).source.resolve "Table" false (some "Pet") (some "Missing") =
        (ofSchema renamings).source.resolve "Array" false (some "Pet") (some "Missing") ∧
      (ofSchema renamings).source.resolve "Table" false (some "Pet") (some "Missing") =
        .ok (.list (.token "Pet"))) ∧
    ((ofSchema renamings).source.resolve "Labels" false (some "Missing") none =
        (ofSchema renamings).source.resolve "Array" false (some "Missing") none ∧
      (ofSchema renamings).source.resolve "Labels" false (some "Missing") none =
        .error (.unknownType "Missing")) ∧
    (ofSchema renamings).source.resolve "Animal" true (some "Pet") none =
      .ok (.token "Animal") := by
  have htable : (ofSchema renamings).find? "Table" = some
      (.derived { Derivation.map "Table" "String" "Int32" with supertype := "Labels" }) := by
    decide +kernel
  have hlabels : (ofSchema renamings).find? "Labels" =
      some (.derived (.synonym "Labels" "Names")) := by
    decide +kernel
  have hanimal : (ofSchema renamings).find? "Animal" =
      some (.derived (.synonym "Animal" "Pet")) := by
    decide +kernel
  refine ⟨⟨?_, by decide +kernel⟩, ⟨?_, by decide +kernel⟩, ?_⟩
  · have hparts := (@only_base_counts _ .array renamings "Table" htable (by decide +kernel) false
      (some "Pet") (some "Missing")).1
    exact hparts rfl fun ⟨_, _, _, _, _, _, h⟩ => nomatch h
  · have hparts := (@only_base_counts _ .array renamings "Labels" hlabels (by decide +kernel) false
      (some "Missing") none).1
    exact hparts rfl fun ⟨_, _, _, _, _, _, h⟩ => nomatch h
  · exact (@only_base_counts _ .struct renamings "Animal" hanimal (by decide +kernel) true
      (some "Pet") none).2.1 rfl (by decide)

/-- The array itself keeps its elements, whatever is given with it. -/
example : (ofSchema renamings).source.resolve "Names" false (some "Pet") none =
    .ok (.list (.token "String")) := by
  decide +kernel

end Registry

end ResourceSchema
