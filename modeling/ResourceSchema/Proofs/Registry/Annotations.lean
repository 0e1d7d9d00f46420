/-
# Annotations and the registry

Annotations are looked up in the list of a schema's definitions, past those that
are not annotated in their own right; a definition is looked up in the registry,
which has the built-in types first and passes over nothing.
`Registry.annotations_agree` says how far the two go together.

What is found and annotated in its own right is found by both.  It is the first
definition of its name, so nothing before it in the list has that name, and it is
not passed over.  What is a synonym, an enumeration or a built-in type has no
annotations to be looked up, but a later definition of the same name may have
some.  So there the two agree only if no name is defined twice or built in.
-/

import ResourceSchema.Proofs.Registry.FirstDefinition
import ResourceSchema.Schema.Annotations

namespace ResourceSchema

variable {types : List TypeDef} {name : String} {d : TypeDef}

/-- **Synonyms and enumerations are passed over,** and nothing else that is
derived. -/
theorem isAnnotated_derived_iff {d : Derivation} :
    (TypeDef.derived d).isAnnotated = true ↔
      d.detail ≠ .synonym ∧ ∀ elements, d.detail ≠ .enum elements := by
  obtain ⟨name, supertype, detail, comment?, annotations⟩ := d
  cases detail <;> simp [TypeDef.isAnnotated]

/-- The first definition of a name comes first among those that are annotated, if it
is one of them. -/
theorem find?_filter_isAnnotated (h : types.find? (·.name = name) = some d)
    (hd : d.isAnnotated = true) :
    (types.filter TypeDef.isAnnotated).find? (·.name = name) = some d := by
  obtain ⟨hname, front, back, rfl, hfront⟩ := List.find?_eq_some_iff_append.1 h
  have hpassed : (front.filter TypeDef.isAnnotated).find? (·.name = name) = none := by
    refine List.find?_eq_none.2 fun e he => ?_
    simpa using hfront e (List.mem_of_mem_filter he)
  rw [List.filter_append, List.filter_cons_of_pos hd, List.find?_append, hpassed, Option.none_or]
  exact List.find?_cons_of_pos hname

/-- The annotations of a name are those of its first definition, if that can have any. -/
theorem annotationsOf_eq_of_find? {d : Derivation}
    (h : types.find? (·.name = name) = some (.derived d))
    (hd : (TypeDef.derived d).isAnnotated = true) : annotationsOf name types = d.annotations := by
  rw [annotationsOf, find?_filter_isAnnotated h hd]
  rfl

/-- A name has no annotations where everything of that name is passed over. -/
theorem annotationsOf_eq_empty (h : ∀ e ∈ types, e.name = name → e.isAnnotated = false) :
    annotationsOf name types = .empty := by
  have hnone : (types.filter TypeDef.isAnnotated).find? (·.name = name) = none := by
    refine List.find?_eq_none.2 fun e he => ?_
    obtain ⟨hmem, hannotated⟩ := List.mem_filter.1 he
    intro hname
    have hpassed := h e hmem (of_decide_eq_true hname)
    rw [hannotated] at hpassed
    cases hpassed
  rw [annotationsOf, hnone]
  rfl

namespace Registry

variable {schema : Schema}

/-- What is found and derived stands first of its name in the schema. -/
theorem find?_types_of_derived {d : Derivation}
    (h : (ofSchema schema).find? name = some (.derived d)) :
    schema.types.find? (·.name = name) = some (.derived d) := by
  rw [find?_ofSchema, List.find?_append] at h
  cases hbuiltin : builtinTypes.find? (·.name = name) with
  | none => rwa [hbuiltin, Option.none_or] at h
  | some e =>
    obtain ⟨b, -, rfl⟩ := List.mem_map.1 (List.mem_of_find?_eq_some hbuiltin)
    rw [hbuiltin, Option.some_or] at h
    cases h

/-- A name that is not found has no definition. -/
theorem name_ne_of_find?_eq_none (h : (ofSchema schema).find? name = none)
    (hd : d ∈ schema.types) : d.name ≠ name := by
  rw [find?_ofSchema] at h
  simpa using List.find?_eq_none.1 h d (List.mem_append_right _ hd)

/-- A built-in type is found under its own name. -/
theorem eq_name_of_find?_base {b : BaseType} (h : (ofSchema schema).find? name = some (.base b)) :
    name = b.name :=
  (name_of_find?_ofSchema h).symm

/-- Where no name is defined twice, a definition of a name is the one that is found. -/
theorem eq_of_find?_derived {d : Derivation} {e : TypeDef}
    (hnodup : (schema.types.map TypeDef.name).Nodup)
    (h : (ofSchema schema).find? name = some (.derived d)) (he : e ∈ schema.types)
    (hname : e.name = name) : e = .derived d := by
  have hfirst := find?_types_of_derived h
  exact List.inj_on_of_nodup_map hnodup he (List.mem_of_find?_eq_some hfirst)
    (hname.trans (name_of_find?_ofSchema h).symm)

/-- **Annotations agree with the registry.**  A name that is not found has none, and
a definition that is found has its own, unless it is a synonym or an enumeration.
If no name is defined twice or built in, these and the built-in types have
none. -/
theorem annotations_agree (schema : Schema) (name : String) :
    ((ofSchema schema).find? name = none → annotationsOf name schema.types = .empty) ∧
    (∀ d : Derivation, (ofSchema schema).find? name = some (.derived d) → d.detail ≠ .synonym →
      (∀ elements, d.detail ≠ .enum elements) →
      annotationsOf name schema.types = d.annotations) ∧
    ((schema.types.map TypeDef.name).Nodup →
      (∀ b : BaseType, b.name ∉ schema.types.map TypeDef.name) →
      (∀ b, (ofSchema schema).find? name = some (.base b) →
        annotationsOf name schema.types = .empty) ∧
      ∀ d : Derivation, (ofSchema schema).find? name = some (.derived d) →
        (d.detail = .synonym ∨ ∃ elements, d.detail = .enum elements) →
        annotationsOf name schema.types = .empty) := by
  refine ⟨fun h => ?_, fun d h hsynonym henum => ?_, fun hnodup hbuiltin => ⟨fun b h => ?_,
    fun d h hpassed => ?_⟩⟩
  · exact annotationsOf_eq_empty fun e he hname => absurd hname (name_ne_of_find?_eq_none h he)
  · exact annotationsOf_eq_of_find? (find?_types_of_derived h)
      (isAnnotated_derived_iff.2 ⟨hsynonym, henum⟩)
  · refine annotationsOf_eq_empty fun e he hname => ?_
    exact absurd (List.mem_map.2 ⟨e, he, hname.trans (eq_name_of_find?_base h)⟩) (hbuiltin b)
  · refine annotationsOf_eq_empty fun e he hname => ?_
    rw [eq_of_find?_derived hnodup h he hname, ← Bool.not_eq_true, isAnnotated_derived_iff]
    rintro ⟨hsynonym, henum⟩
    rcases hpassed with hd | ⟨elements, hd⟩
    · exact hsynonym hd
    · exact henum elements hd

/-- Annotations that name a table. -/
def tableAnnotations : Annotations := .ofList [("x_table", "pets")]

/-- A schema with an annotated struct, synonym and enumeration. -/
def annotatedPets : Schema :=
  { types := [.derived { Derivation.struct "Pet" [] with annotations := tableAnnotations },
      .derived { Derivation.synonym "Animal" "Pet" with annotations := tableAnnotations },
      .derived { Derivation.enum "Kind" ["cat", "dog"] with annotations := tableAnnotations }] }

/-- Such a schema, with names that are missing, annotated, and of kinds that are not
searched. -/
theorem annotations_agree_pets :
    ((annotatedPets.types.map TypeDef.name).Nodup ∧
      ∀ b : BaseType, b.name ∉ annotatedPets.types.map TypeDef.name) ∧
    ((ofSchema annotatedPets).find? "Cat" = none ∧
      annotationsOf "Cat" annotatedPets.types = .empty) ∧
    annotationsOf "Pet" annotatedPets.types = tableAnnotations ∧
    annotationsOf "Animal" annotatedPets.types = .empty ∧
    annotationsOf "Kind" annotatedPets.types = .empty ∧
    annotationsOf "String" annotatedPets.types = .empty := by
  have hnodup : (annotatedPets.types.map TypeDef.name).Nodup := by decide
  have hbuiltin : ∀ b : BaseType, b.name ∉ annotatedPets.types.map TypeDef.name := by
    intro b
    cases b <;> decide
  have hmissing : (ofSchema annotatedPets).find? "Cat" = none := by decide +kernel
  have hpet : (ofSchema annotatedPets).find? "Pet" =
      some (.derived { Derivation.struct "Pet" [] with annotations := tableAnnotations }) := by
    decide +kernel
  have hanimal : (ofSchema annotatedPets).find? "Animal" = some (.derived
      { Derivation.synonym "Animal" "Pet" with annotations := tableAnnotations }) := by
    decide +kernel
  have hkind : (ofSchema annotatedPets).find? "Kind" = some (.derived
      { Derivation.enum "Kind" ["cat", "dog"] with annotations := tableAnnotations }) := by
    decide +kernel
  have hstring : (ofSchema annotatedPets).find? "String" = some (.base .string) := by
    decide +kernel
  refine ⟨⟨hnodup, hbuiltin⟩, ⟨hmissing, (annotations_agree annotatedPets "Cat").1 hmissing⟩,
    (annotations_agree annotatedPets "Pet").2.1 _ hpet nofun nofun, ?_, ?_, ?_⟩
  · exact ((annotations_agree annotatedPets "Animal").2.2 hnodup hbuiltin).2 _ hanimal (.inl rfl)
  · exact ((annotations_agree annotatedPets "Kind").2.2 hnodup hbuiltin).2 _ hkind (.inr ⟨_, rfl⟩)
  · exact ((annotations_agree annotatedPets "String").2.2 hnodup hbuiltin).1 _ hstring

/-- A synonym does not hide the annotations of a later definition of its name. -/
example : annotationsOf "Pet" (.derived (.synonym "Pet" "Struct") :: annotatedPets.types) =
    tableAnnotations := by
  decide +kernel

end Registry

end ResourceSchema
