/-
# The order of declarations does not matter

Definitions refer to each other by name, forward and backward, so only the first
definition of each name counts and not where it stands among the others.  Two
lists are `Rearranged` if one is a permutation of the other and the definitions
of each name come in the same order in both, which is said by filtering both
lists for the name.

The registries of such schemas find the same definitions and have the same size,
hence the same base types; nothing else is asked of them when a reference is
resolved (`Registry.source_eq_of_rearranged`).  Annotations are looked up in the
list itself and not in a registry, and pass over some definitions, which
filtering for a name allows too.
-/

import ResourceSchema.Proofs.Registry.FirstDefinition
import ResourceSchema.Schema.Annotations
import ResourceSchema.TypeExpr.Resolve

namespace ResourceSchema

/-- Lists of the same definitions that differ at most in how definitions of
different names are ordered. -/
structure Rearranged (ds ds' : List TypeDef) : Prop where
  perm : ds.Perm ds'
  same_name (name : String) : ds.filter (·.name = name) = ds'.filter (·.name = name)

namespace Rearranged

variable {ds ds' : List TypeDef}

/-- A definition may be moved past others that have other names. -/
theorem of_move (d : TypeDef) (passed rest : List TypeDef) (h : ∀ e ∈ passed, e.name ≠ d.name) :
    Rearranged (d :: passed ++ rest) (passed ++ d :: rest) where
  perm := List.perm_middle.symm
  same_name name := by
    rw [List.cons_append, List.filter_cons, List.filter_append, List.filter_append,
      List.filter_cons]
    by_cases hd : d.name = name
    · have hnone : passed.filter (·.name = name) = [] := by
        refine List.filter_eq_nil_iff.2 fun e he => ?_
        rw [decide_eq_true_eq, ← hd]
        exact h e he
      rw [hnone, List.nil_append, List.nil_append]
    · rw [if_neg (by simpa using hd), if_neg (by simpa using hd)]

/-- Rearranged definitions stay so behind the same ones. -/
theorem append_left (h : Rearranged ds ds') (front : List TypeDef) :
    Rearranged (front ++ ds) (front ++ ds') where
  perm := h.perm.append_left front
  same_name name := by rw [List.filter_append, List.filter_append, h.same_name]

/-- **The first definition of a name is the same.** -/
theorem find?_eq (h : Rearranged ds ds') (name : String) :
    ds.find? (·.name = name) = ds'.find? (·.name = name) := by
  rw [← List.head?_filter, ← List.head?_filter, h.same_name]

/-- What is left out by the same rule leaves them rearranged. -/
theorem filter (h : Rearranged ds ds') (keep : TypeDef → Bool) :
    Rearranged (ds.filter keep) (ds'.filter keep) where
  perm := h.perm.filter keep
  same_name name := by
    rw [List.filter_filter, List.filter_filter]
    simp only [Bool.and_comm]
    rw [← List.filter_filter, ← List.filter_filter, h.same_name]

/-- Annotations do not depend on the order of different names. -/
theorem annotationsOf_eq (h : Rearranged ds ds') (name : String) :
    annotationsOf name ds = annotationsOf name ds' := by
  rw [annotationsOf, annotationsOf, (h.filter _).find?_eq]

end Rearranged

namespace Registry

variable {schema schema' : Schema}

/-- Lookups do not depend on the order of different names. -/
theorem find?_eq_of_rearranged (h : Rearranged schema.types schema'.types) (name : String) :
    (ofSchema schema).find? name = (ofSchema schema').find? name := by
  have hfind := (h.append_left builtinTypes).find?_eq name
  rwa [← (holds_addAll_builtin schema.types).find?_eq,
    ← (holds_addAll_builtin schema'.types).find?_eq] at hfind

/-- The number of definitions does not depend on their order. -/
theorem size_eq_of_rearranged (h : Rearranged schema.types schema'.types) :
    (ofSchema schema).size = (ofSchema schema').size := by
  have hnames := List.toFinset_eq_of_perm _ _ ((h.append_left builtinTypes).perm.map TypeDef.name)
  rw [ofSchema, ofSchema, (holds_addAll_builtin _).size_eq, (holds_addAll_builtin _).size_eq,
    hnames]

/-- A chain of supertypes is walked by looking names up, and for as many steps as
there are definitions. -/
theorem source_eq_of_rearranged (h : Rearranged schema.types schema'.types) :
    (ofSchema schema).source = (ofSchema schema').source := by
  have hfind : (ofSchema schema).find? = (ofSchema schema').find? :=
    funext (find?_eq_of_rearranged h)
  have hbase : (ofSchema schema).base? = (ofSchema schema').base? := by
    funext d
    rw [base?, base?, hfind, size_eq_of_rearranged h]
  rw [source, source, hfind, hbase]

/-- **The order of declarations does not matter,** as long as the definitions of
each name keep theirs. -/
theorem rearranged_schemas_agree (schema schema' : Schema)
    (h : Rearranged schema.types schema'.types) :
    (ofSchema schema).size = (ofSchema schema').size ∧
    (∀ name, (ofSchema schema).find? name = (ofSchema schema').find? name) ∧
    (∀ d, (ofSchema schema).base? d = (ofSchema schema').base? d) ∧
    (∀ reference optional items? keys?,
      (ofSchema schema).source.resolve reference optional items? keys? =
        (ofSchema schema').source.resolve reference optional items? keys?) ∧
    ∀ name, annotationsOf name schema.types = annotationsOf name schema'.types := by
  have hsource := source_eq_of_rearranged h
  refine ⟨size_eq_of_rearranged h, find?_eq_of_rearranged h, fun d => ?_, fun _ _ _ _ => ?_,
    h.annotationsOf_eq⟩
  · exact congrFun (congrArg TypeSource.base? hsource) d
  · rw [hsource]

/-- A schema that uses a key type before it declares it, and declares it twice. -/
def keyDeclaredLate : Schema :=
  { types := [.derived (.map "Index" "Key" "Row"), .derived (.text "Key"),
      .derived (.number "Key" .int32), .derived (.struct "Row" [])] }

/-- The same with the key type declared first, twice as well. -/
def keyDeclaredEarly : Schema :=
  { types := [.derived (.text "Key"), .derived (.number "Key" .int32),
      .derived (.map "Index" "Key" "Row"), .derived (.struct "Row" [])] }

/-- Two such schemas: the map stands before the two definitions of its key, or behind them. -/
theorem rearranged_schemas_agree_keyDeclared :
    Rearranged keyDeclaredLate.types keyDeclaredEarly.types ∧
    (ofSchema keyDeclaredLate).size = (ofSchema keyDeclaredEarly).size ∧
    ((ofSchema keyDeclaredLate).find? "Key" = some (.derived (.text "Key")) ∧
      (ofSchema keyDeclaredEarly).find? "Key" = some (.derived (.text "Key"))) ∧
    ((ofSchema keyDeclaredLate).source.resolve "Index" false none none =
        .ok (.map (.token "String") (.token "Row")) ∧
      (ofSchema keyDeclaredEarly).source.resolve "Index" false none none =
        .ok (.map (.token "String") (.token "Row"))) ∧
    annotationsOf "Key" keyDeclaredLate.types = annotationsOf "Key" keyDeclaredEarly.types := by
  have hmove : Rearranged keyDeclaredLate.types keyDeclaredEarly.types :=
    .of_move (.derived (.map "Index" "Key" "Row"))
      [.derived (.text "Key"), .derived (.number "Key" .int32)] _ (by decide)
  obtain ⟨hsize, hfind, -, hresolve, hannotations⟩ :=
    rearranged_schemas_agree keyDeclaredLate keyDeclaredEarly hmove
  have hkey : (ofSchema keyDeclaredLate).find? "Key" = some (.derived (.text "Key")) := by
    decide +kernel
  have hindex : (ofSchema keyDeclaredLate).source.resolve "Index" false none none =
      .ok (.map (.token "String") (.token "Row")) := by
    decide +kernel
  exact ⟨hmove, hsize, ⟨hkey, hfind "Key" ▸ hkey⟩,
    ⟨hindex, hresolve "Index" false none none ▸ hindex⟩, hannotations "Key"⟩

end Registry

end ResourceSchema
