/-
# Registering more keeps the answers that were given

A registry grows: definitions are added, and none is ever replaced.  What was
found stays found, and a chain of supertypes that ended at a built-in type ends
there still, since it visits the same definitions and more steps are allowed
(`baseWithin_mono`).  So the registry before is a part of the one after
(`Registry.extends_addAll`).

`TypeSource.Extends` says this of any two sources, and it is all that resolving
needs: an expression stays the same, and so does the complaint that collections
are nested too deep (`TypeSource.Extends.resolveWithin_eq`).  The other two
complaints are not `Settled`.  A reference that is not found, or that derives
from nothing yet, may be completed by what comes later.
-/

import ResourceSchema.Proofs.Registry.FirstDefinition
import ResourceSchema.Proofs.TypeExpr.Unfolding

namespace ResourceSchema

/-- A chain that ends within so many steps ends at the same built-in type where
more is found and more steps are allowed. -/
theorem baseWithin_mono {find? find?' : String → Option TypeDef}
    (hf : ∀ name d, find? name = some d → find?' name = some d) {steps steps' : Nat}
    (hs : steps ≤ steps') {d : TypeDef} {b : BaseType} (h : baseWithin find? steps d = some b) :
    baseWithin find?' steps' d = some b := by
  induction steps generalizing steps' d with
  | zero => cases h
  | succ steps ih =>
    obtain ⟨steps', rfl⟩ := Nat.exists_eq_succ_of_ne_zero (Nat.ne_zero_of_lt hs)
    cases d with
    | base _ => exact h
    | derived d =>
      obtain ⟨next, hnext, hrest⟩ := Option.bind_eq_some_iff.1 h
      refine Option.bind_eq_some_iff.2 ⟨next, hf _ _ hnext, ?_⟩
      exact ih (Nat.le_of_succ_le_succ hs) hrest

namespace TypeSource

/-- One source knows all that another one knows, and says the same of it. -/
structure Extends (larger smaller : TypeSource) : Prop where
  find? (name : String) (d : TypeDef) : smaller.find? name = some d → larger.find? name = some d
  base? (d : TypeDef) (b : BaseType) : smaller.base? d = some b → larger.base? d = some b

/-- An answer that no further definition can change: an expression, or that
collections are nested too deep. -/
inductive Settled : Except GenerateError TypeExpr → Prop
  | resolved (e : TypeExpr) : Settled (.ok e)
  | recursive (name : String) (limit : Nat) : Settled (.error (.recursiveType name limit))

/-- An answer is settled before it is changed into another. -/
theorem Settled.of_map {f : TypeExpr → TypeExpr} {result : Except GenerateError TypeExpr}
    (h : Settled (result.map f)) : Settled result := by
  rcases result with e | t
  · cases h
    exact .recursive _ _
  · exact .resolved t

variable {larger smaller : TypeSource} {given : Given} {reference : String}

/-- What a reference refers to in a source it refers to in a larger one. -/
theorem Extends.refersTo (h : larger.Extends smaller) {branch : Branch} {child : String}
    (href : smaller.RefersTo given reference branch child) :
    larger.RefersTo given reference branch child := by
  obtain ⟨d, base, hf, hb, hbelow⟩ := href
  exact ⟨d, base, h.find? _ _ hf, h.base? _ _ hb, hbelow⟩

/-- **A settled answer stays,** however many levels are followed for it. -/
theorem Extends.resolveWithin_eq (h : larger.Extends smaller) (given : Given) {levels : Nat}
    {boxed : Bool}
    (hs : Settled (smaller.resolveWithin levels reference boxed given.items? given.keys?)) :
    larger.resolveWithin levels reference boxed given.items? given.keys? =
      smaller.resolveWithin levels reference boxed given.items? given.keys? := by
  induction levels generalizing given reference boxed with
  | zero => rfl
  | succ levels ih =>
    have hstep := step_meaning smaller given reference
    rw [resolveWithin] at hs
    rw [resolveWithin, resolveWithin]
    generalize smaller.meaning reference given.items? given.keys? = result at hs hstep ⊢
    cases hstep with
    | unknown _ => cases hs
    | noBase _ _ => cases hs
    | scalar hf hb ha hm => rw [meaning_of_scalar (h.find? _ _ hf) (h.base? _ _ hb) ha hm]
    | list href =>
      rw [meaning_of_element (h.refersTo href)]
      exact congrArg (Except.map TypeExpr.list) (ih .nothing hs.of_map)
    | @map key value hk hv =>
      rw [meaning_of_key_value (h.refersTo hk) (h.refersTo hv)]
      dsimp only at hs ⊢
      -- Only where the key is resolved does the answer hang on the value.
      have hkeySettled : Settled (smaller.resolveWithin levels key false none none) := by
        rcases hrk : smaller.resolveWithin levels key false none none with e | k
        · rwa [hrk] at hs
        · exact .resolved k
      have hkey := ih .nothing hkeySettled
      dsimp only [Given.nothing] at hkey
      rw [hkey]
      rcases hrk : smaller.resolveWithin levels key false none none with e | k
      · rfl
      · rw [hrk] at hs
        exact congrArg (Except.map (TypeExpr.map k)) (ih .nothing hs.of_map)

end TypeSource

namespace Registry

variable {r : Registry} {offered : List TypeDef}

/-- **A definition that is found stays found,** whatever is added later. -/
theorem Holds.find?_addAll (h : r.Holds offered) (later : List TypeDef) {name : String}
    {d : TypeDef} (hf : r.find? name = some d) : (r.addAll later).find? name = some d := by
  rw [(h.addAll later).find?_eq, List.find?_append, ← h.find?_eq, hf, Option.some_or]

/-- A registry does not shrink. -/
theorem size_le_addAll (r : Registry) (later : List TypeDef) : r.size ≤ (r.addAll later).size :=
  (types_prefix_addAll r later).length_le

/-- **A registry is a part of what it grows to.** -/
theorem Holds.extends_addAll (h : r.Holds offered) (later : List TypeDef) :
    (r.addAll later).source.Extends r.source where
  find? _ _ hf := h.find?_addAll later hf
  base? _ _ hb := baseWithin_mono (fun _ _ hf => h.find?_addAll later hf)
    (Nat.succ_le_succ (size_le_addAll r later)) hb

/-- **Answers survive growth.**  After any registrations from the built-in types,
any further ones keep what is found, what has a base type, and every reference's
expression or its complaint about nesting. -/
theorem answers_survive_growth (offered later : List TypeDef) :
    (∀ name d, (builtin.addAll offered).find? name = some d →
      ((builtin.addAll offered).addAll later).find? name = some d) ∧
    (∀ d b, (builtin.addAll offered).base? d = some b →
      ((builtin.addAll offered).addAll later).base? d = some b) ∧
    ∀ reference optional items? keys?,
      (∀ e, (builtin.addAll offered).source.resolve reference optional items? keys? = .ok e →
        ((builtin.addAll offered).addAll later).source.resolve reference optional items? keys? =
          .ok e) ∧
      ∀ name limit, (builtin.addAll offered).source.resolve reference optional items? keys? =
          .error (.recursiveType name limit) →
        ((builtin.addAll offered).addAll later).source.resolve reference optional items? keys? =
          .error (.recursiveType name limit) := by
  have h := (holds_addAll_builtin offered).extends_addAll later
  refine ⟨h.find?, h.base?, fun reference optional items? keys? => ⟨fun e he => ?_, ?_⟩⟩
  · have hs := he ▸ TypeSource.Settled.resolved e
    exact (h.resolveWithin_eq ⟨items?, keys?⟩ hs).trans he
  · intro name limit he
    have hs := he ▸ TypeSource.Settled.recursive name limit
    exact (h.resolveWithin_eq ⟨items?, keys?⟩ hs).trans he

/-- A map to lists of numbers, a list of itself, and a synonym of something that
is not there yet. -/
def unfinished : List TypeDef :=
  [.derived (.map "Store" "String" "Codes"), .derived (.array "Codes" "Int8"),
    .derived (.array "Loop" "Loop"), .derived (.synonym "Sack" "Bag")]

/-- What is missing, and other definitions of what is there. -/
def finishing : List TypeDef :=
  [.derived (.text "Codes"), .derived (.array "Bag" "Store"), .derived (.text "Loop")]

/-- Only the complaint about what is missing does not survive. -/
theorem answers_survive_growth_finishing :
    ((builtin.addAll unfinished).find? "Codes" = some (.derived (.array "Codes" "Int8")) ∧
      ((builtin.addAll unfinished).addAll finishing).find? "Codes" =
        some (.derived (.array "Codes" "Int8"))) ∧
    ((builtin.addAll unfinished).base? (.derived (.synonym "Digits" "Codes")) = some .array ∧
      ((builtin.addAll unfinished).addAll finishing).base? (.derived (.synonym "Digits" "Codes")) =
        some .array) ∧
    ((builtin.addAll unfinished).source.resolve "Store" false none none =
        .ok (.map (.token "String") (.list (.token "Byte"))) ∧
      ((builtin.addAll unfinished).addAll finishing).source.resolve "Store" false none none =
        .ok (.map (.token "String") (.list (.token "Byte")))) ∧
    ((builtin.addAll unfinished).source.resolve "Map" false (some "Loop") none =
        .error (.recursiveType "Loop" 64) ∧
      ((builtin.addAll unfinished).addAll finishing).source.resolve "Map" false (some "Loop") none =
        .error (.recursiveType "Loop" 64)) ∧
    (builtin.addAll unfinished).source.resolve "Sack" false none none =
      .error (.noBaseType "Sack") ∧
    ((builtin.addAll unfinished).addAll finishing).source.resolve "Sack" false none none =
      .ok (.list (.token "Object")) := by
  obtain ⟨hfind, hbase, hresolve⟩ := answers_survive_growth unfinished finishing
  have hcodes : (builtin.addAll unfinished).find? "Codes" =
      some (.derived (.array "Codes" "Int8")) := by
    decide +kernel
  have harray : (builtin.addAll unfinished).base? (.derived (.synonym "Digits" "Codes")) =
      some .array := by
    decide +kernel
  have hstore : (builtin.addAll unfinished).source.resolve "Store" false none none =
      .ok (.map (.token "String") (.list (.token "Byte"))) := by
    decide +kernel
  have hloop : (builtin.addAll unfinished).source.resolve "Map" false (some "Loop") none =
      .error (.recursiveType "Loop" 64) := by
    decide +kernel
  refine ⟨⟨hcodes, hfind _ _ hcodes⟩, ⟨harray, hbase _ _ harray⟩,
    ⟨hstore, (hresolve "Store" false none none).1 _ hstore⟩,
    ⟨hloop, (hresolve "Map" false (some "Loop") none).2 _ _ hloop⟩, ?_, ?_⟩
  · decide +kernel
  · decide +kernel

end Registry

end ResourceSchema
