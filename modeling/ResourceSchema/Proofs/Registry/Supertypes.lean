/-
# Where chains of supertypes end

A definition derives from the one its supertype names, that one from another, and
so on.  Each has one supertype at most, so there is one chain, and it ends at a
built-in type, stops at a name nothing has, or goes on for ever.
`Registry.base?_exact` says that the base type of a definition is found in
the first case and in no other.

The walk takes as many rounds as definitions are registered and one more, and
remembers nothing.  `EndsAfter` counts the steps that are left to the end.  Every
step leaves one less, so a chain that ends visits no definition twice
(`EndsAfter.exists_visited`).  What it visits after its start was found, hence
is registered, and the rounds are enough (`EndsAfter.le_length`).  The start itself
need not be registered, whatever its name.
-/

import Mathlib.Data.List.Perm.Subperm
import Mathlib.Logic.Function.Iterate
import Mathlib.Logic.Relation
import ResourceSchema.Registry.Source

namespace ResourceSchema

/-- A definition derives from another one directly: its supertype is found to be
that. -/
def DerivesFrom (find? : String → Option TypeDef) (d next : TypeDef) : Prop :=
  ∃ name, d.supertype? = some name ∧ find? name = some next

/-- A chain of supertypes ends at a built-in type after so many steps. -/
inductive EndsAfter (find? : String → Option TypeDef) : Nat → TypeDef → BaseType → Prop
  | base (b : BaseType) : EndsAfter find? 0 (.base b) b
  | derived {steps : Nat} {d next : TypeDef} {b : BaseType} (h : DerivesFrom find? d next)
      (hrest : EndsAfter find? steps next b) : EndsAfter find? (steps + 1) d b

variable {find? : String → Option TypeDef} {d e next : TypeDef} {b : BaseType} {steps : Nat}

/-- A built-in type derives from nothing. -/
@[simp] theorem not_derivesFrom_base : ¬ DerivesFrom find? (.base b) next := by
  simp [DerivesFrom, TypeDef.supertype?]

/-- A definition derives from what its supertype means. -/
@[simp] theorem derivesFrom_derived_iff {d : Derivation} :
    DerivesFrom find? (.derived d) next ↔ find? d.supertype = some next := by
  simp [DerivesFrom, TypeDef.supertype?]

/-- **A definition derives from one other at most.** -/
theorem DerivesFrom.unique (h : DerivesFrom find? d next) (h' : DerivesFrom find? d e) :
    next = e := by
  obtain ⟨name, hname, hnext⟩ := h
  obtain ⟨name', hname', he⟩ := h'
  obtain rfl : name = name' := Option.some.inj (hname.symm.trans hname')
  exact Option.some.inj (hnext.symm.trans he)

/-- A definition that is no built-in type derives from one, unless its supertype is
missing. -/
theorem base_or_derives_or_missing (find? : String → Option TypeDef) (d : TypeDef) :
    (∃ b, d = .base b) ∨ (∃ next, DerivesFrom find? d next) ∨
      ∃ name, d.supertype? = some name ∧ find? name = none := by
  cases d with
  | base b => exact .inl ⟨b, rfl⟩
  | derived d =>
    cases hfind : find? d.supertype with
    | none => exact .inr (.inr ⟨d.supertype, rfl, hfind⟩)
    | some next => exact .inr (.inl ⟨next, d.supertype, rfl, hfind⟩)

/-! ### Chains that end -/

/-- **A walk of so many rounds** finds the ends of the chains with fewer steps. -/
theorem baseWithin_eq_some_iff {rounds : Nat} :
    baseWithin find? rounds d = some b ↔ ∃ steps < rounds, EndsAfter find? steps d b := by
  induction rounds generalizing d with
  | zero => simp [baseWithin]
  | succ rounds ih =>
    cases d with
    | base c =>
      rw [baseWithin, Option.some.injEq]
      constructor
      · rintro rfl
        exact ⟨0, rounds.succ_pos, .base c⟩
      · rintro ⟨steps, -, hends⟩
        cases hends with
        | base => rfl
        | derived h _ => exact absurd h not_derivesFrom_base
    | derived d =>
      rw [baseWithin, Option.bind_eq_some_iff]
      constructor
      · rintro ⟨next, hnext, hrest⟩
        obtain ⟨steps, hlt, hends⟩ := ih.1 hrest
        exact ⟨steps + 1, by omega, .derived (derivesFrom_derived_iff.2 hnext) hends⟩
      · rintro ⟨_, hlt, hends⟩
        cases hends with
        | @derived steps _ next _ h hrest =>
          exact ⟨next, derivesFrom_derived_iff.1 h, ih.2 ⟨steps, by omega, hrest⟩⟩

/-- **A chain ends at a built-in type after some steps exactly if one can walk to it.** -/
theorem exists_endsAfter_iff :
    (∃ steps, EndsAfter find? steps d b) ↔
      Relation.ReflTransGen (DerivesFrom find?) d (.base b) := by
  constructor
  · rintro ⟨steps, h⟩
    induction h with
    | base b => exact .refl
    | derived h _ ih => exact .head h ih
  · intro h
    induction h using Relation.ReflTransGen.head_induction_on with
    | refl => exact ⟨0, .base b⟩
    | head h _ ih =>
      obtain ⟨steps, hends⟩ := ih
      exact ⟨steps + 1, .derived h hends⟩

namespace EndsAfter

/-- **The steps that are left are told by the definition.** -/
theorem unique {steps' : Nat} {b' : BaseType} (h : EndsAfter find? steps d b)
    (h' : EndsAfter find? steps' d b') : steps = steps' ∧ b = b' := by
  induction h generalizing steps' with
  | base b =>
    cases h' with
    | base => exact ⟨rfl, rfl⟩
    | derived hd _ => exact absurd hd not_derivesFrom_base
  | derived hd _ ih =>
    cases h' with
    | base => exact absurd hd not_derivesFrom_base
    | derived hd' hrest' =>
      obtain rfl := hd.unique hd'
      obtain ⟨rfl, rfl⟩ := ih hrest'
      exact ⟨rfl, rfl⟩

/-- A chain that ends can be joined anywhere. -/
theorem of_chain (h : EndsAfter find? steps d b)
    (hchain : Relation.ReflTransGen (DerivesFrom find?) d e) :
    ∃ left, EndsAfter find? left e b := by
  induction hchain with
  | refl => exact ⟨steps, h⟩
  | tail _ hlast ih =>
    obtain ⟨left, hends⟩ := ih
    cases hends with
    | base => exact absurd hlast not_derivesFrom_base
    | derived hd hrest =>
      obtain rfl := hd.unique hlast
      exact ⟨_, hrest⟩

/-- **A chain that ends visits nothing twice.**  What it visits after its start are
as many definitions as it has steps, since at each of them fewer steps are
left. -/
theorem exists_visited (h : EndsAfter find? steps d b) :
    ∃ visited : List TypeDef, visited.length = steps ∧ visited.Nodup ∧
      ∀ e ∈ visited, (∃ name, find? name = some e) ∧ ∃ left < steps, EndsAfter find? left e b := by
  induction h with
  | base b => exact ⟨[], rfl, List.nodup_nil, by simp⟩
  | @derived steps d next b hd hrest ih =>
    obtain ⟨visited, hlength, hnodup, hleft⟩ := ih
    have hnew : next ∉ visited := by
      intro hmem
      obtain ⟨-, left, hlt, hends⟩ := hleft next hmem
      have := (hends.unique hrest).1
      omega
    refine ⟨next :: visited, by simp [hlength], List.nodup_cons.2 ⟨hnew, hnodup⟩, fun e he => ?_⟩
    rcases List.mem_cons.1 he with rfl | he
    · obtain ⟨name, -, hfound⟩ := hd
      exact ⟨⟨name, hfound⟩, steps, by omega, hrest⟩
    · obtain ⟨hfound, left, hlt, hends⟩ := hleft e he
      exact ⟨hfound, left, by omega, hends⟩

/-- **A chain that ends has no more steps than there are definitions to be found.** -/
theorem le_length {types : List TypeDef} (hfound : ∀ name e, find? name = some e → e ∈ types)
    (h : EndsAfter find? steps d b) : steps ≤ types.length := by
  obtain ⟨visited, rfl, hnodup, hvisited⟩ := h.exists_visited
  refine hnodup.length_le_of_subset fun e he => ?_
  obtain ⟨⟨name, hname⟩, -⟩ := hvisited e he
  exact hfound name e hname

/-- A chain that ends neither stops at a missing name nor goes on for ever. -/
theorem not_missing {name : String} (h : EndsAfter find? steps d b)
    (hname : d.supertype? = some name) : find? name ≠ none := by
  intro hnone
  cases h with
  | base => cases hname
  | derived hd _ =>
    obtain ⟨name', hname', hfound⟩ := hd
    obtain rfl : name = name' := Option.some.inj (hname.symm.trans hname')
    rw [hnone] at hfound
    cases hfound

/-- A chain that ends is not endless. -/
theorem not_endless {chain : Nat → TypeDef} (h : EndsAfter find? steps (chain 0) b) :
    ¬ ∀ i, DerivesFrom find? (chain i) (chain (i + 1)) := by
  induction steps generalizing chain with
  | zero =>
    intro hchain
    have hfirst := hchain 0
    generalize chain 0 = start at h hfirst
    cases h with
    | base => exact not_derivesFrom_base hfirst
  | succ steps ih =>
    intro hchain
    have hrest : EndsAfter find? steps (chain 1) b := by
      cases h with
      | derived hd hrest => exact hd.unique (hchain 0) ▸ hrest
    exact @ih (fun i => chain (i + 1)) hrest fun i => hchain (i + 1)

end EndsAfter

/-! ### Chains that do not end -/

/-- A chain that can always be followed goes on for ever. -/
theorem exists_endless
    (h : ∀ e, Relation.ReflTransGen (DerivesFrom find?) d e → ∃ next, DerivesFrom find? e next) :
    ∃ chain : Nat → TypeDef, chain 0 = d ∧ ∀ i, DerivesFrom find? (chain i) (chain (i + 1)) := by
  choose next hnext using
    fun e : { e // Relation.ReflTransGen (DerivesFrom find?) d e } => h e.1 e.2
  let follow (e : { e // Relation.ReflTransGen (DerivesFrom find?) d e }) :
      { e // Relation.ReflTransGen (DerivesFrom find?) d e } := ⟨next e, e.2.tail (hnext e)⟩
  refine ⟨fun i => (follow^[i] ⟨d, .refl⟩).1, rfl, fun i => ?_⟩
  simp only [Function.iterate_succ_apply']
  exact hnext _

/-- **A chain that does not end** stops at a missing name or goes on for ever. -/
theorem not_exists_endsAfter_iff :
    (¬ ∃ b steps, EndsAfter find? steps d b) ↔
      (∃ e name, Relation.ReflTransGen (DerivesFrom find?) d e ∧ e.supertype? = some name ∧
        find? name = none) ∨
      ∃ chain : Nat → TypeDef, chain 0 = d ∧ ∀ i, DerivesFrom find? (chain i) (chain (i + 1)) := by
  constructor
  · intro hnever
    by_cases hmissing : ∃ e name, Relation.ReflTransGen (DerivesFrom find?) d e ∧
        e.supertype? = some name ∧ find? name = none
    · exact .inl hmissing
    · refine .inr (exists_endless fun e he => ?_)
      rcases base_or_derives_or_missing find? e with ⟨b, rfl⟩ | hnext | ⟨name, hname, hnone⟩
      · exact absurd ⟨b, exists_endsAfter_iff.2 he⟩ hnever
      · exact hnext
      · exact absurd ⟨e, name, he, hname, hnone⟩ hmissing
  · rintro (⟨e, name, he, hname, hnone⟩ | ⟨chain, rfl, hchain⟩) ⟨b, steps, hends⟩
    · obtain ⟨left, hleft⟩ := hends.of_chain he
      exact hleft.not_missing hname hnone
    · exact hends.not_endless hchain

namespace Registry

/-- What is found is registered. -/
theorem mem_types_of_find? {r : Registry} {name : String} (h : r.find? name = some e) :
    e ∈ r.types.toList := by
  obtain ⟨position, -, hstored⟩ := Option.bind_eq_some_iff.1 h
  exact Array.mem_toList_iff.2 (Array.mem_of_getElem? hstored)

/-- **The rounds of the walk are enough** for every chain that ends, and more of
them find nothing else. -/
theorem baseWithin_find?_eq_some_iff {r : Registry} {rounds : Nat} (h : r.size < rounds) :
    baseWithin r.find? rounds d = some b ↔ ∃ steps, EndsAfter r.find? steps d b := by
  rw [baseWithin_eq_some_iff]
  constructor
  · rintro ⟨steps, -, hends⟩
    exact ⟨steps, hends⟩
  · rintro ⟨steps, hends⟩
    have hle := hends.le_length fun _ _ hfound => mem_types_of_find? hfound
    exact ⟨steps, Nat.lt_of_le_of_lt hle h, hends⟩

/-- **The base type is where the chain of supertypes ends.**  For every definition,
registered or not, the base type is the built-in type that its chain comes to,
however long the chain is; there is none exactly if the chain stops at a missing
name or never ends; and no further rounds of the walk would find more. -/
theorem base?_exact (offered : List TypeDef) (d : TypeDef) :
    (∀ b, (builtin.addAll offered).base? d = some b ↔
      Relation.ReflTransGen (DerivesFrom (builtin.addAll offered).find?) d (.base b)) ∧
    ((builtin.addAll offered).base? d = none ↔
      (∃ e name, Relation.ReflTransGen (DerivesFrom (builtin.addAll offered).find?) d e ∧
        e.supertype? = some name ∧ (builtin.addAll offered).find? name = none) ∨
      ∃ chain : Nat → TypeDef, chain 0 = d ∧
        ∀ i, DerivesFrom (builtin.addAll offered).find? (chain i) (chain (i + 1))) ∧
    ∀ more, baseWithin (builtin.addAll offered).find? ((builtin.addAll offered).size + 1 + more) d =
      (builtin.addAll offered).base? d := by
  generalize builtin.addAll offered = r
  have hbase (b : BaseType) : r.base? d = some b ↔ ∃ steps, EndsAfter r.find? steps d b :=
    baseWithin_find?_eq_some_iff (by omega)
  refine ⟨fun b => (hbase b).trans exists_endsAfter_iff, ?_, fun more => ?_⟩
  · rw [← not_exists_endsAfter_iff, Option.eq_none_iff_forall_ne_some, not_exists]
    exact forall_congr' fun b => not_congr (hbase b)
  · refine Option.ext fun b => ?_
    rw [hbase, baseWithin_find?_eq_some_iff (by omega)]

/-- Synonyms that all lead, one after another, to a number. -/
def synonymsOfNumber : List TypeDef :=
  [.derived (.synonym "Count" "Amount"), .derived (.synonym "Amount" "Measure"),
    .derived (.number "Measure" .int32)]

/-- A definition that is turned away, since its name is taken, derives through all
of those that are not built in. -/
example : (builtin.addAll synonymsOfNumber).base? (.derived (.synonym "Measure" "Count")) =
    some .int32 := by
  decide +kernel

end Registry

end ResourceSchema
