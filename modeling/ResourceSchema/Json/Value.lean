/-
# JSON trees

A tree is `null`, a truth value, a number, a text, a list, or an object.  An
object's members are kept in increasing key order, each key once:
`Json.object` builds one from members in any order, the last of two members
with one key winning.  Everything that reads an object does so through
`Json.lookup`, so the order of the members is not part of its meaning.

A number is an integer of 64 bits, with or without sign, or a double, and the
two never equal each other: `1` and `1.0` are different trees.
-/

import ResourceSchema.Double.Basic

namespace ResourceSchema

-- Powers are those of the core library, also where Mathlib brings its own.
attribute [local instance (high)] instPowNat

/-- Whether an integer fits 64 bits, with a sign if it is negative. -/
def FitsWord (n : Int) : Prop := -2 ^ (63 : Nat) ≤ n ∧ n < 2 ^ (64 : Nat)

instance (n : Int) : Decidable (FitsWord n) := inferInstanceAs (Decidable (_ ∧ _))

/-- An integer of 64 bits, with or without sign. -/
abbrev Word : Type := { n : Int // FitsWord n }

instance : Inhabited Word := ⟨0, by decide⟩

/-- The size of an integer of 64 bits is below 2⁶⁴, also of a negative one. -/
theorem Word.natAbs_lt (n : Word) : n.val.natAbs < 2 ^ (64 : Nat) := by
  have := n.property
  simp only [FitsWord] at this
  omega

/-- A JSON number. -/
inductive Number where
  | integer (value : Word)
  | double (value : Double)
deriving BEq, DecidableEq, Inhabited

/-- The double nearest to a number. -/
def Number.toDouble : Number → Double
  | .integer n => .ofWord (n.val < 0) n.val.natAbs n.natAbs_lt
  | .double x => x

/-- A JSON tree. -/
inductive Json where
  | null
  | bool (value : Bool)
  | num (value : Number)
  | str (value : String)
  | arr (items : List Json)
  | obj (members : List (String × Json))
deriving BEq, Inhabited

namespace Json

mutual
/-- Two trees are the same or not. -/
def decEq : (v w : Json) → Decidable (v = w)
  | .null, .null => .isTrue rfl
  | .bool a, .bool b => decidable_of_iff (a = b) (by simp)
  | .num a, .num b => decidable_of_iff (a = b) (by simp)
  | .str a, .str b => decidable_of_iff (a = b) (by simp)
  | .arr a, .arr b => @decidable_of_iff _ (a = b) (by simp) (decEqItems a b)
  | .obj a, .obj b => @decidable_of_iff _ (a = b) (by simp) (decEqMembers a b)
  | .null, .bool _ | .null, .num _ | .null, .str _ | .null, .arr _ | .null, .obj _
  | .bool _, .null | .bool _, .num _ | .bool _, .str _ | .bool _, .arr _ | .bool _, .obj _
  | .num _, .null | .num _, .bool _ | .num _, .str _ | .num _, .arr _ | .num _, .obj _
  | .str _, .null | .str _, .bool _ | .str _, .num _ | .str _, .arr _ | .str _, .obj _
  | .arr _, .null | .arr _, .bool _ | .arr _, .num _ | .arr _, .str _ | .arr _, .obj _
  | .obj _, .null | .obj _, .bool _ | .obj _, .num _ | .obj _, .str _ | .obj _, .arr _ =>
    .isFalse (by simp)
/-- Two lists of trees are the same or not. -/
def decEqItems : (v w : List Json) → Decidable (v = w)
  | [], [] => .isTrue rfl
  | [], _ :: _ | _ :: _, [] => .isFalse (by simp)
  | a :: v, b :: w =>
    match decEq a b, decEqItems v w with
    | .isTrue h, .isTrue h' => .isTrue (by rw [h, h'])
    | .isFalse h, _ => .isFalse (by simp [h])
    | _, .isFalse h => .isFalse (by simp [h])
/-- Two lists of members are the same or not. -/
def decEqMembers : (v w : List (String × Json)) → Decidable (v = w)
  | [], [] => .isTrue rfl
  | [], _ :: _ | _ :: _, [] => .isFalse (by simp)
  | (k, a) :: v, (l, b) :: w =>
    match instDecidableEqString k l, decEq a b, decEqMembers v w with
    | .isTrue h, .isTrue h', .isTrue h'' => .isTrue (by rw [h, h', h''])
    | .isFalse h, _, _ => .isFalse (by simp [h])
    | _, .isFalse h, _ => .isFalse (by simp [h])
    | _, _, .isFalse h => .isFalse (by simp [h])
end

instance : DecidableEq Json := decEq

/-- Puts `value` under `key` into members in increasing key order, in place of
what was there. -/
def put {α : Type} (key : String) (value : α) : List (String × α) → List (String × α)
  | [] => [(key, value)]
  | (k, v) :: rest =>
    if key < k then (key, value) :: (k, v) :: rest
    else if key = k then (key, value) :: rest
    else (k, v) :: put key value rest

/-- Members in increasing key order, each key once. -/
def InKeyOrder {α : Type} (members : List (String × α)) : Prop :=
  members.Pairwise fun m n => m.1 < n.1

/-- Putting a member adds that member and no other. -/
theorem eq_or_mem_of_mem_put {α : Type} {key : String} {value : α} {m : String × α}
    {members : List (String × α)} (h : m ∈ put key value members) :
    m = (key, value) ∨ m ∈ members := by
  induction members with
  | nil => simpa [put] using h
  | cons n rest ih => simp only [put] at h; grind

/-- Members in key order stay in key order when one is put among them. -/
theorem InKeyOrder.put {α : Type} {members : List (String × α)} (h : InKeyOrder members)
    (key : String) (value : α) : InKeyOrder (put key value members) := by
  induction members with
  | nil => exact List.pairwise_singleton _ _
  | cons m rest ih =>
    have ⟨hm, hrest⟩ := List.pairwise_cons.1 h
    simp only [Json.put]
    split
    · rename_i hlt
      refine List.pairwise_cons.2 ⟨fun n hn => ?_, h⟩
      rcases List.mem_cons.1 hn with rfl | hn
      · exact hlt
      · exact String.lt_trans hlt (hm n hn)
    · split
      · rename_i heq
        exact List.pairwise_cons.2 ⟨fun n hn => heq ▸ hm n hn, hrest⟩
      · rename_i hlt hne
        refine List.pairwise_cons.2 ⟨fun n hn => ?_, ih hrest⟩
        rcases eq_or_mem_of_mem_put hn with rfl | hn
        · exact Std.lt_of_le_of_ne hlt (Ne.symm hne)
        · exact hm n hn

/-- The members in increasing key order, the last of each key. -/
def arrange {α : Type} (members : List (String × α)) : List (String × α) :=
  members.foldl (fun done m => put m.1 m.2 done) []

/-- **Arranged members are in key order.** -/
theorem inKeyOrder_arrange {α : Type} (members : List (String × α)) :
    InKeyOrder (arrange members) := by
  suffices ∀ done : List (String × α), InKeyOrder done →
      InKeyOrder (members.foldl (fun done m => put m.1 m.2 done) done) from
    this [] List.Pairwise.nil
  induction members with
  | nil => exact fun _ h => h
  | cons m rest ih => exact fun done h => ih _ (h.put m.1 m.2)

/-- The object with these members, the last of each key counting. -/
def object (members : List (String × Json)) : Json :=
  .obj (arrange members)

/-- What the members hold under `key`: the first of that key. -/
abbrev lookup {α : Type} (key : String) (members : List (String × α)) : Option α :=
  members.lookup key

/-- A key leads to the first member, if that has it, and else among the others. -/
theorem lookup_cons {α : Type} (key : String) (m : String × α) (rest : List (String × α)) :
    lookup key (m :: rest) = if m.1 = key then some m.2 else lookup key rest := by
  rw [lookup, List.lookup_cons]
  split
  · rename_i h
    rw [if_pos (beq_iff_eq.1 h).symm]
  · rename_i h
    rw [if_neg (Ne.symm (beq_eq_false_iff_ne.1 h))]

/-- Putting a value under a key changes what that key leads to, and no other. -/
theorem lookup_put {α : Type} (key other : String) (value : α) (members : List (String × α)) :
    lookup other (put key value members) =
      if key = other then some value else lookup other members := by
  induction members with
  | nil => exact lookup_cons other (key, value) []
  | cons m rest ih => simp only [put]; grind [lookup_cons]

end Json

end ResourceSchema
