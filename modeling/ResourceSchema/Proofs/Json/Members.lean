/-
# Members in key order

`Json.arrange` sorts members by key and keeps the last of each, so a key leads to
what it was given last (`Json.lookup_arrange_reverse`).  Where no key is given
twice nothing is lost, and a key leads to what it led to before
(`Json.lookup_arrange`).  Members that are in key order already stay as they are
(`Json.InKeyOrder.arrange_eq`), and are known by what each key leads to
(`Json.InKeyOrder.eq_of_lookup`).
-/

import Mathlib.Data.List.Induction
import Mathlib.Data.List.Sort
import ResourceSchema.Json.Value

namespace ResourceSchema

namespace Json

variable {α : Type} {members : List (String × α)}

/-- A key that no member has leads nowhere. -/
theorem lookup_eq_none_iff_not_mem {key : String} :
    lookup key members = none ↔ key ∉ members.map Prod.fst := by
  rw [lookup, List.lookup_eq_none_iff, List.mem_map, not_exists]
  refine forall_congr' fun m => ?_
  rw [not_and, bne_iff_ne]
  exact forall_congr' fun _ => ne_comm

/-- A key leads to the first member that has it. -/
theorem lookup_append_cons {key : String} {front : List (String × α)}
    (h : key ∉ front.map Prod.fst) (value : α) (back : List (String × α)) :
    lookup key (front ++ (key, value) :: back) = some value := by
  have hfront : front.lookup key = none := lookup_eq_none_iff_not_mem.2 h
  rw [lookup, List.lookup_append, hfront, Option.none_or, List.lookup_cons_self]

/-- The other keys do not see this member. -/
theorem lookup_append_cons_of_ne {key other : String} (h : key ≠ other)
    (front : List (String × α)) (value : α) (back : List (String × α)) :
    lookup other (front ++ (key, value) :: back) = lookup other (front ++ back) := by
  have hback : List.lookup other ((key, value) :: back) = back.lookup other :=
    (lookup_cons other (key, value) back).trans (if_neg h)
  rw [lookup, List.lookup_append, hback, ← List.lookup_append]

/-- A key that is kept leads to what it led to. -/
theorem lookup_filter {keys : List String} {key : String} (h : key ∈ keys)
    (members : List (String × α)) :
    lookup key (members.filter fun m => m.1 ∈ keys) = lookup key members := by
  induction members with
  | nil => rfl
  | cons m rest ih =>
    rw [List.filter_cons, lookup_cons]
    by_cases hm : m.1 = key
    · rw [if_pos (by simpa [hm] using h), lookup_cons, if_pos hm, if_pos hm]
    · rw [if_neg hm, ← ih]
      split
      · rw [lookup_cons, if_neg hm]
      · rfl

/-- What one key leads to is changed, and nothing else. -/
theorem lookup_map_if (key other : String) (f : α → α) (members : List (String × α)) :
    lookup other (members.map fun m => if m.1 = key then (m.1, f m.2) else m) =
      if other = key then (lookup other members).map f else lookup other members := by
  induction members with
  | nil => split <;> rfl
  | cons m rest ih =>
    have hkey : (if m.1 = key then (m.1, f m.2) else m).1 = m.1 := by split <;> rfl
    rw [List.map_cons, lookup_cons, lookup_cons, ih, hkey]
    by_cases hm : m.1 = other
    · subst hm
      rw [if_pos rfl, if_pos rfl]
      split <;> rfl
    · rw [if_neg hm, if_neg hm]

/-- **Sorting keeps what each key leads to,** if no key is given twice. -/
theorem lookup_arrange (h : (members.map Prod.fst).Nodup) (key : String) :
    lookup key (arrange members) = lookup key members := by
  suffices ∀ done : List (String × α), lookup key (members.foldl (fun d m => put m.1 m.2 d) done) =
      (lookup key members).or (lookup key done) by
    rw [arrange, this]
    exact Option.or_none
  induction members with
  | nil => exact fun _ => rfl
  | cons m rest ih =>
    intro done
    rw [List.map_cons, List.nodup_cons] at h
    rw [List.foldl_cons, ih h.2, lookup_put, lookup_cons]
    by_cases hm : m.1 = key
    · subst hm
      rw [if_pos rfl, if_pos rfl, lookup_eq_none_iff_not_mem.2 h.1, Option.none_or, Option.some_or]
    · rw [if_neg hm, if_neg hm]

/-- **After sorting each key leads to what it was given last.** -/
theorem lookup_arrange_reverse (members : List (String × α)) (key : String) :
    lookup key (arrange members) = lookup key members.reverse := by
  induction members using List.reverseRecOn with
  | nil => rfl
  | append_singleton front m ih =>
    rw [arrange, List.foldl_append, List.foldl_cons, List.foldl_nil, lookup_put, ← arrange, ih,
      List.reverse_append, List.reverse_singleton, List.singleton_append, lookup_cons]

/-- In key order every member is found by its key. -/
theorem lookup_eq_some_of_mem (h : InKeyOrder members) {m : String × α} (hm : m ∈ members) :
    lookup m.1 members = some m.2 := by
  induction members with
  | nil => cases hm
  | cons n rest ih =>
    obtain ⟨hn, hrest⟩ := List.pairwise_cons.1 h
    rcases List.mem_cons.1 hm with rfl | hm
    · rw [lookup_cons, if_pos rfl]
    · rw [lookup_cons, if_neg (String.ne_of_lt (hn m hm)), ih hrest hm]

/-- What a key leads to is a member with that key. -/
theorem mem_of_lookup_eq_some {key : String} {a : α} (h : lookup key members = some a) :
    (key, a) ∈ members := by
  induction members with
  | nil => cases h
  | cons n rest ih =>
    rw [lookup_cons] at h
    split at h
    · rename_i hn
      cases h
      exact hn ▸ List.mem_cons_self
    · exact List.mem_cons_of_mem _ (ih h)

/-- **Members in key order are known by what each key leads to.** -/
theorem InKeyOrder.eq_of_lookup {others : List (String × α)} (h : InKeyOrder members)
    (ho : InKeyOrder others) (heq : ∀ key, lookup key members = lookup key others) :
    members = others := by
  have : Std.Irrefl fun m n : String × α => m.1 < n.1 := ⟨fun m => String.lt_irrefl m.1⟩
  have : Std.Antisymm fun m n : String × α => m.1 < n.1 :=
    ⟨fun m n hmn hnm => absurd hnm (String.lt_asymm hmn)⟩
  refine List.Pairwise.eq_of_mem_iff h ho fun m => ?_
  constructor
  · intro hm
    exact mem_of_lookup_eq_some (heq m.1 ▸ lookup_eq_some_of_mem h hm)
  · intro hm
    exact mem_of_lookup_eq_some ((heq m.1).symm ▸ lookup_eq_some_of_mem ho hm)

/-- A member with a key above all others is put behind them. -/
theorem put_of_forall_lt {key : String} {value : α} (h : ∀ m ∈ members, m.1 < key) :
    put key value members = members ++ [(key, value)] := by
  induction members with
  | nil => rfl
  | cons m rest ih =>
    have hm : m.1 < key := h m List.mem_cons_self
    have hrest := ih fun n hn => h n (List.mem_cons_of_mem _ hn)
    rw [put, if_neg (String.lt_asymm hm), if_neg (Ne.symm (String.ne_of_lt hm)), hrest,
      List.cons_append]

/-- **Members in key order stay as they are.** -/
theorem InKeyOrder.arrange_eq (h : InKeyOrder members) : arrange members = members := by
  suffices ∀ done rest : List (String × α), InKeyOrder (done ++ rest) →
      rest.foldl (fun d m => Json.put m.1 m.2 d) done = done ++ rest by
    exact this [] members h
  intro done rest
  induction rest generalizing done with
  | nil => exact fun _ => (List.append_nil done).symm
  | cons m rest ih =>
    intro hd
    have hlt : ∀ n ∈ done, n.1 < m.1 := fun n hn =>
      (List.pairwise_append.1 hd).2.2 n hn m List.mem_cons_self
    rw [List.foldl_cons, put_of_forall_lt hlt, ih _ (by simpa using hd), List.append_assoc,
      List.singleton_append]

end Json

end ResourceSchema
