/-
# Which broken reference is reported

A reference fails for one of three reasons, looked at in this order: it is
nested too deep, it is not found, or it has no base type.  Many references of
one unfolding may fail, and the unfolding may have no end.
`TypeSource.resolve_eq_error_iff` says which failure is reported: that of the
first failing reference in depth-first order.  There is a first one, because a
path cannot go on beyond the depth at which every reference fails, and no other
error is ever returned.
-/

import ResourceSchema.Proofs.TypeExpr.Resolution

namespace ResourceSchema

namespace TypeSource

/-- Why a reference that stands so deep fails, when only so many levels are
followed.  What is nested too deep is not looked up. -/
inductive Fails (source : TypeSource) (levels depth : Nat) (reference : String) :
    GenerateError → Prop
  | tooDeep (h : levels ≤ depth) : Fails source levels depth reference (.recursiveType reference 64)
  | unknown (h : depth < levels) (hf : source.find? reference = none) :
      Fails source levels depth reference (.unknownType reference)
  | noBase {definition : TypeDef} (h : depth < levels)
      (hf : source.find? reference = some definition) (hb : source.base? definition = none) :
      Fails source levels depth reference (.noBaseType reference)

/-- The failure of the first failing reference below a root, in depth-first
order. -/
def FirstFailure (source : TypeSource) (levels : Nat) (given : Given) (root : String)
    (e : GenerateError) : Prop :=
  ∃ path reference, source.Reaches given root path reference ∧
    source.Fails levels path.length reference e ∧
    ∀ path' reference' e', source.Reaches given root path' reference' → Precedes path' path →
      ¬ source.Fails levels path'.length reference' e'

variable {source : TypeSource} {given : Given} {root : String} {levels : Nat}

/-- What a reference fails with blames the schema. -/
theorem Fails.isSchemaIntegrity {depth : Nat} {reference : String} {e : GenerateError}
    (h : source.Fails levels depth reference e) : e.isSchemaIntegrity = true := by
  cases h <;> rfl

/-- A reference fails in one way. -/
theorem Fails.unique {depth : Nat} {reference : String} {e e' : GenerateError}
    (h : source.Fails levels depth reference e) (h' : source.Fails levels depth reference e') :
    e = e' := by
  cases h with
  | tooDeep hd =>
    cases h' with
    | tooDeep _ => rfl
    | unknown hd' _ => omega
    | noBase hd' _ _ => omega
  | unknown hd hf =>
    cases h' with
    | tooDeep hd' => omega
    | unknown _ _ => rfl
    | noBase _ hf' _ => cases hf.symm.trans hf'
  | noBase hd hf _ =>
    cases h' with
    | tooDeep hd' => omega
    | unknown _ hf' => cases hf.symm.trans hf'
    | noBase _ _ _ => rfl

/-- One level down there is one level less to go. -/
theorem fails_succ_iff {depth : Nat} {reference : String} {e : GenerateError} :
    source.Fails (levels + 1) (depth + 1) reference e ↔ source.Fails levels depth reference e := by
  constructor
  · rintro (h | ⟨h, hf⟩ | ⟨h, hf, hb⟩)
    · exact .tooDeep (Nat.le_of_succ_le_succ h)
    · exact .unknown (Nat.lt_of_succ_lt_succ h) hf
    · exact .noBase (Nat.lt_of_succ_lt_succ h) hf hb
  · rintro (h | ⟨h, hf⟩ | ⟨h, hf, hb⟩)
    · exact .tooDeep (Nat.succ_le_succ h)
    · exact .unknown (Nat.succ_lt_succ h) hf
    · exact .noBase (Nat.succ_lt_succ h) hf hb

/-- What is found and has a base type does not fail where levels are left. -/
theorem not_fails_root {reference : String} {definition : TypeDef} {base : BaseType}
    (hf : source.find? reference = some definition) (hb : source.base? definition = some base)
    (e : GenerateError) : ¬ source.Fails (levels + 1) 0 reference e := by
  rintro (h | ⟨_, hf'⟩ | ⟨_, hf', hb'⟩)
  · omega
  · cases hf.symm.trans hf'
  · obtain rfl := Option.some.inj (hf.symm.trans hf')
    cases hb.symm.trans hb'

/-- A reference that refers to something does not fail itself. -/
theorem RefersTo.not_fails {branch : Branch} {child : String}
    (h : source.RefersTo given root branch child) (e : GenerateError) :
    ¬ source.Fails (levels + 1) 0 root e := by
  obtain ⟨d, base, hf, hb, _⟩ := h
  exact not_fails_root hf hb e

/-! ### Paths into one unfolding -/

/-- Without a step one stays where one is. -/
theorem reaches_nil_iff {target : String} : source.Reaches given root [] target ↔ root = target := by
  constructor
  · rintro ⟨⟩
    rfl
  · rintro rfl
    exact .here

/-- A path is its first step and the rest. -/
theorem reaches_cons_iff {branch : Branch} {path : List Branch} {target : String} :
    source.Reaches given root (branch :: path) target ↔
      ∃ child, source.RefersTo given root branch child ∧
        source.Reaches .nothing child path target := by
  constructor
  · rintro (_ | ⟨h, ht⟩)
    exact ⟨_, h, ht⟩
  · rintro ⟨_, h, ht⟩
    exact .through h ht

/-- **The reference at a path is unique.** -/
theorem Reaches.unique {path : List Branch} {a b : String} (ha : source.Reaches given root path a)
    (hb : source.Reaches given root path b) : a = b := by
  induction ha with
  | here => exact reaches_nil_iff.1 hb
  | through h _ ih =>
    obtain ⟨child, h', ht'⟩ := reaches_cons_iff.1 hb
    obtain rfl := h.unique h'
    exact ih ht'

/-- **Depth-first order is total on the paths of one unfolding.** -/
theorem Reaches.trichotomy {path path' : List Branch} {a b : String}
    (ha : source.Reaches given root path a) (hb : source.Reaches given root path' b) :
    path = path' ∨ Precedes path path' ∨ Precedes path' path := by
  induction ha generalizing path' with
  | here =>
    cases path' with
    | nil => exact .inl rfl
    | cons _ _ => exact .inr (.inl .root)
  | @through _ _ _ _ branch path h _ ih =>
    cases path' with
    | nil => exact .inr (.inr .root)
    | cons branch' path' =>
      obtain ⟨child', h', ht'⟩ := reaches_cons_iff.1 hb
      by_cases hbranch : branch = branch'
      · subst hbranch
        obtain rfl := h.unique h'
        rcases ih ht' with rfl | hp | hp
        · exact .inl rfl
        · exact .inr (.inl (.under hp))
        · exact .inr (.inr (.under hp))
      · -- Two branches of one reference that differ are those of a map.
        have hbase := h.same_base h'
        cases branch <;> cases branch' <;>
          first
            | exact absurd rfl hbranch
            | exact absurd hbase (by decide)
            | exact .inr (.inl .keyFirst)
            | exact .inr (.inr .keyFirst)

/-- **There is one first failure.** -/
theorem FirstFailure.unique {e e' : GenerateError} (h : source.FirstFailure levels given root e)
    (h' : source.FirstFailure levels given root e') : e = e' := by
  obtain ⟨path, reference, hr, hf, hfirst⟩ := h
  obtain ⟨path', reference', hr', hf', hfirst'⟩ := h'
  rcases hr.trichotomy hr' with rfl | hp | hp
  · obtain rfl := hr.unique hr'
    exact hf.unique hf'
  · exact absurd hf (hfirst' _ _ _ hr hp)
  · exact absurd hf' (hfirst _ _ _ hr' hp)

/-! ### What the resolver reports -/

/-- Nothing fails where the root does not and nothing below a branch of it does. -/
theorem not_fails_of_below (hroot : ∀ e, ¬ source.Fails (levels + 1) 0 root e)
    (hbelow : ∀ branch child path reference, source.RefersTo given root branch child →
      source.Reaches .nothing child path reference →
      ∀ e, ¬ source.Fails levels path.length reference e)
    {path : List Branch} {reference : String} (hr : source.Reaches given root path reference)
    (e : GenerateError) : ¬ source.Fails (levels + 1) path.length reference e := by
  rcases path with _ | ⟨branch, path⟩
  · obtain rfl := reaches_nil_iff.1 hr
    exact hroot e
  · obtain ⟨child, href, ht⟩ := reaches_cons_iff.1 hr
    rw [List.length_cons, fails_succ_iff]
    exact hbelow branch child path reference href ht e

/-- Nothing fails in an unfolding that is not nested deeper than the levels
allow. -/
theorem Unfolds.not_fails {tree : TypeTree} (h : source.Unfolds given root tree)
    (hn : tree.nesting < levels) {path : List Branch} {reference : String}
    (hr : source.Reaches given root path reference) (e : GenerateError) :
    ¬ source.Fails levels path.length reference e := by
  induction h generalizing levels path reference e with
  | leaf hf hb ha hm =>
    obtain ⟨levels, rfl⟩ := Nat.exists_eq_succ_of_ne_zero (Nat.ne_zero_of_lt hn)
    refine not_fails_of_below (not_fails_root hf hb) (fun branch _ _ _ href _ => ?_) hr e
    have hbase := href.base_eq hf hb
    cases branch
    · exact absurd hbase ha
    · exact absurd hbase hm
    · exact absurd hbase hm
  | list h _ ih =>
    rw [TypeTree.nesting] at hn
    obtain ⟨levels, rfl⟩ := Nat.exists_eq_succ_of_ne_zero (Nat.ne_zero_of_lt hn)
    refine not_fails_of_below h.not_fails (fun branch child path reference href ht e => ?_) hr e
    have hbase := h.same_base href
    cases branch
    case element =>
      obtain rfl := h.unique href
      exact ih (Nat.lt_of_succ_lt_succ hn) ht e
    all_goals exact absurd hbase (by decide)
  | map hk hv _ _ ihk ihv =>
    rw [TypeTree.nesting] at hn
    obtain ⟨levels, rfl⟩ := Nat.exists_eq_succ_of_ne_zero (Nat.ne_zero_of_lt hn)
    obtain ⟨hnk, hnv⟩ := Nat.max_lt.1 (Nat.lt_of_succ_lt_succ hn)
    refine not_fails_of_below hk.not_fails (fun branch child path reference href ht e => ?_) hr e
    have hbase := hk.same_base href
    cases branch
    case element => exact absurd hbase (by decide)
    case key =>
      obtain rfl := hk.unique href
      exact ihk hnk ht e
    case value =>
      obtain rfl := hv.unique href
      exact ihv hnv ht e

/-- A root that fails itself fails first. -/
theorem Fails.firstFailure {e : GenerateError} (h : source.Fails levels 0 root e) :
    source.FirstFailure levels given root e :=
  ⟨[], root, .here, h, fun _ _ _ _ hp => nomatch hp⟩

/-- What fails first below a branch fails first below the root, unless it is
below a map's value and something below the key fails too. -/
theorem FirstFailure.through {branch : Branch} {child : String} {e : GenerateError}
    (h : source.RefersTo given root branch child)
    (hc : source.FirstFailure levels .nothing child e)
    (hkey : branch = .value → ∀ key path reference e', source.RefersTo given root .key key →
      source.Reaches .nothing key path reference → ¬ source.Fails levels path.length reference e') :
    source.FirstFailure (levels + 1) given root e := by
  obtain ⟨path, reference, hr, hf, hfirst⟩ := hc
  refine ⟨branch :: path, reference, .through h hr, fails_succ_iff.2 hf,
    fun path' reference' e' hr' hp => ?_⟩
  cases hp with
  | root =>
    obtain rfl := reaches_nil_iff.1 hr'
    exact h.not_fails e'
  | keyFirst =>
    obtain ⟨key, href, ht⟩ := reaches_cons_iff.1 hr'
    rw [List.length_cons, fails_succ_iff]
    exact hkey rfl key _ _ _ href ht
  | under hp =>
    obtain ⟨child', href, ht⟩ := reaches_cons_iff.1 hr'
    obtain rfl := h.unique href
    rw [List.length_cons, fails_succ_iff]
    exact hfirst _ _ _ ht hp

/-- **An error is that of the first failing reference,** in the order in which they are
met. -/
theorem firstFailure_of_resolveWithin (given : Given) {boxed : Bool} {e : GenerateError}
    (h : source.resolveWithin levels root boxed given.items? given.keys? = .error e) :
    source.FirstFailure levels given root e := by
  induction levels generalizing given root boxed e with
  | zero =>
    obtain rfl := Except.error.inj h
    exact Fails.firstFailure (.tooDeep (Nat.le_refl 0))
  | succ levels ih =>
    have hs := step_meaning source given root
    rw [resolveWithin] at h
    generalize source.meaning root given.items? given.keys? = result at h hs
    cases hs with
    | unknown hf =>
      obtain rfl := Except.error.inj h
      exact Fails.firstFailure (.unknown (Nat.succ_pos _) hf)
    | noBase hf hb =>
      obtain rfl := Except.error.inj h
      exact Fails.firstFailure (.noBase (Nat.succ_pos _) hf hb)
    | scalar _ _ _ _ => cases h
    | @list element href =>
      rcases hr : source.resolveWithin levels element true none none with e' | t
      · simp only [hr, Except.map, Except.error.injEq] at h
        subst h
        exact (ih .nothing hr).through href (fun hb => by cases hb)
      · simp only [hr, Except.map] at h
        cases h
    | @map key value hk hv =>
      rcases hrk : source.resolveWithin levels key false none none with e' | k
      · simp only [hrk, Except.error.injEq] at h
        subst h
        exact (ih .nothing hrk).through hk (fun hb => by cases hb)
      · rcases hrv : source.resolveWithin levels value false none none with e' | v
        · simp only [hrk, hrv, Except.map, Except.error.injEq] at h
          subst h
          -- The key was resolved, so nothing below it comes before.
          refine (ih .nothing hrv).through hv fun _ key' path reference e' href ht => ?_
          obtain rfl := hk.unique href
          obtain ⟨tree, hkt, hn⟩ := exists_unfolds_of_resolveWithin .nothing hrk
          exact hkt.not_fails hn ht e'
        · simp only [hrk, hrv, Except.map] at h
          cases h

/-- **The first failure is reported.**  An error is the answer exactly when it is
the failure of the first failing reference in depth-first order, where the
references below 65 collections or more fail as recursive without being looked
up; and it always is a fault of the schema itself. -/
theorem resolve_eq_error_iff (source : TypeSource) (reference : String) (optional : Bool)
    (items? keys? : Option String) (e : GenerateError) :
    source.resolve reference optional items? keys? = .error e ↔
      source.FirstFailure 65 ⟨items?, keys?⟩ reference e ∧ e.isSchemaIntegrity = true := by
  constructor
  · intro h
    have hfirst := firstFailure_of_resolveWithin ⟨items?, keys?⟩ h
    have ⟨_, _, _, hf, _⟩ := hfirst
    exact ⟨hfirst, hf.isSchemaIntegrity⟩
  · rintro ⟨hfirst, -⟩
    rcases hr : source.resolve reference optional items? keys? with e' | t
    · have hfirst' := firstFailure_of_resolveWithin ⟨items?, keys?⟩ hr
      rw [hfirst'.unique hfirst]
    · obtain ⟨tree, ht, hn⟩ := exists_unfolds_of_resolveWithin ⟨items?, keys?⟩ hr
      obtain ⟨_, _, hreach, hf, _⟩ := hfirst
      exact absurd hf (ht.not_fails hn hreach e)

/-- The key of a map is reported although its value dangles too, and a list of
itself is given up. -/
example : (TypeSource.ofList [(.derived (.map "Index" "Key" "Value"), some .map)]).resolve "Index"
      false none none = .error (.unknownType "Key") ∧
    (TypeSource.ofList [(.derived (.array "Loop" "Loop"), some .array)]).resolve "Loop" false none
      none = .error (.recursiveType "Loop" 64) :=
  ⟨rfl, rfl⟩

end TypeSource

end ResourceSchema
