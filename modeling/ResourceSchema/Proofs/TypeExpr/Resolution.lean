/-
# Resolving is unfolding

The resolver follows references with a counter of levels and builds the
expression on the way back.  `TypeSource.resolve_render_eq_ok_iff` says what
comes of it without either: a text is the answer exactly when the reference has
a finite unfolding in which no path passes more than 64 collections, and the
text is that of the unfolding.  The unfolding is unique.

The text of an unfolding (`TypeTree.text`) knows the place of each reference:
the elements of a list are boxed, the keys and values of a map are not, and the
root is as it is asked for.
-/

import ResourceSchema.Proofs.TypeExpr.Unfolding

namespace ResourceSchema

/-- The token of a reference that is no collection, at a place that is boxed or
not. -/
def leafToken (reference : String) (definition : TypeDef) (boxed : Bool) : BaseType → String
  | .any => "Object"
  | .string | .symbol | .timestamp | .uuid => "String"
  | .bool => if boxed then "Boolean" else "boolean"
  | .int8 => if boxed then "Byte" else "byte"
  | .int16 => if boxed then "Short" else "short"
  | .int32 => if boxed then "Integer" else "int"
  | .int64 => if boxed then "Long" else "long"
  | .float32 => if boxed then "Float" else "float"
  | .float64 => if boxed then "Double" else "double"
  | .struct => if definition.name = "Struct" then "Object" else reference
  | .bytes | .enum | .union | .array | .map => reference

/-- Of the two tokens of a scalar the boxed one is taken where it is asked for. -/
theorem pick_scalarTokens (reference : String) (definition : TypeDef) (base : BaseType)
    (boxed : Bool) :
    (scalarTokens reference definition base).pick boxed =
      leafToken reference definition boxed base := by
  cases base
  case struct =>
    have hn : BaseType.struct.name = "Struct" := rfl
    rw [scalarTokens, leafToken, hn]
    by_cases h : definition.name = "Struct"
    · rw [if_pos h, if_pos h]
      cases boxed <;> rfl
    · rw [if_neg h, if_neg h]
      cases boxed <;> rfl
  all_goals cases boxed <;> rfl

namespace TypeTree

/-- The text of an unfolding whose root is boxed or not. -/
def text : TypeTree → Bool → String
  | leaf reference definition base, boxed => leafToken reference definition boxed base
  | list _ element, _ => "List<" ++ element.text true ++ ">"
  | map _ key value, _ => "Map<" ++ key.text false ++ "," ++ value.text false ++ ">"

/-- The expression of an unfolding whose root is boxed or not. -/
def expr : TypeTree → Bool → TypeExpr
  | leaf reference definition base, boxed => .token (leafToken reference definition boxed base)
  | list _ element, _ => .list (element.expr true)
  | map _ key value, _ => .map (key.expr false) (value.expr false)

/-- **The text of a tree is that of its expression.** -/
theorem render_expr (tree : TypeTree) (boxed : Bool) : (tree.expr boxed).render = tree.text boxed := by
  induction tree generalizing boxed with
  | leaf _ _ _ => rfl
  | list _ element ih => rw [expr, TypeExpr.render, ih, text]
  | map _ key value ihk ihv => rw [expr, TypeExpr.render, ihk, ihv, text]

end TypeTree

namespace TypeSource

variable {source : TypeSource} {given : Given} {reference : String}

/-- **A reference has at most one unfolding.** -/
theorem Unfolds.unique {tree tree' : TypeTree} (h : source.Unfolds given reference tree)
    (h' : source.Unfolds given reference tree') : tree = tree' := by
  induction h generalizing tree' with
  | leaf hf hb ha hm =>
    cases h' with
    | leaf hf' hb' _ _ =>
      obtain rfl := Option.some.inj (hf.symm.trans hf')
      obtain rfl := Option.some.inj (hb.symm.trans hb')
      rfl
    | list h' _ => exact absurd (h'.base_eq hf hb) ha
    | map hk' _ _ _ => exact absurd (hk'.base_eq hf hb) hm
  | list h _ ih =>
    cases h' with
    | leaf hf' hb' ha' _ => exact absurd (h.base_eq hf' hb') ha'
    | list h' ht' =>
      obtain rfl := h.unique h'
      rw [ih ht']
    | map hk' _ _ _ => exact absurd (h.same_base hk') (by decide)
  | map hk hv _ _ ihk ihv =>
    cases h' with
    | leaf hf' hb' _ hm' => exact absurd (hk.base_eq hf' hb') hm'
    | list h' _ => exact absurd (h'.same_base hk) (by decide)
    | map hk' hv' hkt' hvt' =>
      obtain rfl := hk.unique hk'
      obtain rfl := hv.unique hv'
      rw [ihk hkt', ihv hvt']

/-- An unfolding that is not nested deeper than the levels allow is resolved. -/
theorem Unfolds.resolveWithin_eq {tree : TypeTree} (h : source.Unfolds given reference tree)
    {levels : Nat} (hl : tree.nesting < levels) (boxed : Bool) :
    source.resolveWithin levels reference boxed given.items? given.keys? =
      .ok (tree.expr boxed) := by
  induction h generalizing levels boxed with
  | leaf hf hb ha hm =>
    obtain ⟨levels, rfl⟩ := Nat.exists_eq_succ_of_ne_zero (Nat.ne_of_gt hl)
    rw [resolveWithin, meaning_of_scalar hf hb ha hm]
    simp only [TypeTree.expr, pick_scalarTokens]
  | list h _ ih =>
    rw [TypeTree.nesting] at hl
    obtain ⟨levels, rfl⟩ := Nat.exists_eq_succ_of_ne_zero (Nat.ne_zero_of_lt hl)
    rw [resolveWithin, meaning_of_element h]
    exact congrArg (Except.map TypeExpr.list) (ih (by omega) true)
  | map hk hv _ _ ihk ihv =>
    rw [TypeTree.nesting] at hl
    obtain ⟨levels, rfl⟩ := Nat.exists_eq_succ_of_ne_zero (Nat.ne_zero_of_lt hl)
    obtain ⟨hlk, hlv⟩ := Nat.max_lt.1 (Nat.lt_of_succ_lt_succ hl)
    have hkey := ihk hlk false
    have hvalue := ihv hlv false
    simp only [Given.nothing] at hkey hvalue
    rw [resolveWithin, meaning_of_key_value hk hv]
    simp only [hkey, hvalue]
    rfl

/-- What is resolved has an unfolding, nested no deeper than the levels allow. -/
theorem exists_unfolds_of_resolveWithin (given : Given) {levels : Nat} {boxed : Bool}
    {e : TypeExpr}
    (h : source.resolveWithin levels reference boxed given.items? given.keys? = .ok e) :
    ∃ tree, source.Unfolds given reference tree ∧ tree.nesting < levels := by
  -- One level down nothing is given any more, and another token is asked for.
  induction levels generalizing given reference boxed e with
  | zero => cases h
  | succ levels ih =>
    have hs := step_meaning source given reference
    rw [resolveWithin] at h
    generalize source.meaning reference given.items? given.keys? = result at h hs
    cases hs with
    | unknown _ => cases h
    | noBase _ _ => cases h
    | scalar hf hb ha hm => exact ⟨_, .leaf hf hb ha hm, Nat.succ_pos _⟩
    | @list element href =>
      rcases hr : source.resolveWithin levels element true none none with e' | t
      · simp only [hr, Except.map] at h
        cases h
      · obtain ⟨tree, ht, hn⟩ := ih .nothing hr
        exact ⟨_, .list href ht, Nat.succ_lt_succ hn⟩
    | @map key value hk hv =>
      rcases hrk : source.resolveWithin levels key false none none with e' | k
      · simp only [hrk] at h
        cases h
      · rcases hrv : source.resolveWithin levels value false none none with e' | v
        · simp only [hrk, hrv, Except.map] at h
          cases h
        · obtain ⟨keyTree, hkt, hnk⟩ := ih .nothing hrk
          obtain ⟨valueTree, hvt, hnv⟩ := ih .nothing hrv
          have hn : max keyTree.nesting valueTree.nesting < levels := Nat.max_lt.2 ⟨hnk, hnv⟩
          exact ⟨_, .map hk hv hkt hvt, Nat.succ_lt_succ hn⟩

/-- **Resolving is unfolding.**  The answer is a text exactly when the reference
unfolds to a finite tree, its only unfolding, in which no path passes more than
64 collections, and the text is the tree's. -/
theorem resolve_render_eq_ok_iff (source : TypeSource) (reference : String) (optional : Bool)
    (items? keys? : Option String) (text : String) :
    (source.resolve reference optional items? keys?).map TypeExpr.render = .ok text ↔
      ∃ tree, source.Unfolds ⟨items?, keys?⟩ reference tree ∧
        (∀ other, source.Unfolds ⟨items?, keys?⟩ reference other → other = tree) ∧
        tree.nesting ≤ 64 ∧ tree.text optional = text := by
  constructor
  · intro h
    rcases hr : source.resolve reference optional items? keys? with e | t
    · rw [hr] at h
      cases h
    · obtain ⟨tree, ht, hn⟩ := exists_unfolds_of_resolveWithin ⟨items?, keys?⟩ hr
      refine ⟨tree, ht, fun _ ho => ho.unique ht, Nat.le_of_lt_succ hn, ?_⟩
      have hexpr : t = tree.expr optional :=
        Except.ok.inj (hr.symm.trans (ht.resolveWithin_eq hn optional))
      rw [hr] at h
      rw [← TypeTree.render_expr, ← hexpr]
      exact Except.ok.inj h
  · rintro ⟨tree, ht, -, hn, rfl⟩
    have hlt : tree.nesting < maxNesting + 1 := Nat.lt_succ_of_le hn
    have he := ht.resolveWithin_eq hlt optional
    rw [resolve, he, Except.map, TypeTree.render_expr]

/-- The values of a map are not boxed, but the elements of a list among them
are. -/
example : ((TypeSource.ofList [(.derived (.map "Index" "Age" "Ages"), some .map),
    (.derived (.array "Ages" "Age"), some .array),
    (.derived (.number "Age" .int32), some .int32)]).resolve "Index" true none none).map
      TypeExpr.render = .ok "Map<int,List<Integer>>" := rfl

end TypeSource

end ResourceSchema
