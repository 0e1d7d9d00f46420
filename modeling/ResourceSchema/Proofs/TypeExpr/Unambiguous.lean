/-
# Type expressions are unambiguous

The resolver builds an expression and hands out its text, in which the names of a
schema's types stand as they are.  `Registry.texts_unambiguous` says that nothing
is lost on the way, as long as no type has a bracket or a comma in its name: the
text is parsed in one way only, and that is the expression the resolver built.
So two references with one text have one expression, be they of one schema or of
two.

The expression is that of the unfolding of the reference (`TypeTree.expr`), and
each of its tokens stands at the path of the reference that it was made from
(`TypeSource.Unfolds.token_at`).  Under a list it is always the boxed one.  A class
of the schema may still be called `int`: what matters is not how a token reads but
which reference it comes from.
-/

import ResourceSchema.Proofs.Registry.FirstDefinition
import ResourceSchema.Proofs.TypeExpr.Grammar
import ResourceSchema.Proofs.TypeExpr.Resolution

namespace ResourceSchema

/-- Whether a type has a primitive token besides the class that boxes it. -/
def BaseType.isPrimitive : BaseType → Bool
  | bool | int8 | int16 | int32 | int64 | float32 | float64 => true
  | _ => false

/-- The expression at the end of a path. -/
def TypeExpr.at? : TypeExpr → List Branch → Option TypeExpr
  | e, [] => some e
  | .list element, .element :: path => element.at? path
  | .map key _, .key :: path => key.at? path
  | .map _ value, .value :: path => value.at? path
  | _, _ :: _ => none

/-- Whether the place at the end of a path is boxed, below a root that is boxed or
not. -/
def boxedAt (boxed : Bool) : List Branch → Bool
  | [] => boxed
  | branch :: path => boxedAt (branch = .element) path

/-- Elements are boxed. -/
theorem boxedAt_element (boxed : Bool) (path : List Branch) :
    boxedAt boxed (path ++ [.element]) = true := by
  induction path generalizing boxed with
  | nil => rfl
  | cons branch path ih => exact ih _

/-- The two tokens of a primitive type differ. -/
theorem boxed_ne_primitive {base : BaseType} (h : base.isPrimitive = true) (reference : String)
    (d : TypeDef) :
    (scalarTokens reference d base).boxed ≠ (scalarTokens reference d base).primitive := by
  cases base
  case bool | int8 | int16 | int32 | int64 | float32 | float64 => exact of_decide_eq_true rfl
  all_goals cases h

/-- The token of a reference is one if the reference is. -/
theorem isToken_leafToken {reference : String} (h : TypeExpr.IsToken reference) (d : TypeDef)
    (boxed : Bool) (base : BaseType) : TypeExpr.IsToken (leafToken reference d boxed base) := by
  have hobject : TypeExpr.IsToken "Object" := by decide
  have hstring : TypeExpr.IsToken "String" := by decide
  cases base
  case any => exact hobject
  case string | symbol | timestamp | uuid => exact hstring
  case bool | int8 | int16 | int32 | int64 | float32 | float64 =>
    rw [leafToken]
    cases boxed <;> decide
  case struct =>
    rw [leafToken]
    split
    · exact hobject
    · exact h
  all_goals exact h

/-- The depth of an expression is the nesting of its tree. -/
theorem TypeTree.depth_expr (tree : TypeTree) (boxed : Bool) :
    (tree.expr boxed).depth = tree.nesting := by
  induction tree generalizing boxed with
  | leaf _ _ _ => rfl
  | list _ _ ih => rw [expr, TypeExpr.depth, ih, nesting]
  | map _ _ _ ihk ihv => rw [expr, TypeExpr.depth, ihk, ihv, nesting]

namespace TypeSource

variable {source : TypeSource} {given : Given} {reference name : String} {tree : TypeTree}

/-- **The expression of an unfolding is what its text is parsed to,** if whatever is
found has a name that can be a token. -/
theorem Unfolds.parses
    (hnames : ∀ found d, source.find? found = some d → TypeExpr.IsToken found)
    (h : source.Unfolds given reference tree) (boxed : Bool) :
    TypeExpr.Parses (tree.expr boxed).render (tree.expr boxed) := by
  induction h generalizing boxed with
  | leaf hf _ _ _ => exact .token (isToken_leafToken (hnames _ _ hf) _ boxed _)
  | list _ _ ih => exact .list (ih true)
  | map _ _ _ _ ihk ihv => exact .map (ihk false) (ihv false)

/-- **Every token comes from the reference at its path,** and is the boxed one of it
if its place is boxed. -/
theorem Unfolds.token_at (h : source.Unfolds given reference tree) {boxed : Bool}
    {path : List Branch} (hat : (tree.expr boxed).at? path = some (.token name)) :
    ∃ found d base, source.Reaches given reference path found ∧ source.find? found = some d ∧
      source.base? d = some base ∧
      name = (scalarTokens found d base).pick (boxedAt boxed path) := by
  induction h generalizing boxed path with
  | @leaf given reference d base hf hb _ _ =>
    cases path with
    | nil =>
      cases hat
      exact ⟨reference, d, base, .here, hf, hb, (pick_scalarTokens reference d base boxed).symm⟩
    | cons branch _ => cases branch <;> cases hat
  | list href _ ih =>
    cases path with
    | nil => cases hat
    | cons branch path =>
      cases branch
      case element =>
        obtain ⟨found, d, base, hr, hfound⟩ := ih hat
        exact ⟨found, d, base, .through href hr, hfound⟩
      all_goals cases hat
  | map hk hv _ _ ihk ihv =>
    cases path with
    | nil => cases hat
    | cons branch path =>
      cases branch
      case element => cases hat
      case key =>
        obtain ⟨found, d, base, hr, hfound⟩ := ihk hat
        exact ⟨found, d, base, .through hk hr, hfound⟩
      case value =>
        obtain ⟨found, d, base, hr, hfound⟩ := ihv hat
        exact ⟨found, d, base, .through hv hr, hfound⟩

/-- What is resolved is the expression of the unfolding. -/
theorem exists_expr_of_resolve {optional : Bool} {items? keys? : Option String} {e : TypeExpr}
    (h : source.resolve reference optional items? keys? = .ok e) :
    ∃ tree, source.Unfolds ⟨items?, keys?⟩ reference tree ∧ tree.nesting ≤ maxNesting ∧
      e = tree.expr optional := by
  obtain ⟨tree, ht, hn⟩ := exists_unfolds_of_resolveWithin ⟨items?, keys?⟩ h
  have he := h.symm.trans (ht.resolveWithin_eq hn optional)
  exact ⟨tree, ht, Nat.le_of_lt_succ hn, Except.ok.inj he⟩

end TypeSource

namespace Registry

/-- What is found in a schema has a name that can be a token, if the schema's own
types have. -/
theorem isToken_of_find? {schema : Schema}
    (hnames : ∀ d ∈ schema.types, TypeExpr.IsToken d.name) {name : String} {d : TypeDef}
    (h : (ofSchema schema).find? name = some d) : TypeExpr.IsToken name := by
  rw [← name_of_find?_ofSchema h]
  rcases mem_of_find?_ofSchema h with ⟨b, rfl⟩ | hown
  · cases b <;> decide
  · exact hnames d hown

/-- What is resolved is parsed from its text. -/
theorem parses_of_resolve {schema : Schema}
    (hnames : ∀ d ∈ schema.types, TypeExpr.IsToken d.name) {reference : String} {optional : Bool}
    {items? keys? : Option String} {e : TypeExpr}
    (h : (ofSchema schema).source.resolve reference optional items? keys? = .ok e) :
    TypeExpr.Parses e.render e := by
  obtain ⟨tree, ht, -, rfl⟩ := TypeSource.exists_expr_of_resolve h
  exact ht.parses (fun _ _ hf => isToken_of_find? hnames hf) optional

/-- **Type expressions are unambiguous.**  The text of an answer is parsed to the
expression that was built along the unfolding of the reference and to no other; its
brackets are nested 64 deep at most; what stands directly under a list is the boxed
token of a reference, which is not its primitive one if it has one; and no other
expression of this or another schema has the same text. -/
theorem texts_unambiguous {schema : Schema}
    (hnames : ∀ d ∈ schema.types, TypeExpr.IsToken d.name) {reference : String} {optional : Bool}
    {items? keys? : Option String} {e : TypeExpr}
    (h : (ofSchema schema).source.resolve reference optional items? keys? = .ok e) :
    (∀ parse, TypeExpr.Parses e.render parse ↔ parse = e) ∧
    (∃ tree, (ofSchema schema).source.Unfolds ⟨items?, keys?⟩ reference tree ∧
      e = tree.expr optional) ∧
    TypeExpr.brackets e.render ≤ 64 ∧
    (∀ path name, e.at? (path ++ [.element]) = some (.token name) →
      ∃ found d base,
        (ofSchema schema).source.Reaches ⟨items?, keys?⟩ reference (path ++ [.element]) found ∧
        (ofSchema schema).find? found = some d ∧ (ofSchema schema).base? d = some base ∧
        name = (scalarTokens found d base).boxed ∧
        (base.isPrimitive = true → name ≠ (scalarTokens found d base).primitive)) ∧
    ∀ (schema' : Schema), (∀ d ∈ schema'.types, TypeExpr.IsToken d.name) →
      ∀ reference' optional' items?' keys?' e',
        (ofSchema schema').source.resolve reference' optional' items?' keys?' = .ok e' →
        e'.render = e.render → e' = e := by
  have hparses := parses_of_resolve hnames h
  obtain ⟨tree, ht, hn, htree⟩ := TypeSource.exists_expr_of_resolve h
  refine ⟨fun parse => ⟨fun hp => hp.unique hparses, fun hp => hp ▸ hparses⟩, ⟨tree, ht, htree⟩,
    ?_, fun path name hat => ?_, fun schema' hnames' _ _ _ _ e' h' htext => ?_⟩
  · rw [hparses.brackets_eq, htree, TypeTree.depth_expr]
    exact hn
  · rw [htree] at hat
    obtain ⟨found, d, base, hr, hf, hb, hname⟩ := ht.token_at hat
    rw [boxedAt_element, Tokens.pick, if_pos rfl] at hname
    exact ⟨found, d, base, hr, hf, hb, hname, fun hbase => hname ▸ boxed_ne_primitive hbase found d⟩
  · have hparses' := parses_of_resolve hnames' h'
    rw [htext] at hparses'
    exact hparses'.unique hparses

/-- A schema with classes called `List` and `int`. -/
def javaNames : Schema :=
  { types := [.derived (.struct "List" []), .derived (.struct "int" []),
      .derived (.array "Counts" "Int32"), .derived (.array "Items" "int"),
      .derived (.map "Index" "List" "Counts")] }

/-- Such a schema, with types that are called like the word for lists and like a primitive
type. -/
theorem texts_unambiguous_javaNames :
    (∀ d ∈ javaNames.types, TypeExpr.IsToken d.name) ∧
    (ofSchema javaNames).source.resolve "Index" false none none =
      .ok (.map (.token "List") (.list (.token "Integer"))) ∧
    (∀ parse, TypeExpr.Parses "Map<List,List<Integer>>" parse ↔
      parse = .map (.token "List") (.list (.token "Integer"))) ∧
    (∃ found d base,
      (ofSchema javaNames).source.Reaches .nothing "Index" [.value, .element] found ∧
      (ofSchema javaNames).find? found = some d ∧ (ofSchema javaNames).base? d = some base ∧
      "Integer" = (scalarTokens found d base).boxed ∧
      (base.isPrimitive = true → "Integer" ≠ (scalarTokens found d base).primitive)) := by
  have hnames : ∀ d ∈ javaNames.types, TypeExpr.IsToken d.name := by decide
  have hindex : (ofSchema javaNames).source.resolve "Index" false none none =
      .ok (.map (.token "List") (.list (.token "Integer"))) := by
    decide +kernel
  obtain ⟨hparse, -, -, hlist, -⟩ := texts_unambiguous hnames hindex
  exact ⟨hnames, hindex, hparse, hlist [.value] "Integer" rfl⟩

/-- A list of numbers and a list of the class `int` differ in their texts. -/
example : ((ofSchema javaNames).source.resolve "Counts" false none none).map TypeExpr.render =
      .ok "List<Integer>" ∧
    ((ofSchema javaNames).source.resolve "Items" false none none).map TypeExpr.render =
      .ok "List<int>" := by
  decide +kernel

end Registry

end ResourceSchema
