/-
# The nesting limit finds circles

Collections are followed 64 deep and no further, instead of remembering where
one has been.  `Registry.recursive_only_on_circles` says what this limit is
worth over the registry of a schema.  With at most 62 arrays and maps among the
schema's definitions it reports only references from which a definition that
leads back to itself can be reached, and with any number of them no reference
that reaches such a definition is ever resolved.

A path of 65 branches passes 65 collections.  The first of them may be no
definition of the schema but a bare `Array` or `Map` with what is given, and the
last one a bare `Array` or `Map` whose elements are `Any`.  The 63 between have
references of their own (`TypeSource.RefersTo.own`), so they are arrays and
maps of the schema, and with at most 62 of these one occurs twice
(`TypeSource.exists_circular_of_long_path`).

A circle is made of what definitions refer to by themselves.  What is given with
a reference is given once and not again further down, so it closes no circle: an
`Array` of which the elements are given as `Array` is a list of lists of
anything.
-/

import ResourceSchema.Proofs.Registry.FirstDefinition
import ResourceSchema.Proofs.TypeExpr.FirstFailure

namespace ResourceSchema

/-- Whether a definition is an array or a map, whatever it derives from. -/
def TypeDef.isCollection : TypeDef → Bool
  | .derived ⟨_, _, .array _ _, _, _⟩ | .derived ⟨_, _, .map _ _ _, _, _⟩ => true
  | _ => false

/-- A name that leads back to itself through what its definition and those below
it refer to. -/
def TypeSource.Circular (source : TypeSource) (name : String) : Prop :=
  ∃ branch path, source.Reaches .nothing name (branch :: path) name

/-- What a definition refers to, other than to `Any`, where nothing is given, it
refers to by itself. -/
theorem Below.own {d : TypeDef} {base : BaseType} {branch : Branch} {child : String}
    (h : Below .nothing d base branch child) (hne : child ≠ "Any") :
    d.isCollection = true ∧ ∀ given, Below given d base branch child := by
  cases h with
  | ownElement h =>
    refine ⟨?_, fun _ => .ownElement h⟩
    obtain ⟨_, _, _, _, _, rfl⟩ := h
    rfl
  | ownKey h =>
    refine ⟨?_, fun _ => .ownKey h⟩
    obtain ⟨_, _, _, _, _, rfl⟩ := h
    rfl
  | ownValue h =>
    refine ⟨?_, fun _ => .ownValue h⟩
    obtain ⟨_, _, _, _, _, rfl⟩ := h
    rfl
  | givenElement _ hi => cases hi; exact absurd rfl hne
  | givenKey _ hk => cases hk; exact absurd rfl hne
  | givenValue _ hi => cases hi; exact absurd rfl hne

namespace TypeSource

variable {source : TypeSource} {given : Given} {root a b : String}

/-! ### Paths in one graph of references -/

/-- A path behind a path is a path. -/
theorem Reaches.trans {p q : List Branch} (ha : source.Reaches .nothing root p a)
    (hb : source.Reaches .nothing a q b) : source.Reaches .nothing root (p ++ q) b := by
  generalize hg : Given.nothing = g at ha
  induction ha with
  | here => exact hg ▸ hb
  | through h _ ih => exact .through h (ih hb rfl)

/-- **A path can be broken anywhere.** -/
theorem Reaches.exists_between {p q : List Branch}
    (h : source.Reaches .nothing root (p ++ q) b) :
    ∃ a, source.Reaches .nothing root p a ∧ source.Reaches .nothing a q b := by
  induction p generalizing root with
  | nil => exact ⟨root, .here, h⟩
  | cons branch p ih =>
    obtain ⟨child, href, ht⟩ := reaches_cons_iff.1 h
    obtain ⟨a, ha, hb⟩ := ih ht
    exact ⟨a, .through href ha, hb⟩

/-- What reaches something that refers to more refers to something itself. -/
theorem Reaches.exists_refersTo {path : List Branch} {branch : Branch}
    (h : source.Reaches .nothing root path a) (ha : source.RefersTo .nothing a branch b) :
    ∃ branch' child, source.RefersTo .nothing root branch' child := by
  rcases path with _ | ⟨branch', path⟩
  · obtain rfl := reaches_nil_iff.1 h
    exact ⟨branch, b, ha⟩
  · obtain ⟨child, href, _⟩ := reaches_cons_iff.1 h
    exact ⟨branch', child, href⟩

/-- **What a tree refers to unfolds to a smaller tree.** -/
theorem Unfolds.of_refersTo {tree : TypeTree} {branch : Branch}
    (h : source.Unfolds given root tree) (hb : source.RefersTo given root branch b) :
    ∃ below, source.Unfolds .nothing b below ∧ below.nesting < tree.nesting := by
  cases h with
  | leaf hf hbase ha hm =>
    have hbranch := hb.base_eq hf hbase
    cases branch
    · exact absurd hbranch ha
    · exact absurd hbranch hm
    · exact absurd hbranch hm
  | list href ht =>
    have hbranch := href.same_base hb
    cases branch
    case element =>
      obtain rfl := href.unique hb
      exact ⟨_, ht, Nat.lt_succ_self _⟩
    all_goals exact absurd hbranch (by decide)
  | map hk hv hkt hvt =>
    have hbranch := hk.same_base hb
    cases branch
    case element => exact absurd hbranch (by decide)
    case key =>
      obtain rfl := hk.unique hb
      exact ⟨_, hkt, Nat.lt_succ_of_le (Nat.le_max_left _ _)⟩
    case value =>
      obtain rfl := hv.unique hb
      exact ⟨_, hvt, Nat.lt_succ_of_le (Nat.le_max_right _ _)⟩

/-- What a finite unfolding reaches unfolds too, and is nested less deep by the
length of the path. -/
theorem Unfolds.of_reaches {tree : TypeTree} {path : List Branch}
    (h : source.Unfolds .nothing root tree) (hr : source.Reaches .nothing root path a) :
    ∃ below, source.Unfolds .nothing a below ∧ below.nesting + path.length ≤ tree.nesting := by
  induction path generalizing root tree with
  | nil =>
    obtain rfl := reaches_nil_iff.1 hr
    exact ⟨tree, h, Nat.le_refl _⟩
  | cons branch path ih =>
    obtain ⟨child, href, ht⟩ := reaches_cons_iff.1 hr
    obtain ⟨t, hut, hlt⟩ := h.of_refersTo href
    obtain ⟨below, hu, hle⟩ := ih hut ht
    refine ⟨below, hu, ?_⟩
    rw [List.length_cons]
    omega

/-- What is passed twice on one path is on a circle. -/
theorem Circular.of_visits {p q : List Branch} (hp : source.Reaches .nothing root p a)
    (hpq : source.Reaches .nothing root (p ++ q) a) (hq : q ≠ []) : source.Circular a := by
  obtain ⟨b, hb, hcircle⟩ := hpq.exists_between
  obtain rfl := hb.unique hp
  obtain ⟨branch, rest, rfl⟩ := List.exists_cons_of_ne_nil hq
  exact ⟨branch, rest, hcircle⟩

/-- **A circle has no finite unfolding.** -/
theorem Circular.not_unfolds (h : source.Circular a) (tree : TypeTree) :
    ¬ source.Unfolds .nothing a tree := by
  obtain ⟨branch, path, hr⟩ := h
  intro hu
  obtain ⟨below, hb, hle⟩ := hu.of_reaches hr
  have hsame : below = tree := hb.unique hu
  rw [hsame, List.length_cons] at hle
  omega

/-! ### Sources where `Any` refers to nothing -/

section ScalarAny

variable (hany : ∀ given branch child, ¬ source.RefersTo given "Any" branch child)

include hany

/-- What refers to something that refers to more is an array or a map with
references of its own, whatever is given with it. -/
theorem RefersTo.own {branch branch' : Branch} {c : String}
    (h : source.RefersTo .nothing a branch b) (h' : source.RefersTo .nothing b branch' c) :
    (∃ d, source.find? a = some d ∧ d.isCollection = true) ∧
      ∀ given, source.RefersTo given a branch b := by
  have hne : b ≠ "Any" := by
    rintro rfl
    exact hany _ _ _ h'
  obtain ⟨d, base, hf, hb, hbelow⟩ := h
  obtain ⟨hd, hown⟩ := hbelow.own hne
  exact ⟨⟨d, hf, hd⟩, fun given => ⟨d, base, hf, hb, hown given⟩⟩

/-- **No reference that reaches a circle has a finite unfolding.** -/
theorem Circular.not_unfolds_of_reaches {path : List Branch} (h : source.Circular a)
    (hr : source.Reaches given root path a) (tree : TypeTree) :
    ¬ source.Unfolds given root tree := by
  intro hu
  -- One branch down nothing is given any more, and the circle is still below.
  have hbelow : ∃ branch child path, source.RefersTo given root branch child ∧
      source.Reaches .nothing child path a := by
    rcases path with _ | ⟨branch, path⟩
    · obtain rfl := reaches_nil_iff.1 hr
      obtain ⟨branch, path, hc⟩ := h
      obtain ⟨child, href, ht⟩ := reaches_cons_iff.1 hc
      obtain ⟨_, _, href'⟩ := ht.exists_refersTo href
      exact ⟨branch, child, path, (href.own hany href').2 given, ht⟩
    · obtain ⟨child, href, ht⟩ := reaches_cons_iff.1 hr
      exact ⟨branch, child, path, href, ht⟩
  obtain ⟨branch, child, path, href, ht⟩ := hbelow
  obtain ⟨t, hut, _⟩ := hu.of_refersTo href
  obtain ⟨below, hb, _⟩ := hut.of_reaches ht
  exact h.not_unfolds below hb

/-- What two more branches follow is an array or a map with references of its own. -/
theorem Reaches.isCollection {path : List Branch} (hr : source.Reaches .nothing a path b)
    (hlen : 2 ≤ path.length) : ∃ d, source.find? a = some d ∧ d.isCollection = true := by
  match path, hlen, hr with
  | branch :: branch' :: rest, _, hr =>
    obtain ⟨child, href, ht⟩ := reaches_cons_iff.1 hr
    obtain ⟨_, href', _⟩ := reaches_cons_iff.1 ht
    exact (href.own hany href').1

/-- **A path that is longer than there are arrays and maps passes one twice.**
The last of the collections on it need not be one of them. -/
theorem exists_circular_of_long_path {names : Finset String}
    (hnames : ∀ a d, source.find? a = some d → d.isCollection = true → a ∈ names)
    {path : List Branch} (hr : source.Reaches .nothing root path b)
    (hlen : names.card + 2 ≤ path.length) :
    ∃ p a d, source.Reaches .nothing root p a ∧ source.find? a = some d ∧
      d.isCollection = true ∧ source.Circular a := by
  have hbroken : ∀ i, ∃ a, source.Reaches .nothing root (path.take i) a ∧
      source.Reaches .nothing a (path.drop i) b := fun i =>
    Reaches.exists_between (by rwa [List.take_append_drop])
  choose visited hto hfrom using hbroken
  have hcollection : ∀ i ∈ Finset.range (names.card + 1),
      ∃ d, source.find? (visited i) = some d ∧ d.isCollection = true := by
    intro i hi
    have hle := Finset.mem_range.1 hi
    refine (hfrom i).isCollection hany ?_
    rw [List.length_drop]
    omega
  have hmaps : ∀ i ∈ Finset.range (names.card + 1), visited i ∈ names := by
    intro i hi
    obtain ⟨d, hf, hd⟩ := hcollection i hi
    exact hnames _ d hf hd
  have hcard : names.card < (Finset.range (names.card + 1)).card := by
    rw [Finset.card_range]
    omega
  obtain ⟨i, hi, j, hj, hne, hsame⟩ :=
    Finset.exists_ne_map_eq_of_card_lt_of_maps_to hcard hmaps
  wlog hij : i < j generalizing i j
  · exact this j hj i hi hne.symm hsame.symm (by omega)
  obtain ⟨d, hf, hd⟩ := hcollection i hi
  refine ⟨_, visited i, d, hto i, hf, hd, ?_⟩
  -- The way from the earlier occurrence to the later one is the circle.
  have hwhole : path.take j = path.take i ++ (path.drop i).take (j - i) := by
    rw [← List.take_add, Nat.add_sub_cancel' (Nat.le_of_lt hij)]
  have hagain : source.Reaches .nothing root (path.take i ++ (path.drop i).take (j - i))
      (visited i) := by
    rw [← hwhole, hsame]
    exact hto j
  refine Circular.of_visits (hto i) hagain (List.ne_nil_of_length_pos ?_)
  have hle := Finset.mem_range.1 hj
  rw [List.length_take, List.length_drop]
  omega

end ScalarAny

end TypeSource

namespace Registry

/-! ### The registry of a schema -/

/-- The type of anything refers to nothing. -/
theorem not_refersTo_any (schema : Schema) (given : Given) (branch : Branch) (child : String) :
    ¬ (ofSchema schema).source.RefersTo given "Any" branch child := by
  intro h
  have hfind : (ofSchema schema).source.find? "Any" = some (.base .any) :=
    find?_ofSchema_builtin schema .any
  have hbase := h.base_eq hfind rfl
  cases branch <;> cases hbase

/-- The names of the arrays and maps of a schema. -/
def collectionNames (schema : Schema) : Finset String :=
  ((schema.types.filter TypeDef.isCollection).map TypeDef.name).toFinset

/-- There are no more names of collections than definitions of collections. -/
theorem card_collectionNames_le (schema : Schema) :
    (collectionNames schema).card ≤ schema.types.countP TypeDef.isCollection := by
  rw [List.countP_eq_length_filter, ← List.length_map TypeDef.name]
  exact List.toFinset_card_le _

/-- The name of every collection is among them. -/
theorem mem_collectionNames (schema : Schema) (name : String) (d : TypeDef)
    (hf : (ofSchema schema).source.find? name = some d) (hd : d.isCollection = true) :
    name ∈ collectionNames schema := by
  rcases mem_of_find?_ofSchema hf with ⟨b, rfl⟩ | hown
  · cases hd
  · rw [collectionNames, List.mem_toFinset, List.mem_map]
    exact ⟨d, List.mem_filter.2 ⟨hown, hd⟩, name_of_find?_ofSchema hf⟩

/-- **The nesting limit finds circles.**  A schema with at most 62 arrays and maps
is called recursive only where one of them that leads back to itself can be
reached; and no reference that reaches something that leads back to itself is
ever resolved, however many there are. -/
theorem recursive_only_on_circles (schema : Schema) (reference : String) (optional : Bool)
    (items? keys? : Option String) :
    (schema.types.countP TypeDef.isCollection ≤ 62 → ∀ name limit,
      (ofSchema schema).source.resolve reference optional items? keys? =
        .error (.recursiveType name limit) →
      ∃ path circle d, (ofSchema schema).source.Reaches ⟨items?, keys?⟩ reference path circle ∧
        (ofSchema schema).find? circle = some d ∧ d.isCollection = true ∧
        (ofSchema schema).source.Circular circle) ∧
    (∀ path circle, (ofSchema schema).source.Reaches ⟨items?, keys?⟩ reference path circle →
      (ofSchema schema).source.Circular circle →
      ∀ e, (ofSchema schema).source.resolve reference optional items? keys? ≠ .ok e) := by
  have hany := not_refersTo_any schema
  constructor
  · intro hfew name limit h
    obtain ⟨path, deep, hr, hfails, _⟩ :=
      TypeSource.firstFailure_of_resolveWithin ⟨items?, keys?⟩ h
    obtain ⟨branch, rest, rfl, hrest⟩ : ∃ branch rest, path = branch :: rest ∧
        64 ≤ rest.length := by
      cases hfails with
      | tooDeep hlen =>
        rcases path with _ | ⟨branch, rest⟩
        · exact absurd hlen (by decide)
        · exact ⟨branch, rest, rfl, Nat.le_of_succ_le_succ hlen⟩
    obtain ⟨child, href, ht⟩ := TypeSource.reaches_cons_iff.1 hr
    have hlen : (collectionNames schema).card + 2 ≤ rest.length := by
      have := card_collectionNames_le schema
      omega
    obtain ⟨p, circle, d, hp, hf, hd, hc⟩ :=
      TypeSource.exists_circular_of_long_path hany (mem_collectionNames schema) ht hlen
    exact ⟨branch :: p, circle, d, .through href hp, hf, hd, hc⟩
  · intro path circle hr hc e h
    obtain ⟨tree, hu, _⟩ := TypeSource.exists_unfolds_of_resolveWithin ⟨items?, keys?⟩ h
    exact hc.not_unfolds_of_reaches hany hr tree hu

/-- A schema with a map and an array that contain each other. -/
def entwined : Schema :=
  { types := [.derived (.map "Tree" "String" "Forest"), .derived (.array "Forest" "Tree")] }

/-- Such a schema, with two collections that hold each other. -/
theorem recursive_only_on_circles_entwined :
    entwined.types.countP TypeDef.isCollection ≤ 62 ∧
    (ofSchema entwined).source.resolve "Array" false (some "Tree") none =
      .error (.recursiveType "Tree" 64) ∧
    (∃ path circle d,
      (ofSchema entwined).source.Reaches ⟨some "Tree", none⟩ "Array" path circle ∧
        (ofSchema entwined).find? circle = some d ∧ d.isCollection = true ∧
        (ofSchema entwined).source.Circular circle) ∧
    ∀ e, (ofSchema entwined).source.resolve "Array" true (some "Tree") none ≠ .ok e := by
  have hfew : entwined.types.countP TypeDef.isCollection ≤ 62 := by decide
  have hrecursive : (ofSchema entwined).source.resolve "Array" false (some "Tree") none =
      .error (.recursiveType "Tree" 64) := by
    decide +kernel
  have hcircle := (recursive_only_on_circles entwined "Array" false (some "Tree") none).1 hfew
    "Tree" 64 hrecursive
  obtain ⟨path, circle, d, hr, hf, hd, hc⟩ := hcircle
  exact ⟨hfew, hrecursive, ⟨path, circle, d, hr, hf, hd, hc⟩,
    (recursive_only_on_circles entwined "Array" true (some "Tree") none).2 path circle hr hc⟩

/-- An `Array` whose elements are given as `Array` is no circle. -/
example : (ofSchema {}).source.resolve "Array" false (some "Array") none =
    .ok (.list (.list (.token "Object"))) := by
  decide +kernel

end Registry

end ResourceSchema
