/-
# The grammar of type expressions

    expression = token | List<expression> | Map<expression,expression>

A token is any text without brackets and commas (`IsToken`).  It may be empty, it may
be a word that means something in Java, and it may be `List` or `Map` itself.  No
text can be parsed in two ways all the same (`Parses.unique`): a token goes as far
as the next bracket or comma, and after a token that stands for an expression
comes no opening bracket.

What follows an expression that is part of another starts with a closing bracket
or a comma (`Ends`), so uniqueness is proved for expressions before such a rest
(`Parses.unique_append`).  In the same way the brackets that are open at once are
counted along a text (`brackets`), and they are as many as the expression is deep.
-/

import ResourceSchema.TypeExpr.Basic

namespace ResourceSchema

namespace TypeExpr

/-- Whether a character separates tokens. -/
def isSeparator (c : Char) : Bool := c = '<' ∨ c = '>' ∨ c = ','

/-- A text that can be a token. -/
def IsToken (text : String) : Prop := ∀ c ∈ text.toList, isSeparator c = false

instance (text : String) : Decidable (IsToken text) :=
  List.decidableBAll (fun c => isSeparator c = false) text.toList

/-- A text is a type expression. -/
inductive Parses : String → TypeExpr → Prop
  | token {name : String} (h : IsToken name) : Parses name (.token name)
  | list {text : String} {element : TypeExpr} (h : Parses text element) :
      Parses ("List<" ++ text ++ ">") (.list element)
  | map {text text' : String} {key value : TypeExpr} (hk : Parses text key)
      (hv : Parses text' value) : Parses ("Map<" ++ text ++ "," ++ text' ++ ">") (.map key value)

/-- What can follow an expression. -/
def Ends (rest : List Char) : Prop := ∀ c ∈ rest.head?, c = '>' ∨ c = ','

variable {text text' name name' : String} {e e' : TypeExpr} {rest rest' : List Char}

/-- An expression may stand at the end of a text. -/
theorem ends_nil : Ends [] := nofun

/-- It may stand before a closing bracket. -/
theorem ends_close (rest : List Char) : Ends ('>' :: rest) :=
  fun _ hc => .inl (Option.some.inj hc).symm

/-- It may stand before a comma. -/
theorem ends_comma (rest : List Char) : Ends (',' :: rest) :=
  fun _ hc => .inr (Option.some.inj hc).symm

/-- What follows an expression is a separator, if anything follows. -/
theorem Ends.isSeparator (h : Ends rest) : ∀ c ∈ rest.head?, TypeExpr.isSeparator c = true := by
  intro c hc
  rcases h c hc with rfl | rfl <;> rfl

/-- No expression stands before an opening bracket. -/
theorem not_ends_open (rest : List Char) : ¬ Ends ('<' :: rest) := by
  intro h
  have hopen := h '<' rfl
  exact absurd hopen (by decide)

/-! ### Parsing -/

/-- **A token goes as far as the next separator.** -/
theorem IsToken.append_inj (hname : IsToken name) (hname' : IsToken name')
    (hrest : ∀ c ∈ rest.head?, isSeparator c = true)
    (hrest' : ∀ c ∈ rest'.head?, isSeparator c = true)
    (h : name.toList ++ rest = name'.toList ++ rest') : name = name' ∧ rest = rest' := by
  -- What one name has more would start with a separator.
  have hmore (more tail : List Char) (htoken : ∀ c ∈ more, isSeparator c = false)
      (hsep : ∀ c ∈ (more ++ tail).head?, isSeparator c = true) : more = [] := by
    rcases more with _ | ⟨c, more⟩
    · rfl
    · have hfalse := htoken c List.mem_cons_self
      rw [hsep c rfl] at hfalse
      cases hfalse
  rcases List.append_eq_append_iff.1 h with ⟨more, hmem, rfl⟩ | ⟨more, hmem, rfl⟩
  · obtain rfl := hmore more rest' (fun c hc => hname' c (hmem ▸ List.mem_append_right _ hc)) hrest
    rw [List.append_nil] at hmem
    exact ⟨(String.toList_inj.1 hmem).symm, rfl⟩
  · obtain rfl := hmore more rest (fun c hc => hname c (hmem ▸ List.mem_append_right _ hc)) hrest'
    rw [List.append_nil] at hmem
    exact ⟨String.toList_inj.1 hmem, rfl⟩

/-- An opening bracket is a separator. -/
theorem isSeparator_open (rest : List Char) :
    ∀ c ∈ ('<' :: rest).head?, isSeparator c = true := by
  rintro c ⟨⟩
  rfl

/-- What stands for itself is not opened by a bracket. -/
theorem IsToken.append_ne_open (hname : IsToken name) (hrest : Ends rest)
    (hname' : IsToken name') : name.toList ++ rest ≠ name'.toList ++ '<' :: rest' := by
  intro h
  obtain ⟨-, rfl⟩ := hname.append_inj hname' hrest.isSeparator (isSeparator_open rest') h
  exact not_ends_open rest' hrest

/-- The characters of a list and of what follows it. -/
theorem toList_list (text : String) (rest : List Char) :
    ("List<" ++ text ++ ">").toList ++ rest =
      "List".toList ++ '<' :: (text.toList ++ '>' :: rest) := by
  simp

/-- The characters of a map and of what follows it. -/
theorem toList_map (key value : String) (rest : List Char) :
    ("Map<" ++ key ++ "," ++ value ++ ">").toList ++ rest =
      "Map".toList ++ '<' :: (key.toList ++ ',' :: (value.toList ++ '>' :: rest)) := by
  simp

/-- The word for lists is a token. -/
theorem isToken_list : IsToken "List" := by decide

/-- The word for maps is a token. -/
theorem isToken_map : IsToken "Map" := by decide

/-- A list is no map. -/
theorem list_ne_map (rest rest' : List Char) :
    "List".toList ++ '<' :: rest ≠ "Map".toList ++ '<' :: rest' := by
  intro h
  obtain ⟨hname, -⟩ :=
    isToken_list.append_inj isToken_map (isSeparator_open rest) (isSeparator_open rest') h
  exact absurd hname (by decide)

/-- **An expression and what follows it are told apart in one way.** -/
theorem Parses.unique_append (h : Parses text e) (h' : Parses text' e') (hrest : Ends rest)
    (hrest' : Ends rest') (heq : text.toList ++ rest = text'.toList ++ rest') :
    e = e' ∧ rest = rest' := by
  -- With any rest, since the key of a map is followed by the rest of the map.
  induction h generalizing text' e' rest rest' with
  | token hname =>
    cases h' with
    | token hname' =>
      obtain ⟨rfl, hr⟩ := hname.append_inj hname' hrest.isSeparator hrest'.isSeparator heq
      exact ⟨rfl, hr⟩
    | list _ =>
      rw [toList_list] at heq
      exact absurd heq (hname.append_ne_open hrest isToken_list)
    | map _ _ =>
      rw [toList_map] at heq
      exact absurd heq (hname.append_ne_open hrest isToken_map)
  | list _ ih =>
    rw [toList_list] at heq
    cases h' with
    | token hname' => exact absurd heq.symm (hname'.append_ne_open hrest' isToken_list)
    | list h' =>
      rw [toList_list] at heq
      have htail := List.tail_eq_of_cons_eq (List.append_cancel_left heq)
      obtain ⟨rfl, hr⟩ := ih h' (ends_close _) (ends_close _) htail
      exact ⟨rfl, List.tail_eq_of_cons_eq hr⟩
    | map _ _ =>
      rw [toList_map] at heq
      exact absurd heq (list_ne_map _ _)
  | map _ _ ihk ihv =>
    rw [toList_map] at heq
    cases h' with
    | token hname' => exact absurd heq.symm (hname'.append_ne_open hrest' isToken_map)
    | list _ =>
      rw [toList_list] at heq
      exact absurd heq.symm (list_ne_map _ _)
    | map hk' hv' =>
      rw [toList_map] at heq
      have htail := List.tail_eq_of_cons_eq (List.append_cancel_left heq)
      obtain ⟨rfl, hvalue⟩ := ihk hk' (ends_comma _) (ends_comma _) htail
      obtain ⟨rfl, hr⟩ := ihv hv' (ends_close _) (ends_close _) (List.tail_eq_of_cons_eq hvalue)
      exact ⟨rfl, List.tail_eq_of_cons_eq hr⟩

/-- **No text is two expressions.** -/
theorem Parses.unique (h : Parses text e) (h' : Parses text e') : e = e' :=
  (h.unique_append h' ends_nil ends_nil rfl).1

/-! ### Brackets -/

/-- The most brackets that are open at once along a text, at whose start so many are
open. -/
def bracketsFrom (opened : Nat) : List Char → Nat
  | [] => opened
  | c :: rest =>
    max opened (bracketsFrom
      (if c = '<' then opened + 1 else if c = '>' then opened - 1 else opened) rest)

/-- How deep the brackets of a text are nested. -/
def brackets (text : String) : Nat := bracketsFrom 0 text.toList

/-- Brackets that are open count. -/
theorem le_bracketsFrom (opened : Nat) (rest : List Char) : opened ≤ bracketsFrom opened rest := by
  cases rest with
  | nil => exact Nat.le_refl opened
  | cons c rest => exact Nat.le_max_left _ _

theorem bracketsFrom_open (opened : Nat) (rest : List Char) :
    bracketsFrom opened ('<' :: rest) = max opened (bracketsFrom (opened + 1) rest) := rfl

theorem bracketsFrom_close (opened : Nat) (rest : List Char) :
    bracketsFrom (opened + 1) ('>' :: rest) = max (opened + 1) (bracketsFrom opened rest) := rfl

theorem bracketsFrom_comma (opened : Nat) (rest : List Char) :
    bracketsFrom opened (',' :: rest) = bracketsFrom opened rest :=
  Nat.max_eq_right (le_bracketsFrom opened rest)

/-- A token has no brackets. -/
theorem IsToken.bracketsFrom_append (h : IsToken name) (opened : Nat) (rest : List Char) :
    bracketsFrom opened (name.toList ++ rest) = bracketsFrom opened rest := by
  unfold IsToken at h
  generalize name.toList = chars at h
  induction chars with
  | nil => rfl
  | cons c chars ih =>
    have hc := h c List.mem_cons_self
    have hopen : c ≠ '<' := by rintro rfl; cases hc
    have hclose : c ≠ '>' := by rintro rfl; cases hc
    rw [List.cons_append, bracketsFrom, if_neg hopen, if_neg hclose,
      ih fun d hd => h d (List.mem_cons_of_mem c hd)]
    exact Nat.max_eq_right (le_bracketsFrom opened rest)

/-- An expression opens as many brackets as it is deep, and closes them again. -/
theorem Parses.bracketsFrom_append (h : Parses text e) (opened : Nat) (rest : List Char) :
    bracketsFrom opened (text.toList ++ rest) =
      max (opened + e.depth) (bracketsFrom opened rest) := by
  have hle := le_bracketsFrom opened rest
  induction h generalizing opened rest with
  | token hname =>
    rw [hname.bracketsFrom_append, depth]
    omega
  | list _ ih =>
    rw [toList_list, isToken_list.bracketsFrom_append, bracketsFrom_open,
      ih _ _ (le_bracketsFrom _ _), bracketsFrom_close, depth]
    omega
  | map _ _ ihk ihv =>
    rw [toList_map, isToken_map.bracketsFrom_append, bracketsFrom_open,
      ihk _ _ (le_bracketsFrom _ _), bracketsFrom_comma, ihv _ _ (le_bracketsFrom _ _),
      bracketsFrom_close, depth]
    omega

/-- **The brackets of a text are nested as deep as its expression.** -/
theorem Parses.brackets_eq (h : Parses text e) : brackets text = e.depth := by
  have happend := h.bracketsFrom_append 0 []
  rw [List.append_nil, bracketsFrom] at happend
  rw [brackets, happend]
  omega

end TypeExpr

end ResourceSchema
