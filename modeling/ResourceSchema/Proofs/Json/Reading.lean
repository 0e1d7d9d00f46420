/-
# The reader accepts exactly the grammar

`Json.reads_readValue_iff` says what the reader of values does at the first
character that is no blank.  With the loops for lists and objects it follows by
induction on the depth that a value is read exactly where the grammar has one
(`Json.fits_readValue`), so that a whole text is read exactly if it renders a
tree, and as this tree (`Json.parse_eq_ok_iff`).

A schema is read from a text in two steps, first the tree and then its form, so
what is wrong with the text comes before everything that is wrong with the
form (`Schema.parse_by_grammar`).
-/

import Mathlib.Data.List.TakeWhile
import ResourceSchema.Proofs.Json.Loops
import ResourceSchema.Proofs.Json.Members
import ResourceSchema.Schema.Document

namespace ResourceSchema

open Grammar

namespace Json

variable {depth : Nat} {text rest : List Char} {v : Json}

/-! ### The reader of values -/

/-- A name is read where it stands. -/
theorem readName_eq_ok_iff {name text rest : List Char} :
    readName name text = .ok rest ↔ text = name ++ rest := by
  fun_induction readName name text with
  | case1 text => simp [eq_comm]
  | case2 => simp
  | case3 _ text c ih => simp [ih]
  | case4 e _ c _ hne => simp [hne]

/-- A name whose first letter was read is read to its end and has its meaning. -/
theorem reads_readLiteralName_iff {name : List Char} {meaning : Json} {after : List Char}
    (hafter : after.length < text.length) :
    (∃ h, readLiteralName text name meaning after hafter = .ok ⟨v, rest, h⟩) ↔
      after = name ++ rest ∧ v = meaning := by
  rw [← readName_eq_ok_iff]
  unfold readLiteralName
  constructor
  · rintro ⟨hlt, h⟩
    split at h
    · rename_i hname
      cases h
      exact ⟨hname, rfl⟩
    · cases h
  · rintro ⟨hname, rfl⟩
    refine ⟨Nat.lt_of_le_of_lt (readName_rest hname) hafter, ?_⟩
    split
    all_goals
      rename_i hname'
      rw [hname] at hname'
      cases hname'
    rfl

/-- What the reader of values does at the first character that is no blank. -/
inductive Finds (depth : Nat) : List Char → Json → List Char → Prop
  | null {rest : List Char} : Finds depth (['n', 'u', 'l', 'l'] ++ rest) .null rest
  | yes {rest : List Char} : Finds depth (['t', 'r', 'u', 'e'] ++ rest) (.bool true) rest
  | no {rest : List Char} : Finds depth (['f', 'a', 'l', 's', 'e'] ++ rest) (.bool false) rest
  | num {c : Char} {after rest : List Char} {n : Number} (hc : c = '-' ∨ c.isDigit = true)
      (h : readNumber (c :: after) = .ok (n, rest)) : Finds depth (c :: after) (.num n) rest
  | str {after rest : List Char} {s : String} (h : readQuoted [] after = .ok (s, rest)) :
      Finds depth ('"' :: after) (.str s) rest
  | list {inner : Nat} {after rest : List Char} {items : List Json} (hd : depth = inner + 1)
      (h : Reads (readList (readValue inner)) after items rest) :
      Finds depth ('[' :: after) (.arr items) rest
  | object {inner : Nat} {after rest : List Char} {given : List (String × Json)}
      (hd : depth = inner + 1) (h : Reads (readObject (readValue inner)) after given rest) :
      Finds depth ('\x7b' :: after) (object given) rest

/-- A value takes at least one character. -/
theorem Finds.length_lt (h : Finds depth text v rest) : rest.length < text.length := by
  cases h with
  | null | yes | no =>
    simp only [List.length_append, List.length_cons]
    omega
  | num hc h => exact readNumber_rest h
  | str h => exact Nat.lt_succ_of_lt (readQuoted_rest h)
  | list hd h => exact Nat.lt_succ_of_lt h.1
  | object hd h => exact Nat.lt_succ_of_lt h.1

/-- What is read as a value is found behind the blanks. -/
theorem finds_of_readValue (h : Reads (readValue depth) text v rest) :
    Finds depth (skipBlanks text) v rest := by
  obtain ⟨hlt, h⟩ := h
  unfold readValue at h
  split at h
  · cases h
  · rename_i c after heq
    rw [heq]
    simp only at h
    -- The first character decides: three names, a number, a text, a list, an object.
    split at h
    · rename_i hc
      obtain ⟨rfl, rfl⟩ := (reads_readLiteralName_iff _).1 ⟨_, h⟩
      exact hc ▸ .null
    split at h
    · rename_i hc
      obtain ⟨rfl, rfl⟩ := (reads_readLiteralName_iff _).1 ⟨_, h⟩
      exact hc ▸ .yes
    split at h
    · rename_i hc
      obtain ⟨rfl, rfl⟩ := (reads_readLiteralName_iff _).1 ⟨_, h⟩
      exact hc ▸ .no
    split at h
    · rename_i hc
      split at h
      · rename_i hn
        cases h
        exact .num hc hn
      · cases h
    split at h
    · rename_i hc
      split at h
      · rename_i hs
        cases h
        exact hc ▸ .str hs
      · cases h
    split at h
    · rename_i hc
      split at h
      · cases h
      · obtain ⟨⟨items, rest', hitems⟩, hlist, h⟩ := exists_of_bind_eq_ok h
        cases h
        exact hc ▸ .list rfl ⟨_, hlist⟩
    split at h
    · rename_i hc
      split at h
      · cases h
      · obtain ⟨⟨members, rest', hmembers⟩, hobject, h⟩ := exists_of_bind_eq_ok h
        cases h
        exact hc ▸ .object rfl ⟨_, hobject⟩
    · cases h

/-- What is found behind the blanks is read as a value. -/
theorem reads_readValue_of_finds (h : Finds depth (skipBlanks text) v rest) :
    Reads (readValue depth) text v rest := by
  have hlt := Nat.lt_of_lt_of_le h.length_lt (skipBlanks_length_le text)
  refine ⟨hlt, ?_⟩
  unfold readValue
  split
  · rename_i heq
    rw [heq] at h
    cases h
  · rename_i c after heq
    rw [heq] at h
    cases h with
    | null | yes | no =>
      obtain ⟨_, h⟩ := (reads_readLiteralName_iff (length_lt_of_skipBlanks heq)).2 ⟨rfl, rfl⟩
      simpa using h
    | num hc h =>
      have hletter : c ≠ 'n' ∧ c ≠ 't' ∧ c ≠ 'f' := by
        refine ⟨?_, ?_, ?_⟩ <;> rintro rfl <;> simp at hc
      simp only [hletter, hc, if_true, if_false]
      split
      all_goals
        rename_i h'
        rw [h] at h'
        cases h'
      rfl
    | str h =>
      have hc : '"'.isDigit = false := rfl
      simp only [Char.reduceEq, hc, Bool.false_eq_true, or_self, if_true, if_false]
      split
      all_goals
        rename_i h'
        rw [h] at h'
        cases h'
      rfl
    | list hd h =>
      subst hd
      obtain ⟨_, h⟩ := h
      have hc : '['.isDigit = false := rfl
      simp only [Char.reduceEq, hc, Bool.false_eq_true, or_self, if_true, if_false, h, bind,
        Except.bind, pure, Except.pure]
    | object hd h =>
      subst hd
      obtain ⟨_, h⟩ := h
      have hc : '\x7b'.isDigit = false := rfl
      simp only [Char.reduceEq, hc, Bool.false_eq_true, or_self, if_true, if_false, h, bind,
        Except.bind, pure, Except.pure]

/-- **A value is read exactly if it is found behind the blanks.** -/
theorem reads_readValue_iff :
    Reads (readValue depth) text v rest ↔ Finds depth (skipBlanks text) v rest :=
  ⟨finds_of_readValue, reads_readValue_of_finds⟩

/-! ### Values by the grammar -/

/-- A literal begins with a minus or a digit. -/
theorem exists_head_of_isLiteral {l : Literal} (h : IsLiteral text l) :
    ∃ c after, text = c :: after ∧ (c = '-' ∨ c.isDigit = true) := by
  obtain ⟨hs, hw, -, -⟩ := h
  rcases hs with _ | _
  · rcases hw with _ | ⟨hc, -, -⟩
    · exact ⟨_, _, rfl, .inr rfl⟩
    · exact ⟨_, _, rfl, .inr hc⟩
  · exact ⟨_, _, rfl, .inl rfl⟩

/-- A value starts with a character that is neither blank nor the end of a list. -/
theorem exists_head_of_spells (h : Spells depth text v) :
    ∃ c after, text = c :: after ∧ isBlank c = false ∧ c ≠ ']' := by
  have hsimple : Simple text v → ∃ c after, text = c :: after ∧ isBlank c = false ∧ c ≠ ']' := by
    rintro (_ | _ | _ | ⟨hl, -⟩ | ⟨⟨-⟩⟩)
    · exact ⟨_, _, rfl, rfl, by decide⟩
    · exact ⟨_, _, rfl, rfl, by decide⟩
    · exact ⟨_, _, rfl, rfl, by decide⟩
    · obtain ⟨c, after, rfl, hc⟩ := exists_head_of_isLiteral hl
      refine ⟨c, after, rfl, ?_, ?_⟩
      · rw [← Bool.not_eq_true, isBlank_eq_true_iff]
        rintro hmem
        simp only [List.mem_cons, List.not_mem_nil, or_false] at hmem
        rcases hmem with rfl | rfl | rfl | rfl <;> simp at hc
      · rintro rfl
        simp at hc
    · exact ⟨_, _, rfl, rfl, by decide⟩
  cases depth with
  | zero => exact hsimple h
  | succ depth =>
    rcases h with h | ⟨-⟩ | ⟨-, -⟩
    · exact hsimple h
    · exact ⟨_, _, rfl, rfl, by decide⟩
    · exact ⟨_, _, rfl, rfl, by decide⟩

/-- Items fit the grammar if values do. -/
theorem Fits.itemStep {item : Reader Json} {Core : List Char → Json → Prop}
    (hfits : Fits (Reads item) Core)
    (hhead : ∀ core v, Core core v → ∃ c after, core = c :: after ∧ isBlank c = false ∧ c ≠ ']') :
    Fits (ItemStep item) Core := by
  constructor
  · rintro text rest v ⟨c, after, heq, -, hitem⟩
    obtain ⟨blanks, rfl, hblanks⟩ := exists_blanks_of_skipBlanks heq
    obtain ⟨before, core, hcore, hb, h⟩ := hfits.sound hitem
    exact ⟨blanks ++ before, core, by simp [hcore], hblanks.append hb, h⟩
  · intro before core rest v hb h hrest
    obtain ⟨c, after, rfl, hc, hne⟩ := hhead core v h
    have hitem : Reads item ([] ++ c :: after ++ rest) v rest :=
      hfits.complete (fun _ hc => nomatch hc) h hrest
    refine ⟨c, after ++ rest, ?_, hne, hitem⟩
    rw [List.append_assoc, List.cons_append, skipBlanks_append_cons hb hc]

/-- Members fit the grammar if values do. -/
theorem Fits.memberStep {value : Reader Json} {Core : List Char → Json → Prop}
    (hfits : Fits (Reads value) Core) : Fits (MemberStep value) (Member Core) := by
  constructor
  · rintro text rest m ⟨key, heq, hm⟩
    obtain ⟨k, afterKey, more, v, hkey, heq', hvalue, rfl⟩ := reads_readMember_iff.1 hm
    obtain ⟨blanks, rfl, hblanks⟩ := exists_blanks_of_skipBlanks heq
    obtain ⟨name, hname, hquoted⟩ := readQuoted_nil_eq_ok_iff.1 hkey
    obtain ⟨after, rfl, hafter⟩ := exists_blanks_of_skipBlanks heq'
    obtain ⟨before, core, rfl, hb, h⟩ := hfits.sound hvalue
    refine ⟨blanks, _, ?_, hblanks, .pair hquoted hafter hb h⟩
    rw [hname]
    simp
  · rintro before _ rest _ hb ⟨hquoted, hafter, hbefore, h⟩ hrest
    rename_i name after before' core key v
    obtain ⟨letters, hname⟩ : ∃ letters, name = '"' :: letters := by
      obtain ⟨-⟩ := hquoted
      exact ⟨_, rfl⟩
    have hvalue := hfits.complete hbefore h hrest
    refine ⟨letters ++ after ++ ':' :: before' ++ core ++ rest, ?_, reads_readMember_iff.2
      ⟨key, after ++ ':' :: (before' ++ core ++ rest), before' ++ core ++ rest, v,
        readQuoted_nil_eq_ok_iff.2 ⟨name, ?_, hquoted⟩, ?_, hvalue, rfl⟩⟩
    · subst hname
      simpa using skipBlanks_append_cons hb rfl
    · subst hname
      simp
    · exact skipBlanks_append_cons hafter rfl

/-- **The members of an object are those given, in key order.** -/
theorem arranged_iff {given members : List (String × Json)} :
    Arranged given members ↔ members = arrange given := by
  constructor
  · rintro ⟨horder, hlookup⟩
    refine horder.eq_of_lookup (inKeyOrder_arrange given) fun key => ?_
    rw [hlookup, lookup_arrange_reverse]
  · rintro rfl
    exact ⟨inKeyOrder_arrange given, lookup_arrange_reverse given⟩

/-- A value without parts is spelled at any depth. -/
theorem spells_of_simple (h : Simple text v) : Spells depth text v := by
  cases depth with
  | zero => exact h
  | succ depth => exact .inl h

/-- A literal ends before a closing bracket or brace. -/
theorem ends_bracket {c : Char} (hc : c = ']' ∨ c = '\x7d') (rest : List Char) :
    Ends (c :: rest) := by
  rintro _ ⟨⟩
  rcases hc with rfl | rfl <;> decide

/-- A list is read as the grammar says, if the values in it are. -/
theorem Fits.readList_iff {inner : Nat} (hfits : Fits (Reads (readValue inner)) (Spells inner))
    {items : List Json} : Reads (readList (readValue inner)) text items rest ↔
      ∃ inside, text = inside ++ ']' :: rest ∧ Listed (Spells inner) inside items :=
  reads_readList_iff.trans
    ((hfits.itemStep fun _ _ => exists_head_of_spells).entries_iff rfl (ends_bracket (.inl rfl)))

/-- An object is read as the grammar says, if the values in it are. -/
theorem Fits.readObject_iff {inner : Nat} (hfits : Fits (Reads (readValue inner)) (Spells inner))
    {given : List (String × Json)} : Reads (readObject (readValue inner)) text given rest ↔
      ∃ inside, text = inside ++ '\x7d' :: rest ∧ Listed (Member (Spells inner)) inside given :=
  reads_readObject_iff.trans (hfits.memberStep.entries_iff rfl (ends_bracket (.inr rfl)))

/-- **What is found is spelled as the grammar says,** if the values one level down are. -/
theorem exists_spells_of_finds
    (hfits : ∀ inner, depth = inner + 1 → Fits (Reads (readValue inner)) (Spells inner))
    (h : Finds depth text v rest) : ∃ core, text = core ++ rest ∧ Spells depth core v := by
  cases h with
  | null => exact ⟨_, rfl, spells_of_simple .null⟩
  | yes => exact ⟨_, rfl, spells_of_simple .yes⟩
  | no => exact ⟨_, rfl, spells_of_simple .no⟩
  | num hc h =>
    obtain ⟨core, l, htext, hl, hn⟩ := exists_denotes_of_readNumber h
    exact ⟨core, htext, spells_of_simple (.num hl hn)⟩
  | str h =>
    obtain ⟨core, htext, hquoted⟩ := readQuoted_nil_eq_ok_iff.1 h
    exact ⟨core, htext, spells_of_simple (.str hquoted)⟩
  | list hd h =>
    obtain ⟨inside, rfl, hlisted⟩ := (hfits _ hd).readList_iff.1 h
    subst hd
    exact ⟨'[' :: inside ++ [']'], by simp, .inr (.list hlisted)⟩
  | object hd h =>
    obtain ⟨inside, rfl, hlisted⟩ := (hfits _ hd).readObject_iff.1 h
    subst hd
    exact ⟨'\x7b' :: inside ++ ['\x7d'], by simp, .inr (.object hlisted (arranged_iff.2 rfl))⟩

/-- A value without parts is found, if it ends where it ends. -/
theorem finds_of_simple (h : Simple text v) (hrest : Ends rest) :
    Finds depth (text ++ rest) v rest := by
  cases h with
  | null => exact .null
  | yes => exact .yes
  | no => exact .no
  | num hl hn =>
    have hread := readNumber_of_denotes hl hn hrest
    obtain ⟨c, after, rfl, hc⟩ := exists_head_of_isLiteral hl
    exact .num hc hread
  | str h =>
    obtain ⟨hletters⟩ := h
    exact .str (readQuoted_nil_eq_ok_iff.2 ⟨_, rfl, .letters hletters⟩)

/-- **What the grammar spells is found,** if the values one level down are read so. -/
theorem finds_of_spells
    (hfits : ∀ inner, depth = inner + 1 → Fits (Reads (readValue inner)) (Spells inner))
    (h : Spells depth text v) (hrest : Ends rest) : Finds depth (text ++ rest) v rest := by
  cases depth with
  | zero => exact finds_of_simple h hrest
  | succ inner =>
    rcases h with h | hlisted | ⟨hlisted, harranged⟩
    · exact finds_of_simple h hrest
    · rw [List.append_assoc]
      exact .list rfl ((hfits inner rfl).readList_iff.2 ⟨_, rfl, hlisted⟩)
    · rw [arranged_iff.1 harranged, List.append_assoc]
      exact .object rfl ((hfits inner rfl).readObject_iff.2 ⟨_, rfl, hlisted⟩)

/-- **Values are read by their grammar,** at every depth. -/
theorem fits_readValue (depth : Nat) : Fits (Reads (readValue depth)) (Spells depth) := by
  induction depth using Nat.strong_induction_on with
  | _ depth ih =>
    have hfits : ∀ inner, depth = inner + 1 → Fits (Reads (readValue inner)) (Spells inner) :=
      fun inner hd => ih inner (by omega)
    constructor
    · intro text rest v h
      obtain ⟨before, htext, hb⟩ := exists_blanks text
      obtain ⟨core, hcore, hspells⟩ := exists_spells_of_finds hfits (reads_readValue_iff.1 h)
      exact ⟨before, core, by rw [htext, hcore, List.append_assoc], hb, hspells⟩
    · intro before core rest v hb h hrest
      obtain ⟨c, after, rfl, hc, -⟩ := exists_head_of_spells h
      rw [reads_readValue_iff, List.append_assoc, List.cons_append, skipBlanks_append_cons hb hc]
      exact finds_of_spells hfits h hrest

/-! ### Whole texts -/

/-- Nothing is left behind blanks exactly if there is nothing but blanks. -/
theorem skipBlanks_eq_nil_iff : skipBlanks text = [] ↔ Blanks text := by
  rw [skipBlanks, List.dropWhile_eq_nil_iff]
  exact forall₂_congr fun c _ => isBlank_eq_true_iff

/-- A document is one value with blanks around it. -/
theorem readDocument_eq_ok_iff :
    readDocument text = .ok v ↔ ∃ rest, Reads (readValue maxDepth) text v rest ∧ Blanks rest := by
  unfold readDocument
  constructor
  · intro h
    obtain ⟨⟨w, rest, hw⟩, hread, h⟩ := exists_of_bind_eq_ok h
    simp only at h
    split at h
    · rename_i heq
      cases h
      exact ⟨rest, ⟨hw, hread⟩, skipBlanks_eq_nil_iff.1 heq⟩
    · cases h
  · rintro ⟨rest, ⟨hv, hread⟩, hrest⟩
    simp only [hread, bind, Except.bind, skipBlanks_eq_nil_iff.2 hrest]
    rfl

/-- **A text is read as a tree exactly if it renders this tree.** -/
theorem parse_eq_ok_iff {text : String} : parse text = .ok v ↔ Renders text v := by
  have hparse : parse text = .ok v ↔ readDocument text.toList = .ok v := by
    rw [parse]
    cases readDocument text.toList <;> simp [Except.mapError]
  rw [hparse, readDocument_eq_ok_iff, Renders]
  constructor
  · rintro ⟨rest, hread, hrest⟩
    obtain ⟨before, core, htext, hb, h⟩ := (fits_readValue _).sound hread
    exact htext ▸ .blanks hb h hrest
  · generalize text.toList = letters
    rintro ⟨hb, h, hrest⟩
    have hends : Ends _ := List.append_nil _ ▸ Ends.append hrest (nofun : Ends [])
    exact ⟨_, (fits_readValue _).complete hb h hends, hrest⟩

end Json

/-! ### Schemas -/

namespace Schema

/-- **A schema is read from the tree that its text renders, and from nothing
else.**  All texts of one tree give the same result: the schema in the tree or
what is wrong with its form, and one answer for all trees that are no objects.
A text that renders no tree is malformed, whatever its beginning would be. -/
theorem parse_by_grammar (text : String) :
    (∀ members, Renders text (.obj members) →
      parse text = (ofJson (.obj members)).mapError .mismatch) ∧
    (∀ v, Renders text v → (∀ members, v ≠ .obj members) →
      parse text = .error (.invalidStructure "schema document must be a JSON object")) ∧
    ((∀ v, ¬ Renders text v) → ∃ e : SyntaxError, parse text = .error (.malformed e)) := by
  have hparse : ∀ v, Renders text v → parse text = ofDocument v := fun v h => by
    rw [parse, Json.parse_eq_ok_iff.2 h]
  refine ⟨fun members h => hparse _ h, fun v h hv => ?_, fun h => ?_⟩
  · rw [hparse v h]
    cases v with
    | obj members => exact absurd rfl (hv members)
    | _ => rfl
  · rw [parse]
    cases hv : Json.parse text with
    | ok v => exact absurd (Json.parse_eq_ok_iff.1 hv) (h v)
    | error e => exact ⟨e, rfl⟩

/-- A member that hides an earlier one of its key, which is written with an
escape. -/
theorem renders_repeated :
    Renders "\x7b\"types\":0,\"t\\u0079pes\": []\x7d" (.obj [("types", .arr [])]) := by
  have hplain : Quoted ('"' :: ['t', 'y', 'p', 'e', 's'] ++ ['"']) "types" :=
    .letters (letters_self (by simp))
  have hy : HexCode ['0', '0', '7', '9'] 'y'.toNat :=
    .digits (w := 0) (x := 0) (y := 7) (z := 9) (by decide) (by decide) (by decide) (by decide)
  have hcode : Quoted ('"' :: (['t'] ++ (['\\', 'u', '0', '0', '7', '9'] ++ ['p', 'e', 's'])) ++
      ['"']) "types" :=
    .letters (.cons (.plain (by decide) (by decide) (by decide)) (.cons (.code hy)
      (letters_self (by simp))))
  have hzero : IsLiteral ([] ++ ['0'] ++ [] ++ []) ⟨false, ['0'], [], none⟩ :=
    .parts .absent .zero .absent .absent
  have hnone : Blanks [] := nofun
  have hblank : Blanks [' '] := by simp [Blanks]
  have hfirst : Member (Spells 126) _ ("types", .num (.integer ⟨0, by decide⟩)) :=
    .pair hplain hnone hnone (.inl (.num hzero (.integer ⟨rfl, rfl, .inl ⟨rfl, rfl⟩⟩)))
  have hsecond : Member (Spells 126) _ ("types", .arr []) :=
    .pair hcode hnone hblank (.inr (.list (.none hnone)))
  have hmembers := Series.cons (.blanks hnone hfirst hnone) (.one (.blanks hnone hsecond hnone))
  have hobject : Spells 127 _ (.obj [("types", .arr [])]) :=
    .inr (.object (.some hmembers) (Json.arranged_iff.2 (by decide)))
  exact .blanks hnone hobject hnone

/-- The repeated key, a list, and a list with a bracket too many. -/
theorem parse_by_grammar_repeated :
    parse "\x7b\"types\":0,\"t\\u0079pes\": []\x7d" =
      (ofJson (.obj [("types", .arr [])])).mapError .mismatch ∧
    parse "[]" = .error (.invalidStructure "schema document must be a JSON object") ∧
    ∃ e : SyntaxError, parse "[]]" = .error (.malformed e) := by
  have hlist : Json.parse "[]" = .ok (.arr []) := rfl
  have hbracket : Json.parse "[]]" = .error ⟨.trailingCharacters, ⟨1, 3⟩⟩ := rfl
  refine ⟨(parse_by_grammar _).1 _ renders_repeated,
    (parse_by_grammar _).2.1 _ (Json.parse_eq_ok_iff.1 hlist) nofun,
    (parse_by_grammar _).2.2 fun v hv => ?_⟩
  cases hbracket.symm.trans (Json.parse_eq_ok_iff.2 hv)

end Schema

end ResourceSchema
