/-
# The loops of the reader

Lists and objects are read by one loop each: an entry, then either a comma and
the next entry or the closing bracket.  `Entries` is that loop for any bracket
and any way to read an entry, and `reads_readList_iff`, `reads_readObject_iff`
say that both readers run it.

An entry behind a comma has blanks in front of it, and what follows it decides
where it ends.  `Fits` says of a way to read entries that it reads exactly the
entries of a grammar in this sense, and with it the loop reads exactly the
entries with commas between them (`Fits.entries_iff`).
-/

import ResourceSchema.Json.Reader
import ResourceSchema.Proofs.Json.Letters
import ResourceSchema.Proofs.Json.Numbers

namespace ResourceSchema

open Grammar

/-! ### Blanks -/

/-- The blanks of the reader are those of the grammar. -/
theorem isBlank_eq_true_iff {c : Char} : isBlank c = true ↔ c ∈ [' ', '\t', '\n', '\r'] := by
  simp [isBlank]

/-- What is left after the blanks. -/
theorem exists_blanks (text : List Char) :
    ∃ before, text = before ++ skipBlanks text ∧ Blanks before :=
  ⟨text.takeWhile isBlank, List.takeWhile_append_dropWhile.symm, fun c hc =>
    isBlank_eq_true_iff.1 (List.all_eq_true.1 List.all_takeWhile c hc)⟩

/-- Blanks in front are skipped. -/
theorem skipBlanks_append {before text : List Char} (hb : Blanks before) :
    skipBlanks (before ++ text) = skipBlanks text :=
  List.dropWhile_append_of_pos fun c hc => isBlank_eq_true_iff.2 (hb c hc)

/-- Nothing is skipped where no blank stands. -/
theorem skipBlanks_cons {c : Char} {text : List Char} (hc : isBlank c = false) :
    skipBlanks (c :: text) = c :: text := by
  rw [skipBlanks, List.dropWhile_cons_of_neg (by simp [hc])]

/-- Blanks are skipped up to the first character that is none. -/
theorem skipBlanks_append_cons {before text : List Char} {c : Char} (hb : Blanks before)
    (hc : isBlank c = false) : skipBlanks (before ++ c :: text) = c :: text := by
  rw [skipBlanks_append hb, skipBlanks_cons hc]

/-- What was skipped are blanks. -/
theorem exists_blanks_of_skipBlanks {text rest : List Char} {c : Char}
    (h : skipBlanks text = c :: rest) : ∃ before, text = before ++ c :: rest ∧ Blanks before := by
  obtain ⟨before, htext, hb⟩ := exists_blanks text
  exact ⟨before, h ▸ htext, hb⟩

/-- Blanks behind blanks are blanks. -/
theorem Grammar.Blanks.append {front back : List Char} (hf : Blanks front) (hb : Blanks back) :
    Blanks (front ++ back) := fun c hc => (List.mem_append.1 hc).elim (hf c) (hb c)

/-- A literal ends before blanks, if it ends before what follows them. -/
theorem Ends.append {before rest : List Char} (hb : Blanks before) (hr : Ends rest) :
    Ends (before ++ rest) := by
  cases before with
  | nil => exact hr
  | cons b before =>
    intro c hc
    cases hc
    have hmem := hb b List.mem_cons_self
    simp only [List.mem_cons, List.not_mem_nil, or_false] at hmem
    rcases hmem with rfl | rfl | rfl | rfl <;> decide

namespace Json

/-! ### One loop for lists and objects -/

section Loop

variable {α : Type} (close : Char) (Step : List Char → α → List Char → Prop)

/-- The entries after the first, each behind a comma, up to the bracket. -/
inductive More : List Char → List α → List Char → Prop
  | close {text rest : List Char} (h : skipBlanks text = close :: rest) : More text [] rest
  | comma {text more mid rest : List Char} {a : α} {as : List α}
      (h : skipBlanks text = ',' :: more) (ha : Step more a mid) (hs : More mid as rest) :
      More text (a :: as) rest

/-- All entries, up to the bracket. -/
inductive Entries : List Char → List α → List Char → Prop
  | close {text rest : List Char} (h : skipBlanks text = close :: rest) : Entries text [] rest
  | first {text mid rest : List Char} {a : α} {as : List α} (ha : Step text a mid)
      (hs : More close Step mid as rest) : Entries text (a :: as) rest

/-- What is read as an entry is one, with blanks in front, and each one is read
where a literal at its end would end. -/
structure Fits (Core : List Char → α → Prop) : Prop where
  sound : ∀ {text rest a}, Step text a rest →
    ∃ before core, text = before ++ core ++ rest ∧ Blanks before ∧ Core core a
  complete : ∀ {before core rest a}, Blanks before → Core core a → Ends rest →
    Step (before ++ core ++ rest) a rest

variable {close Step} {Core : List Char → α → Prop}

/-- What the loop reads is a series of entries. -/
theorem Fits.exists_series (hfits : Fits Step Core) {text mid rest : List Char} {a : α}
    {as : List α} (ha : Step text a mid) (h : More close Step mid as rest) :
    ∃ inside, text = inside ++ close :: rest ∧ Series Core inside (a :: as) := by
  induction h generalizing text a with
  | close h =>
    obtain ⟨before, core, rfl, hb, hcore⟩ := hfits.sound ha
    obtain ⟨after, rfl, hafter⟩ := exists_blanks_of_skipBlanks h
    exact ⟨before ++ core ++ after, by simp, .one ⟨hb, hcore, hafter⟩⟩
  | comma h hnext _ ih =>
    obtain ⟨before, core, rfl, hb, hcore⟩ := hfits.sound ha
    obtain ⟨after, rfl, hafter⟩ := exists_blanks_of_skipBlanks h
    obtain ⟨inside, rfl, hinside⟩ := ih hnext
    exact ⟨before ++ core ++ after ++ ',' :: inside, by simp, .cons ⟨hb, hcore, hafter⟩ hinside⟩

/-- A reader that takes one step of the loop after the other, with the entries
found so far in reverse order, runs the loop. -/
theorem iff_more_of_step {Loop : List α → List Char → List α → List Char → Prop}
    (hloop : ∀ done text all rest, Loop done text all rest ↔
      (skipBlanks text = close :: rest ∧ all = done.reverse) ∨
        ∃ more a mid, skipBlanks text = ',' :: more ∧ Step more a mid ∧
          Loop (a :: done) mid all rest)
    (hlt : ∀ text a rest, Step text a rest → rest.length < text.length) {done all : List α}
    {text rest : List Char} : Loop done text all rest ↔
      ∃ as, More close Step text as rest ∧ all = done.reverse ++ as := by
  constructor
  · intro h
    -- Each round leaves a shorter text.
    induction hn : text.length using Nat.strong_induction_on generalizing done text with
    | _ n ih =>
      subst hn
      rcases (hloop ..).1 h with ⟨heq, rfl⟩ | ⟨more, a, mid, heq, hstep, hmid⟩
      · exact ⟨[], .close heq, (List.append_nil _).symm⟩
      · have hshorter := Nat.lt_trans (hlt _ _ _ hstep) (length_lt_of_skipBlanks heq)
        obtain ⟨as, has, rfl⟩ := ih _ hshorter hmid rfl
        exact ⟨a :: as, .comma heq hstep has, by simp⟩
  · rintro ⟨as, h, rfl⟩
    induction h generalizing done with
    | close h => exact (hloop ..).2 (.inl ⟨h, List.append_nil _⟩)
    | comma h hstep _ ih =>
      refine (hloop ..).2 (.inr ⟨_, _, _, h, hstep, ?_⟩)
      simpa using @ih (_ :: done)

variable (hblank : isBlank close = false) (hends : ∀ rest, Ends (close :: rest))
include hblank hends

/-- A series of entries is read by the loop. -/
theorem Fits.exists_more (hfits : Fits Step Core) {inside rest : List Char} {as : List α}
    (h : Series Core inside as) : ∃ a mid bs, as = a :: bs ∧
      Step (inside ++ close :: rest) a mid ∧ More close Step mid bs rest := by
  induction h with
  | one h =>
    obtain ⟨hb, hcore, hafter⟩ := h
    have hmid := hfits.complete hb hcore (Ends.append hafter (hends rest))
    exact ⟨_, _, [], rfl, by simpa using hmid, .close (skipBlanks_append_cons hafter hblank)⟩
  | @cons _ tail _ _ h _ ih =>
    obtain ⟨hb, hcore, hafter⟩ := h
    obtain ⟨b, mid, bs, rfl, hstep, hmore⟩ := ih
    have hcomma : Ends (',' :: (tail ++ close :: rest)) := by
      intro c hc
      cases hc
      decide
    have hmid := hfits.complete hb hcore (Ends.append hafter hcomma)
    exact ⟨_, _, b :: bs, rfl, by simpa using hmid,
      .comma (skipBlanks_append_cons hafter rfl) hstep hmore⟩

/-- **The loop reads exactly entries with commas between them.** -/
theorem Fits.entries_iff (hfits : Fits Step Core) {text rest : List Char} {as : List α} :
    Entries close Step text as rest ↔
      ∃ inside, text = inside ++ close :: rest ∧ Listed Core inside as := by
  constructor
  · rintro (h | ⟨ha, hs⟩)
    · obtain ⟨before, rfl, hb⟩ := exists_blanks_of_skipBlanks h
      exact ⟨before, rfl, .none hb⟩
    · obtain ⟨inside, rfl, h⟩ := hfits.exists_series ha hs
      exact ⟨inside, rfl, .some h⟩
  · rintro ⟨inside, rfl, h | h⟩
    · exact .close (skipBlanks_append_cons h hblank)
    · obtain ⟨a, mid, bs, rfl, hstep, hmore⟩ := hfits.exists_more hblank hends h
      exact .first hstep hmore

end Loop

/-! ### The reader of lists -/

/-- What a reader finds at the start of a text, and what it leaves. -/
def Reads {α : Type} (read : Reader α) (text : List Char) (a : α) (rest : List Char) : Prop :=
  ∃ h, read text = .ok ⟨a, rest, h⟩

section Lists

variable {item : Reader Json} {done all : List Json} {text rest : List Char}

/-- How an item is read: not where the list ends. -/
def ItemStep (item : Reader Json) (text : List Char) (v : Json) (rest : List Char) : Prop :=
  ∃ c after, skipBlanks text = c :: after ∧ c ≠ ']' ∧ Reads item (c :: after) v rest

/-- A bracket ends the items. -/
theorem reads_readItems_close (h : skipBlanks text = ']' :: rest) :
    Reads (readItems item done) text done.reverse rest := by
  refine ⟨length_lt_of_skipBlanks h, ?_⟩
  rw [readItems]
  split
  all_goals
    rename_i h'
    rw [h] at h'
    cases h'
  · rfl
  · contradiction

/-- A comma goes before another item. -/
theorem reads_readItems_comma {more mid : List Char} {v : Json} (h : skipBlanks text = ',' :: more)
    (hv : ItemStep item more v mid) (hall : Reads (readItems item (v :: done)) mid all rest) :
    Reads (readItems item done) text all rest := by
  obtain ⟨c, after, hc, hne, ⟨hlt, hitem⟩⟩ := hv
  obtain ⟨hrest, hitems⟩ := hall
  have hcomma := length_lt_of_skipBlanks h
  have hfirst := length_lt_of_skipBlanks hc
  simp only [List.length_cons] at hlt
  refine ⟨by omega, ?_⟩
  rw [readItems]
  split
  all_goals
    rename_i h'
    rw [h] at h'
    cases h'
  · simp only
    split
    all_goals
      rename_i hc'
      rw [hc] at hc'
      cases hc'
    · contradiction
    · simp only [hitem, hitems, bind, Except.bind, pure, Except.pure]
  · contradiction

/-- **One round of the loop over items** ends it or reads one more. -/
theorem reads_readItems_step_iff : Reads (readItems item done) text all rest ↔
    (skipBlanks text = ']' :: rest ∧ all = done.reverse) ∨
      ∃ more v mid, skipBlanks text = ',' :: more ∧ ItemStep item more v mid ∧
        Reads (readItems item (v :: done)) mid all rest := by
  constructor
  · rintro ⟨hlt, h⟩
    rw [readItems] at h
    split at h
    · cases h
    · rename_i heq
      cases h
      exact .inl ⟨heq, rfl⟩
    · rename_i more heq
      simp only at h
      split at h
      · cases h
      · cases h
      · rename_i c after hc heq'
        obtain ⟨⟨v, mid, hv⟩, hitem, h⟩ := exists_of_bind_eq_ok h
        obtain ⟨⟨all', rest', hall⟩, hitems, h⟩ := exists_of_bind_eq_ok h
        cases h
        exact .inr ⟨more, v, mid, heq, ⟨c, after, heq', hc, ⟨_, hitem⟩⟩, ⟨_, hitems⟩⟩
    · cases h
  · rintro (⟨heq, rfl⟩ | ⟨more, v, mid, heq, hv, hall⟩)
    · exact reads_readItems_close heq
    · exact reads_readItems_comma heq hv hall

/-- An item takes at least one character. -/
theorem ItemStep.length_lt {v : Json} (h : ItemStep item text v rest) :
    rest.length < text.length := by
  obtain ⟨c, after, heq, -, hv, -⟩ := h
  have := length_lt_of_skipBlanks heq
  simp only [List.length_cons] at hv
  omega

/-- The items after those in `done` are read by the loop. -/
theorem reads_readItems_iff : Reads (readItems item done) text all rest ↔
    ∃ items, More ']' (ItemStep item) text items rest ∧ all = done.reverse ++ items :=
  iff_more_of_step (fun _ _ _ _ => reads_readItems_step_iff) (fun _ _ _ => ItemStep.length_lt)

/-- A list may be empty. -/
theorem reads_readList_close (h : skipBlanks text = ']' :: rest) :
    Reads (readList item) text [] rest := by
  refine ⟨length_lt_of_skipBlanks h, ?_⟩
  unfold readList
  split
  all_goals
    rename_i h'
    rw [h] at h'
    cases h'
  · rfl
  · contradiction

/-- A list that is not empty is its first item and the others. -/
theorem reads_readList_first {mid : List Char} {v : Json} (hv : ItemStep item text v mid)
    (hall : Reads (readItems item [v]) mid all rest) : Reads (readList item) text all rest := by
  obtain ⟨c, after, hc, hne, ⟨hlt, hitem⟩⟩ := hv
  obtain ⟨hrest, hitems⟩ := hall
  have hfirst := length_lt_of_skipBlanks hc
  simp only [List.length_cons] at hlt
  refine ⟨by omega, ?_⟩
  unfold readList
  split
  all_goals
    rename_i hc'
    rw [hc] at hc'
    cases hc'
  · contradiction
  · simp only [hitem, hitems, bind, Except.bind, pure, Except.pure]

/-- **A list is read by the loop.** -/
theorem reads_readList_iff :
    Reads (readList item) text all rest ↔ Entries ']' (ItemStep item) text all rest := by
  constructor
  · rintro ⟨hlt, h⟩
    unfold readList at h
    split at h
    · cases h
    · rename_i heq
      cases h
      exact .close heq
    · rename_i c after hc heq
      obtain ⟨⟨v, mid, hv⟩, hitem, h⟩ := exists_of_bind_eq_ok h
      obtain ⟨⟨all', rest', hall⟩, hitems, h⟩ := exists_of_bind_eq_ok h
      cases h
      obtain ⟨items, hmore, rfl⟩ := reads_readItems_iff.1 ⟨_, hitems⟩
      exact .first ⟨c, after, heq, hc, ⟨_, hitem⟩⟩ hmore
  · rintro (heq | ⟨hv, hmore⟩)
    · exact reads_readList_close heq
    · exact reads_readList_first hv (reads_readItems_iff.2 ⟨_, hmore, rfl⟩)

end Lists

/-! ### The reader of objects -/

section Objects

variable {value : Reader Json} {done all : List (String × Json)} {text rest : List Char}

/-- A member after the quote that opens its key. -/
theorem reads_readMember_iff {m : String × Json} : Reads (readMember value) text m rest ↔
    ∃ key afterKey more v, readQuoted [] text = .ok (key, afterKey) ∧
      skipBlanks afterKey = ':' :: more ∧ Reads value more v rest ∧ m = (key, v) := by
  constructor
  · rintro ⟨hlt, h⟩
    unfold readMember at h
    split at h
    · cases h
    · rename_i key afterKey hkey
      simp only at h
      split at h
      · cases h
      · rename_i more heq
        obtain ⟨⟨v, mid, hv⟩, hvalue, h⟩ := exists_of_bind_eq_ok h
        cases h
        exact ⟨key, afterKey, more, v, hkey, heq, ⟨_, hvalue⟩, rfl⟩
      · cases h
  · rintro ⟨key, afterKey, more, v, hkey, heq, ⟨hv, hvalue⟩, rfl⟩
    have hquoted := readQuoted_rest hkey
    have hlt := length_lt_of_skipBlanks heq
    refine ⟨by omega, ?_⟩
    unfold readMember
    split
    all_goals
      rename_i hkey'
      rw [hkey] at hkey'
      cases hkey'
    simp only
    split
    all_goals
      rename_i heq'
      rw [heq] at heq'
      cases heq'
    · simp only [hvalue, bind, Except.bind, pure, Except.pure]
    · contradiction

/-- How a member is read: a key comes first. -/
def MemberStep (value : Reader Json) (text : List Char) (m : String × Json) (rest : List Char) :
    Prop :=
  ∃ key, skipBlanks text = '"' :: key ∧ Reads (readMember value) key m rest

/-- A member takes at least one character. -/
theorem MemberStep.length_lt {m : String × Json} (h : MemberStep value text m rest) :
    rest.length < text.length := by
  obtain ⟨key, heq, hm, -⟩ := h
  exact Nat.lt_trans hm (length_lt_of_skipBlanks heq)

/-- A brace ends the members. -/
theorem reads_readMembers_close (h : skipBlanks text = '\x7d' :: rest) :
    Reads (readMembers value done) text done.reverse rest := by
  refine ⟨length_lt_of_skipBlanks h, ?_⟩
  rw [readMembers]
  split
  all_goals
    rename_i h'
    rw [h] at h'
    cases h'
  · rfl
  · contradiction

/-- A comma goes before another member. -/
theorem reads_readMembers_comma {more mid : List Char} {m : String × Json}
    (h : skipBlanks text = ',' :: more) (hm : MemberStep value more m mid)
    (hall : Reads (readMembers value (m :: done)) mid all rest) :
    Reads (readMembers value done) text all rest := by
  obtain ⟨key, hkey, ⟨hlt, hmember⟩⟩ := hm
  obtain ⟨hrest, hmembers⟩ := hall
  have hcomma := length_lt_of_skipBlanks h
  have hquote := length_lt_of_skipBlanks hkey
  refine ⟨by omega, ?_⟩
  rw [readMembers]
  split
  all_goals
    rename_i h'
    rw [h] at h'
    cases h'
  · simp only
    split
    all_goals
      rename_i hkey'
      rw [hkey] at hkey'
      cases hkey'
    · simp only [hmember, hmembers, bind, Except.bind, pure, Except.pure]
    · contradiction
  · contradiction

/-- **One round of the loop over members** ends it or reads one more. -/
theorem reads_readMembers_step_iff : Reads (readMembers value done) text all rest ↔
    (skipBlanks text = '\x7d' :: rest ∧ all = done.reverse) ∨
      ∃ more m mid, skipBlanks text = ',' :: more ∧ MemberStep value more m mid ∧
        Reads (readMembers value (m :: done)) mid all rest := by
  constructor
  · rintro ⟨hlt, h⟩
    rw [readMembers] at h
    split at h
    · cases h
    · rename_i heq
      cases h
      exact .inl ⟨heq, rfl⟩
    · rename_i more heq
      simp only at h
      split at h
      · cases h
      · rename_i key heq'
        obtain ⟨⟨m, mid, hm⟩, hmember, h⟩ := exists_of_bind_eq_ok h
        obtain ⟨⟨all', rest', hall⟩, hmembers, h⟩ := exists_of_bind_eq_ok h
        cases h
        exact .inr ⟨more, m, mid, heq, ⟨key, heq', ⟨_, hmember⟩⟩, ⟨_, hmembers⟩⟩
      · cases h
      · cases h
    · cases h
  · rintro (⟨heq, rfl⟩ | ⟨more, m, mid, heq, hm, hall⟩)
    · exact reads_readMembers_close heq
    · exact reads_readMembers_comma heq hm hall

/-- The members after those in `done` are read by the loop. -/
theorem reads_readMembers_iff : Reads (readMembers value done) text all rest ↔
    ∃ members, More '\x7d' (MemberStep value) text members rest ∧ all = done.reverse ++ members :=
  iff_more_of_step (fun _ _ _ _ => reads_readMembers_step_iff) (fun _ _ _ => MemberStep.length_lt)

/-- An object may be empty. -/
theorem reads_readObject_close (h : skipBlanks text = '\x7d' :: rest) :
    Reads (readObject value) text [] rest := by
  refine ⟨length_lt_of_skipBlanks h, ?_⟩
  unfold readObject
  split
  all_goals
    rename_i h'
    rw [h] at h'
    cases h'
  · rfl
  · contradiction

/-- An object that is not empty is its first member and the others. -/
theorem reads_readObject_first {mid : List Char} {m : String × Json}
    (hm : MemberStep value text m mid) (hall : Reads (readMembers value [m]) mid all rest) :
    Reads (readObject value) text all rest := by
  obtain ⟨key, hkey, ⟨hlt, hmember⟩⟩ := hm
  obtain ⟨hrest, hmembers⟩ := hall
  have hquote := length_lt_of_skipBlanks hkey
  refine ⟨by omega, ?_⟩
  unfold readObject
  split
  all_goals
    rename_i hkey'
    rw [hkey] at hkey'
    cases hkey'
  · simp only [hmember, hmembers, bind, Except.bind, pure, Except.pure]
  · contradiction

/-- **An object is read by the loop.** -/
theorem reads_readObject_iff :
    Reads (readObject value) text all rest ↔ Entries '\x7d' (MemberStep value) text all rest := by
  constructor
  · rintro ⟨hlt, h⟩
    unfold readObject at h
    split at h
    · cases h
    · rename_i heq
      cases h
      exact .close heq
    · rename_i key heq
      obtain ⟨⟨m, mid, hm⟩, hmember, h⟩ := exists_of_bind_eq_ok h
      obtain ⟨⟨all', rest', hall⟩, hmembers, h⟩ := exists_of_bind_eq_ok h
      cases h
      obtain ⟨members, hmore, rfl⟩ := reads_readMembers_iff.1 ⟨_, hmembers⟩
      exact .first ⟨key, heq, ⟨_, hmember⟩⟩ hmore
    · cases h
  · rintro (heq | ⟨hm, hmore⟩)
    · exact reads_readObject_close heq
    · exact reads_readObject_first hm (reads_readMembers_iff.2 ⟨_, hmore, rfl⟩)

end Objects

end Json

end ResourceSchema
