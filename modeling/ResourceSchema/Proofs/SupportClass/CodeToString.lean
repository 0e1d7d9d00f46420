/-
# The exception class, read back

The class written for a table of statuses declares one constant for each of them, in
their order, and after them a method whose cases are the statuses again
(`exists_ofText?_exceptionBody`).  The table may be any whose constants are names,
whose codes are integer literals and whose reason phrases need no escapes; the rest of
the class does not depend on it.

Where the constants are distinct, looking a code up in the class is looking it up in the
table (`codeToString_exceptionClass`).  For the statuses with constants this is what
`statusName` does (`codeToString_agrees_with_statusName`).
-/

import Mathlib.Data.List.Find
import Mathlib.Data.List.Nodup
import ResourceSchema.Proofs.SupportClass.ClassText

namespace ResourceSchema

/-- A status that can be written without escapes: its constant is a name, its code an
integer literal, and its reason phrase stands for itself. -/
structure Status.IsWritable (status : Status) : Prop where
  isName : IsName status.constant
  code_lt : status.code < 2 ^ 31
  isPlain : status.reason.toList.all isPlain

instance (status : Status) : Decidable status.IsWritable :=
  decidable_of_iff (IsName status.constant ∧ status.code < 2 ^ 31 ∧
    status.reason.toList.all isPlain) ⟨fun ⟨h, h', h''⟩ => ⟨h, h', h''⟩,
      fun ⟨h, h', h''⟩ => ⟨h, h', h''⟩⟩

namespace Status

/-- The tokens that declare the constant of a status. -/
def constantTokens (status : Status) : List Token :=
  [.keyword "public", .keyword "final", .keyword "static", .keyword "int",
    .name status.constant, .mark '=', .number status.code, .mark ';']

/-- The tokens that return its reason phrase. -/
def caseTokens (status : Status) : List Token :=
  [.keyword "case", .name status.constant, .mark ':', .keyword "return", .text status.reason,
    .mark ';']

/-- Its constant. -/
def member (status : Status) : ClassMember := .constant status.constant status.code

/-- Its case. -/
def toCase (status : Status) : Case := ⟨status.constant, status.reason⟩

end Status

/-- The start of the method that turns a code into a text. -/
def switchHead : List Token :=
  [.keyword "public", .keyword "static", .name "String", .name "codeToString", .mark '(',
    .keyword "int", .name "code", .mark ')', .mark '\x7b', .keyword "switch", .mark '(',
    .name "code", .mark ')', .mark '\x7b']

/-- Its default. -/
def switchDefault : List Token :=
  [.keyword "default", .mark ':', .keyword "return", .text "", .mark '+', .name "code", .mark ';']

/-- The method for a table of statuses. -/
def switchTokens (table : List Status) : List Token :=
  switchHead ++ (table.flatMap Status.caseTokens ++ switchDefault) ++ [.mark '\x7d'] ++
    [.mark '\x7d']

variable {status : Status} {table : List Status}

/-! ### Tokens of the lines -/

/-- The characters of lines. -/
def lineChars (ls : List String) : List Char := ls.flatMap fun l => l.toList ++ ['\n']

/-- The characters of lines are those of each with a line feed behind them. -/
theorem toList_lines (ls : List String) : (lines ls).toList = lineChars ls := by
  unfold lines lineChars
  induction ls with
  | nil => rfl
  | cons l ls ih =>
    rw [List.map_cons, String.join_cons, String.toList_append, String.toList_append, ih]
    rfl

/-- Lines behind lines. -/
theorem lineChars_append (ls ls' : List String) :
    lineChars (ls ++ ls') = lineChars ls ++ lineChars ls' := List.flatMap_append

/-- The line of a constant is read as its tokens. -/
theorem reads_constantLine (h : status.IsWritable) :
    Token.reader.Reads (.after '\n') ((constantLine status).toList ++ ['\n'])
      status.constantTokens (.after '\n') := by
  have hfront : Token.reader.Reads (.after '\n') "    public final static int ".toList
      [.keyword "public", .keyword "final", .keyword "static", .keyword "int"] (.after ' ') := by
    decide +kernel
  have hname : Token.reader.Reads (.after ' ') (status.constant.toList ++ [' '])
      [.name status.constant] (.after ' ') := Token.reads_name h.isName rfl rfl
  have hequals : Token.reader.Reads (.after ' ') ['=', ' '] [.mark '='] (.after ' ') := by decide
  have hvalue : Token.reader.Reads (.after ' ') ((toString status.code).toList ++ [';'])
      [.number status.code, .mark ';'] (.after ';') :=
    Token.reads_number h.code_lt rfl (by decide) rfl
  have hend : Token.reader.Reads (.after ';') ['\n'] [] (.after '\n') := by decide
  have hline := (((hfront.append hname).append hequals).append hvalue).append hend
  have hchars : (constantLine status).toList ++ ['\n'] =
      "    public final static int ".toList ++ (status.constant.toList ++ [' ']) ++ ['=', ' '] ++
        ((toString status.code).toList ++ [';']) ++ ['\n'] := by
    unfold constantLine
    rw [String.toList_append, String.toList_append, String.toList_append, String.toList_append]
    simp only [String.reduceToList, List.append_assoc, List.cons_append, List.nil_append]
  rw [hchars]
  exact hline

/-- The line of a case is read as its tokens. -/
theorem reads_caseLine (h : status.IsWritable) :
    Token.reader.Reads (.after '\n') ((caseLine status).toList ++ ['\n'])
      status.caseTokens (.after '\n') := by
  have hfront : Token.reader.Reads (.after '\n') "        case ".toList [.keyword "case"]
      (.after ' ') := by
    decide +kernel
  have hname : Token.reader.Reads (.after ' ') (status.constant.toList ++ [':'])
      [.name status.constant, .mark ':'] (.after ':') := Token.reads_name h.isName rfl rfl
  have hreturn : Token.reader.Reads (.after ':') " return ".toList [.keyword "return"]
      (.after ' ') := by
    decide +kernel
  have hreason := Token.reads_text h.isPlain
  have hend : Token.reader.Reads (.after '"') [';', '\n'] [.mark ';'] (.after '\n') := by decide
  have hline := (((hfront.append hname).append hreturn).append hreason).append hend
  have hchars : (caseLine status).toList ++ ['\n'] =
      "        case ".toList ++ (status.constant.toList ++ [':']) ++ " return ".toList ++
        ('"' :: (status.reason.toList ++ ['"'])) ++ [';', '\n'] := by
    unfold caseLine
    rw [String.toList_append, String.toList_append, String.toList_append, String.toList_append]
    simp only [String.reduceToList, List.append_assoc, List.cons_append, List.nil_append]
  rw [hchars]
  exact hline

/-- Members that declare two fields and no method named `codeToString`. -/
def IsRest (members : List ClassMember) : Prop :=
  members.filterMap ClassMember.constant? = [] ∧
    members.filterMap ClassMember.fieldName? = ["code", "data"] ∧
    ∀ m ∈ members, m.methodName? ≠ some "codeToString"

instance (members : List ClassMember) : Decidable (IsRest members) :=
  inferInstanceAs (Decidable (_ ∧ _ ∧ _))

/-- After the constants and the method the class goes on in the same way for every table. -/
theorem exists_exceptionBody_eq : ∃ rest : List String,
    (∀ table, exceptionBody table = lines (
      ["public class ResourceException extends RuntimeException \x7b"] ++
      table.map constantLine ++
      ["", "    public static String codeToString(int code) \x7b", "        switch (code) \x7b"] ++
      table.map caseLine ++
      (["        default: return \"\" + code;", "        \x7d", "    \x7d"] ++ rest))) ∧
    ∃ tokens ∈ Token.reader.run (.after '\n') (lineChars rest), tokens.2 = .after '\n' ∧
      ∃ members ∈ ClassMember.reader.run (.within 0 []) tokens.1, members.2 = .closed ∧
        IsRest members.1 := by
  refine ⟨_, fun table => rfl, ?_⟩
  unfold lineChars
  simp only [List.flatMap_cons, List.flatMap_nil, String.reduceToList, List.cons_append,
    List.nil_append]
  decide +kernel

/-! ### Members of the tokens -/

/-- The tokens of a constant are one member of the class. -/
theorem reads_constantTokens (status : Status) :
    ClassMember.reader.Reads (.within 0 []) status.constantTokens [status.member]
      (.within 0 []) := rfl

/-- The method that tells the reason is one member of the class, whatever its cases. -/
theorem ofTokens?_switchHead (inside : List Token) :
    ClassMember.ofTokens? (switchHead ++ inside ++ [.mark '\x7d'] ++ [.mark '\x7d']) =
      some (.block (switchHead ++ inside ++ [.mark '\x7d'] ++ [.mark '\x7d'])) := by
  have hlast : (switchHead ++ inside ++ [Token.mark '\x7d'] ++ [Token.mark '\x7d']).getLast? =
      some (.mark '\x7d') := List.getLast?_concat
  exact if_pos hlast

/-- A case has no braces in it. -/
theorem ne_bracket_of_mem_caseTokens {t : Token} (h : t ∈ status.caseTokens) :
    t ≠ .mark '\x7b' ∧ t ≠ .mark '\x7d' := by
  simp only [Status.caseTokens, List.mem_cons, List.not_mem_nil, or_false] at h
  rcases h with rfl | rfl | rfl | rfl | rfl | rfl <;> exact ⟨by simp, by simp⟩

/-- Nor has the default. -/
theorem ne_bracket_of_mem_switchDefault :
    ∀ t ∈ switchDefault, t ≠ .mark '\x7b' ∧ t ≠ .mark '\x7d' := by
  decide

/-- The method is one member. -/
theorem reads_switchTokens (table : List Status) :
    ClassMember.reader.Reads (.within 0 []) (switchTokens table) [.block (switchTokens table)]
      (.within 0 []) := by
  have hhead : ClassMember.reader.Reads (.within 0 []) switchHead [] (.within 2 switchHead) := by
    decide
  have hinside : ClassMember.reader.Reads (.within 2 switchHead)
      (table.flatMap Status.caseTokens ++ switchDefault) []
      (.within 2 (switchHead ++ (table.flatMap Status.caseTokens ++ switchDefault))) := by
    refine .keep fun t ht front => ?_
    have hne : t ≠ .mark '\x7b' ∧ t ≠ .mark '\x7d' := by
      rcases List.mem_append.1 ht with ht | ht
      · obtain ⟨status, -, ht⟩ := List.mem_flatMap.1 ht
        exact ne_bracket_of_mem_caseTokens ht
      · exact ne_bracket_of_mem_switchDefault t ht
    exact (if_neg hne.2).trans (if_neg hne.1)
  have hinner : ClassMember.reader.Reads
      (.within 2 (switchHead ++ (table.flatMap Status.caseTokens ++ switchDefault)))
      [.mark '\x7d'] [] (.within 1 (switchHead ++
        (table.flatMap Status.caseTokens ++ switchDefault) ++ [.mark '\x7d'])) := rfl
  have houter : ClassMember.reader.Reads (.within 1 (switchHead ++
      (table.flatMap Status.caseTokens ++ switchDefault) ++ [.mark '\x7d'])) [.mark '\x7d']
      [.block (switchTokens table)] (.within 0 []) := by
    refine Reader.reads_singleton ?_
    show ClassMember.complete _ = _
    rw [ClassMember.complete, ofTokens?_switchHead]
    rfl
  exact ((hhead.append hinside).append hinner).append houter

/-- The tokens of a case are read as that case, and then the others. -/
theorem ofTokens?_caseTokens (status : Status) (rest : List Token) :
    Case.ofTokens? (status.caseTokens ++ rest) =
      (Case.ofTokens? rest).map (status.toCase :: ·) := rfl

/-- **The cases of the method are those of the table.** -/
theorem ofMethod?_switchTokens (table : List Status) :
    Case.ofMethod? (switchTokens table) = some (table.map Status.toCase) := by
  show Case.ofTokens? (table.flatMap Status.caseTokens ++ switchDefault ++ [.mark '\x7d'] ++
    [.mark '\x7d']) = _
  induction table with
  | nil => rfl
  | cons status table ih =>
    rw [List.flatMap_cons, List.append_assoc, List.append_assoc, List.append_assoc,
      ofTokens?_caseTokens, ← List.append_assoc, ← List.append_assoc, ih]
    rfl

/-! ### The class -/

/-- The start of the class. -/
def classHead : List Token :=
  [.keyword "public", .keyword "class", .name "ResourceException", .keyword "extends",
    .name "RuntimeException", .mark '\x7b']

/-- **The tokens of the class.**  What follows the method for the table is the same for
every table. -/
theorem exists_reads_exceptionBody : ∃ tokens members,
    ClassMember.reader.Reads (.within 0 []) tokens members .closed ∧ IsRest members ∧
    ∀ table, (∀ status ∈ table, status.IsWritable) →
      Token.reader.Reads (.after '\n') (exceptionBody table).toList
        (classHead ++ (table.flatMap Status.constantTokens ++ switchTokens table ++ tokens))
        (.after '\n') := by
  obtain ⟨_, hlines, ⟨tokens, _⟩, htokens, rfl, ⟨members, _⟩, hmembers, rfl, hrest⟩ :=
    exists_exceptionBody_eq
  refine ⟨tokens, members, hmembers, hrest, fun table h => ?_⟩
  -- Each piece ends behind a line feed, where no token is under way, so it is read by itself.
  have hhead : Token.reader.Reads (.after '\n')
      (lineChars ["public class ResourceException extends RuntimeException \x7b"]) classHead
      (.after '\n') := by
    decide +kernel
  have hconstants : Token.reader.Reads (.after '\n') (lineChars (table.map constantLine))
      (table.flatMap Status.constantTokens) (.after '\n') := by
    rw [lineChars, List.flatMap_map]
    exact .flatMap fun status hs => reads_constantLine (h status hs)
  have hswitch : Token.reader.Reads (.after '\n')
      (lineChars ["", "    public static String codeToString(int code) \x7b",
        "        switch (code) \x7b"]) switchHead (.after '\n') := by
    decide +kernel
  have hcases : Token.reader.Reads (.after '\n') (lineChars (table.map caseLine))
      (table.flatMap Status.caseTokens) (.after '\n') := by
    rw [lineChars, List.flatMap_map]
    exact .flatMap fun status hs => reads_caseLine (h status hs)
  have hend : Token.reader.Reads (.after '\n')
      (lineChars ["        default: return \"\" + code;", "        \x7d", "    \x7d"])
      (switchDefault ++ [.mark '\x7d'] ++ [.mark '\x7d']) (.after '\n') := by
    decide +kernel
  have htext := (((hhead.append hconstants).append hswitch).append hcases).append
    (hend.append htokens)
  rw [hlines, toList_lines, lineChars_append, lineChars_append, lineChars_append,
    lineChars_append, lineChars_append]
  unfold switchTokens
  simp only [List.append_assoc] at htext ⊢
  exact htext

/-- A text is read as a class if its tokens are the head of one and its members. -/
theorem ofText?_eq_of_reads {text : String} {tokens : List Token} {members : List ClassMember}
    (htokens : Token.reader.Reads (.after '\n') text.toList (classHead ++ tokens) (.after '\n'))
    (hmembers : ClassMember.reader.Reads (.within 0 []) tokens members .closed) :
    ClassText.ofText? text = some ⟨"ResourceException", "RuntimeException", members⟩ := by
  have htext : Token.ofText? text = some (classHead ++ tokens) := by
    rw [Token.ofText?, show Token.reader.run _ _ = _ from htokens]
  have hrun : ClassMember.reader.run (.within 0 []) tokens = some (members, .closed) := hmembers
  rw [ClassText.ofText?, htext, Option.bind_some]
  simp only [classHead, List.cons_append, List.nil_append, ClassText.ofTokens?, hrun]

/-- The class for a table. -/
def exceptionClass (table : List Status) (rest : List ClassMember) : ClassText :=
  ⟨"ResourceException", "RuntimeException",
    table.map Status.member ++ .block (switchTokens table) :: rest⟩

/-- **The class declares the constants of the table and the method for it.** -/
theorem exists_ofText?_exceptionBody : ∃ rest, IsRest rest ∧
    ∀ table, (∀ status ∈ table, status.IsWritable) →
      ClassText.ofText? (exceptionBody table) = some (exceptionClass table rest) := by
  obtain ⟨tokens, members, hmembers, hrest, htokens⟩ := exists_reads_exceptionBody
  refine ⟨members, hrest, fun table h => ofText?_eq_of_reads (htokens table h) ?_⟩
  have hconstants : ClassMember.reader.Reads (.within 0 []) (table.flatMap Status.constantTokens)
      (table.flatMap fun status => [status.member]) (.within 0 []) :=
    .flatMap fun status _ => reads_constantTokens status
  have hclass := (hconstants.append (reads_switchTokens table)).append hmembers
  rw [← List.map_eq_flatMap, List.append_assoc (table.map _)] at hclass
  exact hclass

/-! ### Looking a code up -/

/-- Where keys are distinct, an item is found by its key. -/
theorem find?_key_eq {α β : Type} [DecidableEq β] {key : α → β} {as : List α} {a : α}
    (hnodup : (as.map key).Nodup) (ha : a ∈ as) : as.find? (key · = key a) = some a := by
  obtain ⟨found, hfound⟩ : ∃ found, as.find? (key · = key a) = some found :=
    Option.isSome_iff_exists.1 (List.find?_isSome.2 ⟨a, ha, decide_eq_true rfl⟩)
  have hkey : key found = key a := by simpa using List.find?_some hfound
  rwa [List.inj_on_of_nodup_map hnodup (List.mem_of_find?_eq_some hfound) ha hkey] at hfound

section Lookup

variable {rest : List ClassMember} (hrest : IsRest rest)
include hrest

/-- **The constants of the class are those of the table, with their codes.** -/
theorem constants_exceptionClass (table : List Status) :
    (exceptionClass table rest).constants = table.map fun s => (s.constant, s.code) := by
  show (table.map Status.member ++ .block (switchTokens table) :: rest).filterMap _ = _
  rw [List.filterMap_append, List.filterMap_map, List.filterMap_cons_none rfl, hrest.1,
    List.append_nil]
  exact congrFun List.filterMap_eq_map table

/-- The fields of the class are these constants, the code and the data. -/
theorem fieldNames_exceptionClass (table : List Status) :
    (exceptionClass table rest).fieldNames = table.map Status.constant ++ ["code", "data"] := by
  show (table.map Status.member ++ .block (switchTokens table) :: rest).filterMap _ = _
  rw [List.filterMap_append, List.filterMap_map, List.filterMap_cons_none rfl, hrest.2.1]
  exact congrArg (· ++ _) (congrFun List.filterMap_eq_map table)

/-- The class has the method, and its cases are those of the table. -/
theorem cases?_exceptionClass (table : List Status) :
    (exceptionClass table rest).cases? = some (table.map Status.toCase) := by
  have hconstants :
      (table.map Status.member).filter (·.methodName? = some "codeToString") = [] := by
    rw [List.filter_eq_nil_iff]
    intro m hm
    obtain ⟨status, -, rfl⟩ := List.mem_map.1 hm
    simp [Status.member, ClassMember.methodName?]
  have hothers : rest.filter (·.methodName? = some "codeToString") = [] := by
    rw [List.filter_eq_nil_iff]
    exact fun m hm => by simpa using hrest.2.2 m hm
  have honly : (exceptionClass table rest).members.filter (·.methodName? = some "codeToString") =
      [.block (switchTokens table)] := by
    show (table.map Status.member ++ .block (switchTokens table) :: rest).filter _ = _
    rw [List.filter_append, hconstants, List.filter_cons_of_pos rfl, hothers, List.nil_append]
  rw [ClassText.cases?, honly]
  exact ofMethod?_switchTokens table

/-- Where no two statuses share a constant, the value of each is its code. -/
theorem value?_exceptionClass (hnodup : (table.map Status.constant).Nodup) (hs : status ∈ table) :
    (exceptionClass table rest).value? status.constant = some status.code := by
  have hfind : table.find? (·.constant = status.constant) = some status := find?_key_eq hnodup hs
  rw [ClassText.value?, constants_exceptionClass hrest, List.find?_map]
  exact congrArg (Option.map _ ∘ Option.map _) hfind

/-- Every constant is the only field of its name. -/
theorem count_fieldNames (hnodup : (table.map Status.constant ++ ["code", "data"]).Nodup)
    {c : String × Nat} (hc : c ∈ (exceptionClass table rest).constants) :
    (exceptionClass table rest).fieldNames.count c.1 = 1 := by
  rw [constants_exceptionClass hrest] at hc
  obtain ⟨s, hs, rfl⟩ := List.mem_map.1 hc
  rw [fieldNames_exceptionClass hrest]
  exact List.count_eq_one_of_mem hnodup (List.mem_append_left _ (List.mem_map_of_mem hs))

/-- The labels have the codes of the table as their values. -/
theorem values_exceptionClass (hnodup : (table.map Status.constant).Nodup) :
    ((table.map Status.toCase).map fun c => (exceptionClass table rest).value? c.label) =
      table.map fun s => some s.code := by
  rw [List.map_map]
  exact List.map_congr_left fun s hs => value?_exceptionClass hrest hnodup hs

/-- **A code is looked up in the table.** -/
theorem codeToString_exceptionClass (hnodup : (table.map Status.constant).Nodup) (code : Int32) :
    (exceptionClass table rest).codeToString (table.map Status.toCase) code =
      match table.find? fun s => (s.code : Int) = code.toInt with
      | some s => s.reason
      | none => toString code.toInt := by
  have hfind : table.find? ((fun c => (exceptionClass table rest).denotes c.label code) ∘
      Status.toCase) = table.find? fun s => (s.code : Int) = code.toInt := by
    refine List.find?_congr fun s hs => ?_
    show (exceptionClass table rest).denotes s.constant code = _
    rw [ClassText.denotes, value?_exceptionClass hrest hnodup hs]
  rw [ClassText.codeToString, List.find?_map, hfind]
  cases table.find? fun s => (s.code : Int) = code.toInt <;> rfl

end Lookup

/-! ### The statuses -/

/-- Every status of the table can be written. -/
theorem isWritable_statuses : ∀ status ∈ statuses, status.IsWritable := by
  decide +kernel

/-- No two fields of the class share a name. -/
theorem fieldNames_nodup : (statuses.map Status.constant ++ ["code", "data"]).Nodup := by
  decide +kernel

/-- No two statuses share a code. -/
theorem codes_nodup : (statuses.map fun s => (s.code : Int)).Nodup := by
  decide

/-- The name of a status, by its code as an integer. -/
theorem statusName_eq (n : Nat) :
    statusName n = match statuses.find? fun s => (s.code : Int) = n with
      | some s => s.reason
      | none => toString (n : Int) := by
  have hfind : findStatus? n = statuses.find? fun s => (s.code : Int) = n :=
    List.find?_congr fun s _ => decide_eq_decide.2 Int.ofNat_inj.symm
  rw [statusName, hfind]
  rfl

/-- **The written class names codes as `statusName` does.**  Its text declares a class in
which every constant is declared once and which has a method `codeToString`.  The labels
of the method's cases are declared constants with distinct values, and the literals it
returns need no escapes.  For a listed code it returns the reason phrase, for any other
number its decimal representation, which is what `statusName` says of every code there
can be. -/
theorem codeToString_agrees_with_statusName : ∃ cls cases,
    ClassText.ofText? SupportClass.resourceException.body = some cls ∧ cls.cases? = some cases ∧
    (∀ c ∈ cls.constants, cls.fieldNames.count c.1 = 1) ∧
    (cases.map fun c => cls.value? c.label).Nodup ∧
    (∀ c ∈ cases, ∃ value, (c.label, value) ∈ cls.constants) ∧
    (∀ c ∈ cases, c.result.toList.all isPlain) ∧
    (∀ code : Int32,
      (∀ s ∈ statuses, code.toInt = s.code → cls.codeToString cases code = s.reason) ∧
      ((∀ s ∈ statuses, code.toInt ≠ s.code) →
        cls.codeToString cases code = toString code.toInt)) ∧
    ∀ code : UInt16, cls.codeToString cases (Int32.ofNat code.toNat) = statusName code.toNat := by
  obtain ⟨rest, hrest, htext⟩ := exists_ofText?_exceptionBody
  have hnames : (statuses.map Status.constant).Nodup := fieldNames_nodup.of_append_left
  have hlookup := codeToString_exceptionClass hrest hnames
  refine ⟨exceptionClass statuses rest, statuses.map Status.toCase,
    htext statuses isWritable_statuses, cases?_exceptionClass hrest statuses,
    fun c hc => count_fieldNames hrest fieldNames_nodup hc, ?_, ?_, ?_,
    fun code => ⟨fun s hs hcode => ?_, fun hne => ?_⟩, fun code => ?_⟩
  · rw [values_exceptionClass hrest hnames]
    decide
  · rw [constants_exceptionClass hrest]
    intro c hc
    obtain ⟨s, hs, rfl⟩ := List.mem_map.1 hc
    exact ⟨s.code, List.mem_map_of_mem hs⟩
  · intro c hc
    obtain ⟨s, hs, rfl⟩ := List.mem_map.1 hc
    exact (isWritable_statuses s hs).isPlain
  · rw [hlookup, hcode, find?_key_eq codes_nodup hs]
  · have hnone : statuses.find? (fun s => (s.code : Int) = code.toInt) = none := by
      refine List.find?_eq_none.2 fun s hs => ?_
      rw [decide_eq_true_iff]
      exact (hne s hs).symm
    rw [hlookup, hnone]
  · have hcode : (Int32.ofNat code.toNat).toInt = code.toNat :=
      Int32.toInt_ofNat_of_lt (by have := code.toNat_lt; omega)
    rw [hlookup, hcode, statusName_eq]

end ResourceSchema
