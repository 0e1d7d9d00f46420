/-
# Files maintained by hand survive

A generator is used again and again, for one schema or for several, class by
class or all at once, and in between people edit what is there.
`Generator.replay` is the disk after such a history of `Happening`s, and
`Generator.manual_files_survive` says that no call in any history changes a file
with the name of a class that the generator leaves to be maintained by hand, in
whatever folder it lies: only an edit can.

No roots or packages are compared for this.  A call replaces content only at the
address of a class that is generated (`Generator.Wrote.changes`), the last name of
an address is the file name of its class, and a file name tells its class.
-/

import ResourceSchema.Proofs.Generator.Writing

namespace ResourceSchema

/-- Something that happens to the disk: a generator is called, or somebody edits
what is there, in any way. -/
inductive Happening where
  | write (c : SupportClass) (schema : Schema)
  | writeAll (schema : Schema)
  | edit (change : FileTree → FileTree)

/-- Whether it is a call of the generator. -/
def Happening.isCall : Happening → Bool
  | .write _ _ | .writeAll _ => true
  | .edit _ => false

namespace Generator

/-- The tree after something happened, whether a call succeeded or not. -/
def happen (g : Generator) (t : FileTree) : Happening → FileTree
  | .write c schema => (g.write c schema t).2
  | .writeAll schema => (g.writeAll schema t).2
  | .edit change => change t

/-- The tree after a history. -/
def replay (g : Generator) (t : FileTree) (history : List Happening) : FileTree :=
  history.foldl g.happen t

variable {g : Generator} {schema : Schema} {c : SupportClass} {t u : FileTree}

/-- The last happening of a history happens to what the others left. -/
theorem replay_concat (g : Generator) (t : FileTree) (history : List Happening)
    (happening : Happening) :
    g.replay t (history ++ [happening]) = g.happen (g.replay t history) happening := by
  rw [replay, List.foldl_append]
  rfl

/-- **One call** keeps a file with the name of a class maintained by hand. -/
theorem Wrote.manual_kept {r : Except GenerateError WrittenClass} {d : SupportClass}
    (h : g.Wrote schema d t r u) (hc : g.placement c = .manual) {above : Address}
    {content : ByteArray} (hfile : t.at? (above ++ [c.fileName]) = some (.file content)) :
    u.at? (above ++ [c.fileName]) = some (.file content) := by
  refine (h.changes.file_kept hfile).2 fun ⟨haddress, hd⟩ => ?_
  rw [← eq_of_concat_eq_address haddress, hc] at hd
  cases hd

/-- **A call keeps every file with the name of a class that is maintained by hand,** wherever
that lies. -/
theorem happen_manual_kept {happening : Happening} (hcall : happening.isCall = true)
    (hc : g.placement c = .manual) {above : Address} {content : ByteArray}
    (hfile : t.at? (above ++ [c.fileName]) = some (.file content)) :
    (g.happen t happening).at? (above ++ [c.fileName]) = some (.file content) := by
  cases happening with
  | write d schema => exact (wrote_write g schema d t).manual_kept hc hfile
  | writeAll schema =>
    exact writeEach_induction
      (P := fun t u => t.at? (above ++ [c.fileName]) = some (.file content) →
        u.at? (above ++ [c.fileName]) = some (.file content))
      (fun _ h => h) (fun _ _ _ h h' h'' => h' (h h''))
      (fun d _ t => (wrote_write g schema d t).manual_kept hc) t hfile
  | edit _ => cases hcall

/-- A file that neither a call nor an edit changes is kept over a stretch of a
history. -/
theorem replay_kept {a : Address} {content : ByteArray}
    (hcalls : ∀ t call, Happening.isCall call = true → t.at? a = some (.file content) →
      (g.happen t call).at? a = some (.file content))
    {before during : List Happening} (hfile : (g.replay t before).at? a = some (.file content))
    (hedits : ∀ front change, front ++ [.edit change] <+: during →
      (g.replay t (before ++ front)).at? a = some (.file content) →
      (change (g.replay t (before ++ front))).at? a = some (.file content)) :
    (g.replay t (before ++ during)).at? a = some (.file content) := by
  induction during generalizing before with
  | nil => rwa [List.append_nil]
  | cons happening rest ih =>
    have hnext : (g.replay t (before ++ [happening])).at? a = some (.file content) := by
      rw [replay_concat]
      cases happening with
      | write c schema => exact hcalls _ (.write c schema) rfl hfile
      | writeAll schema => exact hcalls _ (.writeAll schema) rfl hfile
      | edit change =>
        have hfirst := hedits [] change ⟨rest, rfl⟩
        rw [List.append_nil] at hfirst
        exact hfirst hfile
    rw [List.append_cons]
    refine ih hnext fun front change hfront => ?_
    rw [← List.append_cons]
    exact hedits (happening :: front) change (List.cons_prefix_cons.2 ⟨rfl, hfront⟩)

/-- **Files maintained by hand survive.**  After any history, no call changes a
file with the name of a class maintained by hand, and over any stretch of a
history such a file keeps its content as long as no edit changes it. -/
theorem manual_files_survive (g : Generator) (t : FileTree) (c : SupportClass)
    (hc : g.placement c = .manual) (above : Address) (content : ByteArray)
    (before : List Happening)
    (hfile : (g.replay t before).at? (above ++ [c.fileName]) = some (.file content)) :
    (∀ call, Happening.isCall call = true →
      (g.replay t (before ++ [call])).at? (above ++ [c.fileName]) = some (.file content)) ∧
    ∀ during, (∀ front change, front ++ [.edit change] <+: during →
        (g.replay t (before ++ front)).at? (above ++ [c.fileName]) = some (.file content) →
        (change (g.replay t (before ++ front))).at? (above ++ [c.fileName]) =
          some (.file content)) →
      (g.replay t (before ++ during)).at? (above ++ [c.fileName]) = some (.file content) := by
  constructor
  · intro call hcall
    rw [replay_concat]
    exact happen_manual_kept hcall hc hfile
  · intro during hedits
    exact replay_kept (fun _ _ hcall h => happen_manual_kept hcall hc h) hfile hedits

/-- A generator with one root for everything, which leaves the exception to be
maintained by hand. -/
def sharedRoot : Generator :=
  ({ generatedRoot? := some "out", manualRoot? := some "out" } : Generator).place
    .resourceException .manual

/-- Puts an exception of one's own into a folder that is a generated package of
one schema and the base package of another. -/
def putOwnException (t : FileTree) : FileTree :=
  ((t.put ["out"] .folder).put ["out", "parsec_generated"] .folder).put
    ["out", "parsec_generated", "ResourceException.java"] (.file "// by hand\n".toUTF8)

/-- Such a history, with one root for both placements and a file where a generated class would
lie. -/
theorem manual_files_survive_sharedRoot :
    sharedRoot.placement .resourceException = .manual ∧
    (sharedRoot.replay .empty [.edit putOwnException]).at?
      ["out", "parsec_generated", "ResourceException.java"] =
        some (.file "// by hand\n".toUTF8) ∧
    (sharedRoot.replay .empty [.edit putOwnException, .writeAll {}]).at?
      ["out", "parsec_generated", "ResourceException.java"] =
        some (.file "// by hand\n".toUTF8) ∧
    (sharedRoot.replay .empty [.edit putOwnException, .writeAll {},
      .write .resourceException { package? := some "parsec_generated" }]).at?
      ["out", "parsec_generated", "ResourceException.java"] =
        some (.file "// by hand\n".toUTF8) := by
  have hfile : (sharedRoot.replay .empty [.edit putOwnException]).at?
      ["out", "parsec_generated", "ResourceException.java"] =
        some (.file "// by hand\n".toUTF8) := by
    decide +kernel
  obtain ⟨hcall, hstretch⟩ := manual_files_survive sharedRoot .empty .resourceException rfl
    ["out", "parsec_generated"] "// by hand\n".toUTF8 [.edit putOwnException] hfile
  refine ⟨rfl, hfile, hcall (.writeAll {}) rfl, hstretch [.writeAll {}, .write .resourceException
    { package? := some "parsec_generated" }] fun front change hfront => ?_⟩
  have hmem := hfront.subset (List.mem_append_right front List.mem_cons_self)
  simp only [List.mem_cons, reduceCtorEq, List.not_mem_nil, or_self] at hmem

end Generator

end ResourceSchema
