import StoryRegistry.Proofs.Registry.Documents
import StoryRegistry.Proofs.Session.Writing
import StoryRegistry.Proofs.Text.Decoding

/-!
# Reading what was written

A document that was written can be read again: the bytes of its file are the UTF-8 form of its JSON
text, which holds no line end but line feeds, and from which the document is read. The check of a
written registry therefore passes wherever the registry's document is in its file.
-/

set_option autoImplicit false

namespace StoryRegistry

namespace FileTree

theorem plainLines_eq_self {cs : List Char} (h : '\r' ∉ cs) : plainLines cs = cs := by
  induction cs with
  | nil => rfl
  | cons c rest ih =>
    have hc : c ≠ '\r' := fun heq => h (heq ▸ List.mem_cons_self)
    have hrest := ih fun hmem => h (List.mem_cons_of_mem _ hmem)
    unfold plainLines
    split
    · rename_i heq
      cases heq
      exact absurd rfl hc
    · rename_i heq
      cases heq
      exact absurd rfl hc
    · rename_i heq
      cases heq
      rw [hrest]
    · rename_i heq
      cases heq

/-- A text without carriage returns is read from the file that holds it. -/
theorem Holds.readText {t : FileTree} {p : Path} {text : String} (h : t.Holds p text)
    (hlines : '\r' ∉ text.toList) : t.readText p = .ok text := by
  obtain ⟨content, hfile, hbytes⟩ := h
  unfold FileTree.readText
  simp only [hfile, bind, Except.bind, Text.Utf8.decode_of_encode? hbytes,
    plainLines_eq_self hlines, String.ofList_toList]

end FileTree

namespace Output

/-- The value that is read from a file as JSON. -/
def valueAt (t : FileTree) (p : Path) : Except Failure Value :=
  match t.readText p with
  | .ok text =>
    match Value.ofJson text with
    | .ok v => .ok v
    | .error _ => .error (.brokenRegistry p.toText)
  | .error e => .error (.file e)

/-- The registry that is read from a file. -/
def registryAt (t : FileTree) (p : Path) : Except Failure Registry := do
  Registry.ofDocument ((← valueAt t p).asMap?.getD [])

/-- The item that is read from a file. -/
def itemAt (t : FileTree) (p : Path) : Except Failure Item := do
  Item.ofDocument ((← valueAt t p).asMap?.getD []) (some p.toText)

theorem return_not_mem_jsonText (v : Value) : '\r' ∉ (jsonText v).toList := by
  rw [jsonText, String.toList_append, List.mem_append]
  rintro (h | h)
  · exact v.return_not_mem_jsonAt 0 h
  · exact absurd h (by decide)

/-- A value that was written has integers that can be read again. -/
theorem intsFit_of_writeJson {p : Path} {v : Value} {s s' : Session}
    (h : ends (writeJson p v) s = (.ok (), s')) : v.intsFit = true := by
  obtain ⟨-, t, -, h⟩ := ends.of_bind h
  obtain ⟨⟨⟩, t', hfit, -⟩ := ends.of_bind h
  cases hints : v.intsFit with
  | true => rfl
  | false =>
    rw [hints] at hfit
    cases hfit

/-- A value is read from the file that holds it, if JSON texts denote it and its integers are not
too long. -/
theorem valueAt_of_holds {t : FileTree} {p : Path} {v : Value} (h : t.Holds p (jsonText v))
    (hjson : v.IsJson) (hfit : v.intsFit = true) : valueAt t p = .ok v := by
  have hvalue : Value.ofJson (jsonText v) = .ok v := Value.ofJson_json hjson hfit
  simp only [valueAt, h.readText (return_not_mem_jsonText v), hvalue]

/-- A registry is read from the file that holds its document. -/
theorem registryAt_of_holds {t : FileTree} {p : Path} {r : Registry}
    (h : t.Holds p (jsonText r.document)) (hfit : r.document.intsFit = true)
    (hread : Registry.ofDocument (r.document.asMap?.getD []) = .ok r) : registryAt t p = .ok r := by
  unfold registryAt
  rw [valueAt_of_holds h r.isJson_document hfit]
  exact hread

/-- An item is read from the file that holds its document. -/
theorem itemAt_of_holds {t : FileTree} {p : Path} {i : Item} (h : t.Holds p (jsonText i.document))
    (hfit : i.document.intsFit = true) (hread : ∀ file, Item.ofDocument i.entries file = .ok i) :
    itemAt t p = .ok i := by
  unfold itemAt
  rw [valueAt_of_holds h i.isJson_document hfit]
  exact hread _

/-- The check passes where a registry is read from the registry's file. -/
theorem exists_checkWritten {folder : Path} {r : Registry} {s : Session}
    (h : registryAt s.tree (registryFile folder) = .ok r) :
    ∃ s', ends (checkWritten folder) s = (.ok (), s') ∧ s'.tree = s.tree := by
  unfold registryAt valueAt at h
  cases htext : s.tree.readText (registryFile folder) with
  | error e =>
    rw [htext] at h
    cases h
  | ok text =>
    rw [htext] at h
    dsimp only at h
    cases hvalue : Value.ofJson text with
    | error problem =>
      rw [hvalue] at h
      cases h
    | ok document =>
      rw [hvalue] at h
      have hread : ends (Run.text (registryFile folder)) s = (.ok text, s) := by
        rw [Run.text, ends.look_eq, htext]
        rfl
      have hchecked : ends (Run.ofExcept (Registry.ofDocument (document.asMap?.getD []))) s =
          (.ok r, s) := by
        rw [show Registry.ofDocument (document.asMap?.getD []) = .ok r from h]
        rfl
      unfold checkWritten
      rw [ends.bind_of_ok hread, hvalue]
      dsimp only
      rw [ends.bind_of_ok hchecked]
      exact ⟨_, rfl, rfl⟩

end Output

end StoryRegistry
