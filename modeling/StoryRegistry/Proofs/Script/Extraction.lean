import StoryRegistry.Proofs.Script.Spelling

/-!
# Values read back from modules

A module that exports a spelled value as its default is one statement, and the value of the exported
expression is the spelled one. None of the statements and declarations that are tried first begins
like a literal.
-/

set_option autoImplicit false

namespace StoryRegistry.Script

variable {g : Grammar} {gap text rest after : List Char} {w : String}

/-! ## The statement -/

theorem reads_keyword {chars : List Char} (hw : w.toList = chars) (hgap : IsTrivia gap)
    (htoken : IsToken (chars ++ rest)) (hrest : EndsWord rest) :
    Reads (keyword w) (gap ++ chars) rest fun _ => True := by
  refine Reads.bind_nil (reads_symbol hw hgap htoken) fun _ _ => Reads.get_bind fun c hc => ?_
  refine reads_check ?_
  rw [hc]
  cases rest with
  | nil => rfl
  | cons d rest =>
    obtain ⟨hname, hslash⟩ := hrest d rfl
    simp [hname, hslash]

/-- Where no decorator comes next, none is read. -/
theorem reads_decorators {s : List Char} (h : Fails (symbol "@") s) :
    Reads (decorators g) [] s fun _ => True :=
  Reads.nil_bind (Reads.manyWithin_nil g.bound (Fails.bind h)) fun _ _ => Reads.pure trivial

namespace Opens

variable {s : List Char}

theorem functionDeclaration (h : Opens s) : Fails (functionDeclaration g) s := by
  refine fails_skipTrivia_bind fun _ => ?_
  rw [h.upcoming_eq]
  refine Fails.nil_bind reads_here fun _ _ => ?_
  exact Fails.maybe_bind h.asyncWord (Fails.bind (h.keyword (by decide)))

theorem otherDeclaration (h : Opens s) :
    Fails (classDeclaration g <|> interfaceDeclaration g <|> enumDeclaration g) s := by
  refine Fails.orElse (Fails.nil_bind (reads_decorators (h.symbol (by decide))) fun _ _ => ?_)
    (Fails.orElse (Fails.bind (h.keyword (by decide))) ?_)
  · exact Fails.maybe_bind (h.keyword (by decide)) h.classRest
  · exact Fails.maybe_bind (h.keyword (by decide)) (Fails.bind (h.keyword (by decide)))

end Opens

section

variable {P : Expr → Prop}

/-- A literal is exported as the expression that it is. -/
theorem reads_exportedDefault (hgap : IsTrivia gap) (hopens : Opens (text ++ rest))
    (hend : Fails (symbol ";") rest) (h : Reads (g.assignment {}) (gap ++ text) rest P) :
    Reads (exportedDefault g) (gap ++ text) rest P := by
  have hupcoming : upcoming (gap ++ text ++ rest) = text ++ rest := by
    rw [List.append_assoc, upcoming_append hgap hopens.isToken]
  refine Reads.orElse_right (Fails.captured ?_) (Reads.orElse_right (Fails.captured ?_) ?_)
  · rw [hupcoming]
    exact Fails.bind hopens.functionDeclaration
  · rw [hupcoming]
    exact Fails.bind hopens.otherDeclaration
  · have hstatement : Reads statementEnd [] rest fun _ => True :=
      Reads.nil_bind (Reads.maybe_none hend) fun _ _ => Reads.pure trivial
    refine Reads.bind_nil h fun e he => Reads.nil_bind hstatement fun _ _ => ?_
    exact Reads.pure he

/-- The text of a module that exports something as its default. -/
def defaultExport (exported : List Char) : List Char :=
  "export".toList ++ ([' '] ++ "default".toList ++ (' ' :: exported))

theorem reads_defaultExport (hgap : IsTrivia gap) (hopens : Opens (text ++ rest))
    (hend : Fails (symbol ";") rest) (h : Reads (g.assignment {}) (' ' :: gap ++ text) rest P) :
    Reads (anyStatement g) (defaultExport (gap ++ text)) rest fun form =>
      ∃ e, form = .defaultExport e ∧ P e := by
  have hexport : "export".toList = ['e', 'x', 'p', 'o', 'r', 't'] := rfl
  have hdefault : "default".toList = ['d', 'e', 'f', 'a', 'u', 'l', 't'] := rfl
  have hspace : IsTrivia (' ' :: gap) := .blank (by decide) hgap
  have hblank : IsTrivia [' '] := .blank (by decide) .nil
  have hends (s : List Char) : EndsWord (' ' :: s) := by
    rintro c ⟨⟩
    decide
  have hlead (s : List Char) : IsToken ("export".toList ++ s) := by
    rw [hexport]
    exact isToken_cons (by decide) (by decide)
  have hfollow (s : List Char) : IsToken ("default".toList ++ s) := by
    rw [hdefault]
    exact isToken_cons (by decide) (by decide)
  have hvalue := reads_exportedDefault hspace hopens hend h
  have hsecond : Reads (keyword "default") ([' '] ++ "default".toList)
      (' ' :: gap ++ text ++ rest) fun _ => True :=
    reads_keyword rfl hblank (hfollow _) (hends _)
  have hfirst := reads_keyword rfl .nil (hlead _)
    (hends ("default".toList ++ (' ' :: gap ++ text) ++ rest))
  rw [List.nil_append] at hfirst
  have htext : defaultExport (gap ++ text) =
      "export".toList ++ ([' '] ++ "default".toList ++ (' ' :: gap ++ text)) := rfl
  have hhead (s : List Char) : ("export".toList ++ s).head? = some 'e' := by
    rw [hexport]
    rfl
  have hdecorator (s : List Char) : Fails (symbol "@") ("export".toList ++ s ++ rest) := by
    refine fails_symbol ?_
    rw [List.append_assoc, upcoming_of_isToken (hlead _), hexport]
    rfl
  rw [htext]
  refine Reads.nil_bind reads_nextChar? ?_
  rintro _ rfl
  rw [List.append_assoc, upcoming_of_isToken (hlead _), hhead]
  refine Reads.orElse_left (Reads.nil_bind (reads_decorators (hdecorator _)) fun _ _ => ?_)
  refine Reads.bind hfirst fun _ _ => Reads.orElse_left ?_
  refine Reads.bind hsecond fun _ _ => Reads.bind_nil hvalue fun e he => ?_
  exact Reads.pure ⟨e, rfl, he⟩

end

/-! ## The module -/

theorem upcoming_of_isTrivia (hgap : IsTrivia gap) : upcoming gap = [] := by
  have hnext := upcoming_append hgap isToken_nil
  rwa [List.append_nil] at hnext

/-- A text of one statement and blanks and comments behind it has that statement alone. -/
theorem statementsFrom_single {P : Form → Prop} (bound : Nat) (htoken : IsToken (text ++ after))
    (hne : text ≠ []) (hafter : IsTrivia after) (h : Reads g.statement text after P) :
    ∃ form, P form ∧ statementsFrom g (bound + 2) ⟨text ++ after, 0, []⟩ = [⟨form, []⟩] := by
  obtain ⟨form, hform, hread⟩ := h 0 []
  refine ⟨form, hform, ?_⟩
  have htrivia : triviaOf (text ++ after) = ⟨0, false, false, text ++ after⟩ :=
    skipFrom_of_isToken htoken 0 false false
  have hfilled : (text ++ after).isEmpty = false := by
    simp [hne]
  have hend : (triviaOf after).rest = [] := upcoming_of_isTrivia hafter
  rw [statementsFrom]
  simp only [htrivia, hfilled, Nat.add_zero, hread, Bool.false_eq_true, if_false]
  rw [statementsFrom]
  simp [hend]

theorem defaultExport_eq (exported : List Char) :
    ∃ more, defaultExport exported = 'e' :: more ∧ exported.length < more.length :=
  ⟨_, rfl, by simp [String.toList]; omega⟩

/-- A spelled value that a module exports as its default is read back from the module. -/
theorem ofFile_defaultExport {v : Value} (path : String) (h : Spells v text) (hgap : IsTrivia gap)
    (hafter : IsTrivia after) :
    ∃ e, Module.ofFile path (String.ofList (defaultExport (gap ++ text) ++ after)) =
        [⟨.defaultExport e, []⟩] ∧ e.value = v := by
  have hclose : Closes after := by
    have hends : Closes (after ++ []) := closes_append hafter (by simp)
    rwa [List.append_nil] at hends
  have hspace : IsTrivia (' ' :: gap) := .blank (by decide) hgap
  have hend : Fails (symbol ";") after := fails_symbol (by rw [upcoming_of_isTrivia hafter]; rfl)
  obtain ⟨more, hmore, hlonger⟩ := defaultExport_eq (gap ++ text)
  rw [List.length_append] at hlonger
  rw [hmore]
  -- the text is read with room for as many phrases, nested twice as deep, as it has characters
  obtain ⟨size, hsize⟩ : ∃ size, size = (more ++ after).length := ⟨_, rfl⟩
  have hlength : text.length ≤ size := by
    rw [hsize, List.length_append]
    omega
  have hread : Reads
      ((Grammar.ofDepth (Module.hasElements path) (size + 2) (2 * size + 3)).assignment {})
      (' ' :: gap ++ text) after (HasValue v) :=
    reads_of_spells h (by omega) (by omega) hspace hclose
  have hstatement : Reads
      (Grammar.ofDepth (Module.hasElements path) (size + 2) (2 * size + 4)).statement
      (defaultExport (gap ++ text)) after fun form => ∃ e, form = .defaultExport e ∧ HasValue v e :=
    reads_defaultExport hgap (opens_of_spells h hclose) hend hread
  rw [hmore] at hstatement
  have htoken : IsToken ('e' :: more ++ after) := isToken_cons (by decide) (by decide)
  obtain ⟨_, ⟨e, rfl, he⟩, hform⟩ :=
    statementsFrom_single size htoken (List.cons_ne_nil _ _) hafter hstatement
  have hnone : Text.beginsWith (String.ofList ('e' :: more ++ after)) "#!" = false := by
    rw [Text.beginsWith, String.toList_ofList, String.toList_ofList]
    rfl
  refine ⟨e, ?_, he⟩
  unfold Module.ofFile Module.ofSource
  rw [String.toList_ofList]
  dsimp only
  rw [hnone, if_neg Bool.false_ne_true, List.cons_append, List.length_cons, ← hsize]
  exact hform

/-- Writing a value as an expression is undone by reading the expression: wherever the expression
stands, in a grammar deep enough for its length, what is read has the value; and so has what a file
exports as its default that exports the expression. -/
theorem value_of_spells {v : Value} (h : Spells v text) :
    (∀ elements bound depth mode gap rest, text.length < bound → 2 * text.length ≤ depth →
      IsTrivia gap → Closes rest →
      Reads ((Grammar.ofDepth elements bound depth).assignment mode) (gap ++ text) rest
        fun e => e.value = v) ∧
    ∀ path gap after, IsTrivia gap → IsTrivia after →
      ∃ e, Module.ofFile path (String.ofList (defaultExport (gap ++ text) ++ after)) =
        [⟨.defaultExport e, []⟩] ∧ e.value = v := by
  constructor
  · intro elements bound depth mode gap rest hbound hdepth hgap hrest
    exact reads_of_spells h hdepth hbound hgap hrest
  · intro path gap after hgap hafter
    exact ofFile_defaultExport path h hgap hafter

/-- An object with a list of a number in base sixteen and a text with two escapes. -/
def nestedSpelling : List Char := "\x7ba: [-0xF_f, '\\x41b\\n'],\x7d".toList

/-- What it spells. -/
def nestedValue : Value := .map [("a", .list [.int (-255), .string "Ab\n"])]

theorem spells_nested : Spells nestedValue nestedSpelling := by
  have hnumber : SpellsNumber 255 ['0', 'x', 'F', '_', 'f'] := by
    refine .based (show ('x', 16) ∈ baseMarks by decide) ⟨by decide, [15, 15], ?_, by decide⟩
    exact .cons ⟨by decide, .inr (by decide)⟩ (.cons ⟨by decide, .inl (by decide)⟩ .nil)
  have hdigits : SpellsDigits 16 ['4', '1'] 'A'.toNat :=
    ⟨by decide, [4, 1], .cons ⟨by decide, .inl rfl⟩ (.cons ⟨by decide, .inl rfl⟩ .nil), by decide⟩
  have hchars : SpellsChars '\x27' ['A', 'b', '\n'] ['\\', 'x', '4', '1', 'b', '\\', 'n'] := by
    refine .short rfl hdigits (.raw ?_ ?_ ?_ ?_ ?_ (.control ?_ .nil)) <;> decide
  have htext : Spells (.string "Ab\n") ['\x27', '\\', 'x', '4', '1', 'b', '\\', 'n', '\x27'] :=
    .string (.quoted (by decide) hchars)
  have hblank : IsTrivia [' '] := .blank (by decide) .nil
  have hlist : Spells (.list [.int (-255), .string "Ab\n"])
      "[-0xF_f, '\\x41b\\n']".toList :=
    .list (.cons .nil (.negative .nil hnumber) .nil (.last hblank htext .nil))
  have hname : IsName ['a'] :=
    ⟨by decide, List.all_eq_true.1 (by decide), by rintro c ⟨⟩; decide⟩
  have hkey : SpellsKey "a" ['a'] := .name hname
  exact .map (by decide) (.cons .nil (.pair hkey .nil hblank hlist) .nil (.nil .nil))

/-- The nested value is read back. -/
theorem value_of_nested_spelling : ∃ e,
    Module.ofFile "a.ts" (String.ofList (defaultExport nestedSpelling)) =
      [⟨.defaultExport e, []⟩] ∧ e.value = nestedValue := by
  have hread := (value_of_spells spells_nested).2 "a.ts" [] [] .nil .nil
  rwa [List.nil_append, List.append_nil] at hread

end StoryRegistry.Script
