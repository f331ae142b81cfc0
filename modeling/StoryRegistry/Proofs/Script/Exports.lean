import StoryRegistry.Proofs.Script.Staying
import StoryRegistry.Proofs.Text.Split

/-!
# Exports in a text

Where the text of an exporting statement has its words: a statement that is read as a default export
has the words `export` and `default` in its text, one that is read as exported variables has `export`
and a declaring word, with nothing but blanks and comments between the two words (`HasExport`). Each
statement of a module comes from a piece of the module's text (`Module.located`).
-/

set_option autoImplicit false

namespace StoryRegistry.Script

variable {α β : Type}

/-! ## Tokens -/

/-- What a walk has passed over that began inside a gap. -/
def Gap.Passes : Gap → List Char → Prop
  | .blanks, s => IsTrivia s
  | .lineComment, s => IsTrivia ('/' :: '/' :: s)
  | .blockComment, s => IsTrivia ('/' :: '*' :: s)

namespace Gap.Passes

variable {c : Char} {s : List Char}

theorem line_cons (h : lineComment.Passes s) (hc : isLineEnd c = false) : lineComment.Passes (c :: s) := by
  cases h with
  | blank hspace _ => cases hspace
  | @line body more d hbody hd h =>
    exact @IsTrivia.line (c :: body) more d (List.forall_mem_cons.2 ⟨hc, hbody⟩) hd h

theorem block_cons (h : blockComment.Passes s) (hc : ∀ more, c = '*' → s ≠ '/' :: more) :
    blockComment.Passes (c :: s) := by
  cases h with
  | blank hspace _ => cases hspace
  | @block body more hbody h =>
    refine @IsTrivia.block (c :: body) more (fun hend => ?_) h
    rcases List.infix_cons_iff.1 hend with hfront | hinside
    · -- the sign that ends a comment would stand right at the front
      obtain ⟨others, hothers⟩ := hfront
      obtain ⟨rfl, hslash⟩ := List.cons.inj hothers
      exact hc (others ++ '*' :: '/' :: more) rfl (by rw [← hslash]; rfl)
    · exact hbody hinside

end Gap.Passes

/-- A walk that comes to a token has passed over blanks and comments. -/
theorem exists_passes_skipFrom (gap : Gap) (n : Nat) (newline comment : Bool) (s : List Char)
    (h : (skipFrom gap n newline comment s).rest ≠ []) :
    ∃ passed, gap.Passes passed ∧ s = passed ++ (skipFrom gap n newline comment s).rest := by
  fun_induction skipFrom gap n newline comment s with
  | case1 n newline _ rest ih =>
    obtain ⟨passed, hpassed, hrest⟩ := ih h
    exact ⟨'/' :: '/' :: passed, hpassed, congrArg ('/' :: '/' :: ·) hrest⟩
  | case2 n newline _ rest ih =>
    obtain ⟨passed, hpassed, hrest⟩ := ih h
    exact ⟨'/' :: '*' :: passed, hpassed, congrArg ('/' :: '*' :: ·) hrest⟩
  | case3 n newline comment c rest _ _ hspace ih =>
    obtain ⟨passed, hpassed, hrest⟩ := ih h
    exact ⟨c :: passed, .blank hspace hpassed, congrArg (c :: ·) hrest⟩
  | case4 => exact ⟨[], .nil, rfl⟩
  | case5 n newline comment c rest hend ih =>
    obtain ⟨passed, hpassed, hrest⟩ := ih h
    exact ⟨c :: passed, @IsTrivia.line [] passed c (List.forall_mem_nil _) hend hpassed, congrArg (c :: ·) hrest⟩
  | case6 n newline comment c rest hinside ih =>
    obtain ⟨passed, hpassed, hrest⟩ := ih h
    exact ⟨c :: passed, hpassed.line_cons (Bool.not_eq_true _ ▸ hinside), congrArg (c :: ·) hrest⟩
  | case7 n newline comment rest ih =>
    obtain ⟨passed, hpassed, hrest⟩ := ih h
    exact ⟨'*' :: '/' :: passed, @IsTrivia.block [] passed (by decide) hpassed,
      congrArg ('*' :: '/' :: ·) hrest⟩
  | case8 n newline comment c rest hinside ih =>
    obtain ⟨passed, hpassed, hrest⟩ := ih h
    refine ⟨c :: passed, hpassed.block_cons ?_, congrArg (c :: ·) hrest⟩
    rintro more hstar rfl
    exact hinside _ hstar hrest
  | case9 => exact absurd rfl h

/-- A token stands behind blanks and comments. -/
theorem exists_isTrivia {s : List Char} (h : upcoming s ≠ []) :
    ∃ gap, IsTrivia gap ∧ s = gap ++ upcoming s :=
  exists_passes_skipFrom .blanks 0 false false s h

theorem eq_of_exactly {w : String} {c stop : Cursor} {a : Unit} (h : exactly w c = some (a, stop)) :
    c.rest = w.toList ++ stop.rest := by
  unfold exactly at h
  split at h
  · rename_i rest hdrop
    cases h
    exact Text.dropStart?_eq_some_iff.1 hdrop
  · cases h

theorem exists_of_symbol {w : String} {c stop : Cursor} {a : Unit} (hw : w.toList ≠ [])
    (h : symbol w c = some (a, stop)) : ∃ gap, IsTrivia gap ∧ c.rest = gap ++ (w.toList ++ stop.rest) := by
  unfold symbol at h
  obtain ⟨trivia, next, hskip, hexact⟩ := exists_of_bind h
  cases hskip
  have hupcoming : upcoming c.rest = w.toList ++ stop.rest := eq_of_exactly hexact
  obtain ⟨gap, hgap, hrest⟩ :=
    exists_isTrivia (hupcoming ▸ List.append_ne_nil_of_left_ne_nil hw stop.rest)
  exact ⟨gap, hgap, hupcoming ▸ hrest⟩

theorem of_check {condition : Bool} {c stop : Cursor} {a : Unit} (h : check condition c = some (a, stop)) :
    condition = true ∧ stop = c := by
  unfold check at h
  split at h
  · cases h
    exact ⟨‹_›, rfl⟩
  · cases h

/-- A word stands behind blanks and comments, and no longer one begins with it. -/
theorem exists_of_keyword {w : String} {c stop : Cursor} {a : Unit} (hw : w.toList ≠ [])
    (h : keyword w c = some (a, stop)) :
    (∃ gap, IsTrivia gap ∧ c.rest = gap ++ (w.toList ++ stop.rest)) ∧
      ∀ x ∈ stop.rest.head?, isNameChar x = false := by
  unfold keyword at h
  obtain ⟨_, next, hsymbol, hmore⟩ := exists_of_bind h
  obtain ⟨_, _, hget, hends⟩ := exists_of_bind hmore
  cases hget
  obtain ⟨hcheck, rfl⟩ := of_check hends
  refine ⟨exists_of_symbol hw hsymbol, fun x hx => ?_⟩
  rw [hx, Option.any_some, Bool.not_eq_true', Bool.or_eq_false_iff] at hcheck
  exact hcheck.1

theorem exists_of_oneOf {words : List String} {c stop : Cursor} {a : String}
    (h : oneOf words c = some (a, stop)) : a ∈ words ∧ keyword a c = some ((), stop) := by
  induction words with
  | nil => cases h
  | cons w rest ih =>
    unfold oneOf at h
    rcases orElse_cases h with hfirst | hrest
    · obtain ⟨_, next, hkeyword, hpure⟩ := exists_of_bind hfirst
      cases hpure
      exact ⟨List.mem_cons_self, hkeyword⟩
    · exact (ih hrest).imp_left (List.mem_cons_of_mem w)

/-! ## Exporting statements -/

/-- In the text stand `export` and the word, with blanks and comments between them and `rest` after
them. -/
structure HasExport (text : List Char) (word : String) (gap rest : List Char) : Prop where
  trivia : IsTrivia gap
  ends : ∀ c ∈ rest.head?, isNameChar c = false
  suffix : "export".toList ++ (gap ++ (word.toList ++ rest)) <:+ text

/-- The statement exports no default value and no variables. -/
def Form.ExportsNoValue : Form → Prop
  | .bindings true _ | .defaultExport _ => False
  | _ => True

/-- What a statement with the given text that exports a default value or variables looks like. -/
inductive Form.WrittenIn (text : List Char) : Form → Prop where
  | noValue {form : Form} (h : form.ExportsNoValue) : WrittenIn text form
  | defaultExport {e : Expr} {gap rest : List Char} (h : HasExport text "default" gap rest) :
      WrittenIn text (.defaultExport e)
  | bindings {declared : List (String × Expr)} {word : String} {gap rest : List Char}
      (hword : word ∈ ["const", "let", "var"]) (h : HasExport text word gap rest) :
      WrittenIn text (.bindings true declared)

/-- The forms that the reader gives export no default value and no variables. -/
class GivesNoValue (r : Reader Form) : Prop where
  noValue {c stop : Cursor} {form : Form} (h : r c = some (form, stop)) : form.ExportsNoValue

variable {g : Grammar}

namespace GivesNoValue

variable {r r' : Reader Form}

theorem pure {form : Form} (h : form.ExportsNoValue) : GivesNoValue (pure form) where
  noValue hread := by
    cases hread
    exact h

instance : GivesNoValue (Pure.pure .other) := .pure trivial

instance (exported : Bool) (name text : String) : GivesNoValue (Pure.pure (.function exported name text)) :=
  .pure trivial

instance (declared : List (String × Expr)) : GivesNoValue (Pure.pure (.bindings false declared)) :=
  .pure trivial

instance (names : List (String × String)) : GivesNoValue (Pure.pure (.exports names)) :=
  .pure trivial

instance {p : Prop} [Decidable p] {form form' : Form} [GivesNoValue (Pure.pure form)]
    [GivesNoValue (Pure.pure form')] : GivesNoValue (Pure.pure (if p then form else form')) := by
  split <;> infer_instance

theorem bind {r : Reader β} {f : β → Reader Form} (h : ∀ b, GivesNoValue (f b)) :
    GivesNoValue (r >>= f) where
  noValue hread := by
    obtain ⟨b, next, -, hmore⟩ := exists_of_bind hread
    exact (h b).noValue hmore

instance {r : Reader β} {f : β → Reader Form} [h : ∀ b, GivesNoValue (f b)] : GivesNoValue (r >>= f) :=
  .bind h

instance {r : Reader β} [h : GivesNoValue r'] : GivesNoValue (r *> r') :=
  inferInstanceAs (GivesNoValue (r >>= fun _ => r'))

instance declaredFunction (exported : Bool) : GivesNoValue (do
    match ← functionDeclaration g with
    | some (functionName, text) => Pure.pure (.function exported functionName text)
    | none => Pure.pure .other) := by
  refine .bind fun found => ?_
  split <;> infer_instance

instance : GivesNoValue (expressionStatement g) := by
  refine .bind fun e => .bind fun _ => ?_
  split
  · exact .pure trivial
  · infer_instance

instance [hr : GivesNoValue r] [hr' : GivesNoValue r'] : GivesNoValue (r <|> r') where
  noValue hread := (orElse_cases hread).elim hr.noValue hr'.noValue

/-- What a choice gives is from its second part, or is no export of a value. -/
theorem cases [hr : GivesNoValue r] {c stop : Cursor} {form : Form} (h : (r <|> r') c = some (form, stop)) :
    form.ExportsNoValue ∨ r' c = some (form, stop) :=
  (orElse_cases h).imp_left hr.noValue

end GivesNoValue

variable {own : List Char}

theorem HasExport.of_words {c decorated next after stop : Cursor} {word : String} {a b : Unit}
    (hown : own ++ stop.rest = c.rest) (hdecorated : decorated.rest <:+ c.rest)
    (hexport : keyword "export" decorated = some (a, next)) (hne : word.toList ≠ [])
    (hword : keyword word next = some (b, after)) (hstop : stop.rest <:+ after.rest) :
    ∃ gap rest, HasExport own word gap rest := by
  obtain ⟨before, hbefore⟩ := hdecorated
  obtain ⟨rest, hrest⟩ := hstop
  obtain ⟨⟨first, -, hfirst⟩, -⟩ := exists_of_keyword (by decide) hexport
  obtain ⟨⟨gap, hgap, hsecond⟩, hends⟩ := exists_of_keyword hne hword
  refine ⟨gap, rest, hgap, fun x hx => hends x ?_, before ++ first, ?_⟩
  · rw [← hrest, List.head?_append, hx, Option.some_or]
    rfl
  · refine List.append_cancel_right (?_ : _ ++ stop.rest = own ++ stop.rest)
    rw [hown, ← hbefore, hfirst, hsecond, ← hrest]
    simp only [List.append_assoc]

theorem stop_suffix {r : Reader α} [hr : ∀ text, StaysIn text r] {c stop : Cursor} {a : α}
    (h : r c = some (a, stop)) : stop.rest <:+ c.rest :=
  (hr c.rest).suffix (List.suffix_refl _) h

variable [∀ text, g.StaysIn text]

/-- A default export has its words in its text. -/
theorem writtenIn_of_default {c decorated next stop : Cursor} {a : Unit} {form : Form}
    (hown : own ++ stop.rest = c.rest) (hdecorated : decorated.rest <:+ c.rest)
    (hexport : keyword "export" decorated = some (a, next))
    (h : (do keyword "default"; return Form.defaultExport (← exportedDefault g)) next = some (form, stop)) :
    form.WrittenIn own := by
  obtain ⟨_, after, hword, hmore⟩ := exists_of_bind h
  obtain ⟨e, _, hvalue, hpure⟩ := exists_of_bind hmore
  cases hpure
  obtain ⟨gap, rest, hwords⟩ :=
    HasExport.of_words hown hdecorated hexport (by decide) hword (stop_suffix hvalue)
  exact .defaultExport hwords

/-- Exported variables have their words in their text. -/
theorem writtenIn_of_declarators {c decorated next stop : Cursor} {a : Unit} {form : Form}
    (hown : own ++ stop.rest = c.rest) (hdecorated : decorated.rest <:+ c.rest)
    (hexport : keyword "export" decorated = some (a, next))
    (h : (do let declared ← declarators g {}; statementEnd; return Form.bindings true declared) next =
      some (form, stop)) : form.WrittenIn own := by
  obtain ⟨declared, ended, hdeclared, hmore⟩ := exists_of_bind h
  obtain ⟨_, _, hend, hpure⟩ := exists_of_bind hmore
  cases hpure
  unfold declarators at hdeclared
  obtain ⟨word, after, hword, hrest⟩ := exists_of_bind hdeclared
  obtain ⟨hmem, hkeyword⟩ := exists_of_oneOf hword
  have hne : ∀ w ∈ ["const", "let", "var"], w.toList ≠ [] := by decide
  obtain ⟨gap, rest, hwords⟩ := HasExport.of_words hown hdecorated hexport (hne word hmem) hkeyword
    ((stop_suffix hend).trans (stop_suffix hrest))
  exact .bindings hmem hwords

theorem writtenIn_of_exportStatement {c stop : Cursor} {form : Form} (hown : own ++ stop.rest = c.rest)
    (h : exportStatement g c = some (form, stop)) : form.WrittenIn own := by
  unfold exportStatement at h
  obtain ⟨_, decorated, hdecorators, hmore⟩ := exists_of_bind h
  obtain ⟨_, next, hexport, hrest⟩ := exists_of_bind hmore
  have hdecorated := stop_suffix hdecorators
  extract_lets source typeWord at hrest
  rcases orElse_cases hrest with hdefault | hrest
  · exact writtenIn_of_default hown hdecorated hexport hdefault
  -- of the other ways to export, only the last one has values
  iterate 7
    rcases GivesNoValue.cases hrest with h | hrest
    · exact .noValue h
  exact writtenIn_of_declarators hown hdecorated hexport hrest

theorem writtenIn_of_anyStatement {c stop : Cursor} {form : Form} (hown : own ++ stop.rest = c.rest)
    (h : anyStatement g c = some (form, stop)) : form.WrittenIn own := by
  unfold anyStatement at h
  obtain ⟨next?, start, hnext, hrest⟩ := exists_of_bind h
  obtain rfl : c = start := (Prod.mk.inj (Option.some.inj hnext)).2
  revert hrest
  dsimp only
  split
  all_goals intro hrest
  · cases hrest
  · cases hrest
  · exact .noValue (GivesNoValue.noValue hrest)
  · exact .noValue (GivesNoValue.noValue hrest)
  all_goals
    rcases orElse_cases hrest with hexport | hother
    · exact writtenIn_of_exportStatement hown hexport
    · exact .noValue (GivesNoValue.noValue hother)

/-! ## Statements of a module -/

/-- A statement with its text. -/
structure Located where
  text : List Char
  statement : Statement

/-- The statements up to the end of the text, each with its text. -/
def locatedFrom (g : Grammar) : Nat → Cursor → List Located
  | 0, _ => []
  | fuel + 1, c =>
    let trivia := triviaOf c.rest
    let start : Cursor := ⟨trivia.rest, c.position + trivia.size, []⟩
    if start.rest.isEmpty then []
    else
      match g.statement start with
      | some (form, stop) =>
        ⟨start.rest.take (start.rest.length - stop.rest.length), ⟨form, stop.imports.reverse⟩⟩ ::
          locatedFrom g fuel stop
      | none => locatedFrom g fuel (afterLine start)

theorem map_locatedFrom (g : Grammar) (fuel : Nat) (c : Cursor) :
    (locatedFrom g fuel c).map Located.statement = statementsFrom g fuel c := by
  induction fuel generalizing c with
  | zero => rfl
  | succ fuel ih =>
    unfold locatedFrom statementsFrom
    dsimp only
    cases hread : g.statement ⟨(triviaOf c.rest).rest, c.position + (triviaOf c.rest).size, []⟩ with
    | none =>
      dsimp only
      rw [apply_ite (List.map Located.statement), ih]
      rfl
    | some found =>
      dsimp only
      rw [apply_ite (List.map Located.statement), List.map_cons, ih]
      rfl

/-- Each statement is written in a piece of the text. -/
theorem writtenIn_of_mem_locatedFrom {source : List Char} {fuel : Nat} {c : Cursor} {s : Located}
    (hc : c.rest <:+ source) (h : s ∈ locatedFrom g.deepen fuel c) :
    s.text <:+: source ∧ s.statement.form.WrittenIn s.text := by
  fun_induction locatedFrom g.deepen fuel c with
  | case1 | case2 => cases h
  | case3 fuel c trivia start _ form stop hread ih =>
    have hstart : start.rest <:+ source := (upcoming_suffix c.rest).trans hc
    have hstop : stop.rest <:+ start.rest := stop_suffix hread
    rcases List.mem_cons.1 h with rfl | hmore
    · have hown := List.suffix_iff_eq_append.1 hstop
      refine ⟨List.IsInfix.trans ⟨[], stop.rest, ?_⟩ hstart.isInfix, writtenIn_of_anyStatement hown hread⟩
      rw [List.nil_append, hown]
    · exact ih (hstop.trans hstart) hmore
  | case4 fuel c trivia start _ _ ih =>
    exact ih (start.rest_advance ((upcoming_suffix c.rest).trans hc) _) h

/-- The statements of a file, each with its text. -/
def Module.located (path source : String) : List Located :=
  let chars := source.toList
  let bound := chars.length + 1
  let c : Cursor := ⟨chars, 0, []⟩
  let start := if Text.beginsWith source "#!" then afterLine c else c
  locatedFrom (Grammar.ofDepth (hasElements path) bound (2 * bound)) bound start

theorem Module.map_located (path source : String) :
    (located path source).map Located.statement = ofFile path source :=
  map_locatedFrom _ _ _

omit [∀ text, g.StaysIn text] in
/-- Each statement of a file is written in a piece of its text. -/
theorem Module.writtenIn_of_mem_located {path source : String} {s : Located}
    (h : s ∈ located path source) :
    s.text <:+: source.toList ∧ s.statement.form.WrittenIn s.text := by
  let g := Grammar.ofDepth (hasElements path) (source.toList.length + 1) (2 * source.toList.length + 1)
  have (text : List Char) : g.StaysIn text := Grammar.staysIn_ofDepth text _ _ _
  refine writtenIn_of_mem_locatedFrom (g := g) ?_ h
  split
  · exact Cursor.rest_advance _ (List.suffix_refl _) _
  · exact List.suffix_refl _

end StoryRegistry.Script
