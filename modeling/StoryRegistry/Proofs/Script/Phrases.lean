import StoryRegistry.Proofs.Script.Number
import StoryRegistry.Proofs.Script.Reading
import StoryRegistry.Script.Module

/-!
# Literals among other phrases

A reader of expressions tries many phrases before it comes to a literal, and goes on to look for
operators behind it. None of the other phrases begins as a literal does (`Opens`), and no operator
begins like what closes a literal (`Closes`). So an expression that is a literal is read by the
reader of that literal alone (`Reads.assignment`).
-/

set_option autoImplicit false

namespace StoryRegistry.Script

variable {α : Type} {g : Grammar} {gap text rest s : List Char} {heads : List Char} {w : String}

/-! ## Heads -/

/-- The word begins with none of the characters. -/
def beginsOff (heads : List Char) (w : String) : Bool :=
  w.toList.head?.any fun a => !heads.contains a

theorem dropStart?_of_beginsOff (hs : ∀ c ∈ s.head?, c ∈ heads) (hw : beginsOff heads w = true) :
    Text.dropStart? w.toList s = none := by
  unfold beginsOff at hw
  cases hchars : w.toList with
  | nil => simp [hchars] at hw
  | cons a more =>
    have ha : a ∉ heads := by simpa [hchars] using hw
    cases s with
    | nil => rfl
    | cons c s =>
      have hne : a ≠ c := fun h => ha (h ▸ hs c rfl)
      rw [Text.dropStart?, if_neg hne]

theorem fails_symbol_of_head (hs : ∀ c ∈ (upcoming s).head?, c ∈ heads)
    (hw : beginsOff heads w = true) : Fails (symbol w) s :=
  fails_symbol (dropStart?_of_beginsOff hs hw)

theorem fails_keyword_of_head (hs : ∀ c ∈ (upcoming s).head?, c ∈ heads)
    (hw : beginsOff heads w = true) : Fails (keyword w) s :=
  Fails.bind (fails_symbol_of_head hs hw)

theorem fails_oneOf {words : List String} (h : ∀ w ∈ words, Fails (keyword w) s) :
    Fails (oneOf words) s := by
  induction words with
  | nil => exact fails_failure
  | cons w words ih =>
    refine Fails.orElse (Fails.bind (h w List.mem_cons_self)) ?_
    exact ih fun v hv => h v (List.mem_cons_of_mem w hv)

/-! ## Words -/

theorem isNameChar_of_isAlphanum {c : Char} (h : c.isAlphanum = true) : isNameChar c = true := by
  have hall : ∀ n < 128, (Char.ofNat n).isAlphanum = true → isNameChar (Char.ofNat n) = true := by
    decide +kernel
  exact Text.forall_ascii (P := fun c => c.isAlphanum = true → isNameChar c = true) hall
    (Text.toNat_lt_of_isAlphanum h) h

/-- A word ends in front of the text. -/
def EndsWord (rest : List Char) : Prop := ∀ c ∈ rest.head?, isNameChar c = false ∧ c ≠ '\\'

/-- The text is a plain name. -/
def IsName (text : List Char) : Prop :=
  text ≠ [] ∧ (∀ c ∈ text, isNameChar c = true) ∧ ∀ c ∈ text.head?, c.isDigit = false

theorem isToken_of_isName (h : IsName text) : IsToken (text ++ rest) := by
  obtain ⟨hne, hchars, -⟩ := h
  cases text with
  | nil => exact absurd rfl hne
  | cons c text =>
    have hc := hchars c List.mem_cons_self
    refine isToken_cons ?_ ?_
    · unfold isNameChar at hc
      simp only [Bool.and_eq_true, Bool.not_eq_true'] at hc
      exact hc.1.1.2
    · rintro rfl
      exact absurd hc (by decide)

theorem fails_nameEscape (hs : ∀ c ∈ s.head?, c ≠ '\\') : Fails nameEscape s := by
  refine Fails.nil_bind reads_here fun _ _ => Fails.bind (fails_exactly ?_)
  cases s with
  | nil => rfl
  | cons c s =>
    have hne : '\\' ≠ c := (hs c rfl).symm
    show (if '\\' = c then _ else none) = none
    rw [if_neg hne]

/-- A run of plain characters of a name, or one escape in it. -/
def namePiece : Reader (List Char) := do
  let plain ← charsWhile isNameChar
  if plain.isEmpty then nameEscape else pure plain

theorem reads_charsWhile {test : Char → Bool} (htext : ∀ c ∈ text, test c = true)
    (hrest : ∀ c ∈ rest.head?, test c = false) :
    Reads (charsWhile test) text rest fun taken => taken = text := by
  intro position imports
  refine ⟨text, rfl, ?_⟩
  have htaken := takeWhile_append_of_ends htext hrest
  show some ((text ++ rest).takeWhile test, Cursor.advance ⟨text ++ rest, position, imports⟩
    ((text ++ rest).takeWhile test).length) = _
  rw [htaken, advance_append]

theorem reads_namePiece (h : IsName text) (hrest : EndsWord rest) :
    Reads namePiece text rest fun piece => piece = text := by
  refine Reads.bind_nil (reads_charsWhile h.2.1 fun c hc => (hrest c hc).1) ?_
  rintro _ rfl
  rw [if_neg (by simpa using h.1)]
  exact Reads.pure rfl

theorem fails_namePiece (hs : EndsWord s) : Fails namePiece s := by
  refine Fails.nil_bind (reads_charsWhile (by simp) fun c hc => (hs c hc).1) ?_
  rintro _ rfl
  exact fails_nameEscape fun c hc => (hs c hc).2

theorem reads_word {bound : Nat} (hbound : 0 < bound) (hgap : IsTrivia gap) (h : IsName text)
    (hrest : EndsWord rest) :
    Reads (word bound) (gap ++ text) rest fun w => w = String.ofList text := by
  refine Reads.bind (reads_skipTrivia hgap (isToken_of_isName h)) fun _ _ => ?_
  intro position imports
  obtain ⟨bound, rfl⟩ := Nat.exists_eq_add_one_of_ne_zero (Nat.ne_of_gt hbound)
  have hpieces : Reads (manyWithin (bound + 1) namePiece) (text ++ []) rest
      fun pieces => ∃ a others, pieces = a :: others ∧ a = text ∧ others = [] :=
    Reads.manyWithin_cons (reads_namePiece h hrest)
      (Reads.manyWithin_nil bound (fails_namePiece hrest))
  rw [List.append_nil] at hpieces
  obtain ⟨pieces, ⟨a, others, rfl, -, -⟩, hread⟩ := hpieces position imports
  have hdigit : (!((text ++ rest).head?.any Char.isDigit)) = true := by
    cases text with
    | nil => exact absurd rfl h.1
    | cons c text => simpa using h.2.2 c rfl
  have hspan : Cursor.textTo ⟨text ++ rest, position, imports⟩
      ⟨rest, position + text.length, imports⟩ = String.ofList text := by
    simp [Cursor.textTo]
  refine ⟨String.ofList text, rfl, ?_⟩
  show (check (!((text ++ rest).head?.any Char.isDigit)) >>= fun _ =>
    manyWithin (bound + 1) namePiece >>= fun pieces => check (!pieces.isEmpty) >>= fun _ =>
    here >>= fun stop => pure (Cursor.textTo ⟨text ++ rest, position, imports⟩ stop))
      ⟨text ++ rest, position, imports⟩ = _
  rw [hdigit]
  show (manyWithin (bound + 1) namePiece ⟨text ++ rest, position, imports⟩ >>= fun p =>
    (check (!p.1.isEmpty) >>= fun _ => here >>= fun stop =>
      pure (Cursor.textTo ⟨text ++ rest, position, imports⟩ stop)) p.2) = _
  rw [hread]
  exact congrArg (fun t => some (t, _)) hspan

theorem fails_word {bound : Nat}
    (h : ∀ c ∈ (upcoming s).head?, c.isDigit = true ∨ isNameChar c = false ∧ c ≠ '\\') :
    Fails (word bound) s := by
  refine fails_skipTrivia_bind fun _ => Fails.nil_bind reads_here fun start hstart => ?_
  cases hs : upcoming s with
  | nil =>
    refine fails_check_bind (Fails.manyWithin_bind (fails_namePiece (by simp [EndsWord])) ?_)
    exact Fails.bind (fails_check rfl)
  | cons c more =>
    rw [hs] at h hstart
    rcases h c rfl with hdigit | hplain
    · refine Fails.bind (fails_check ?_)
      simp [hstart, hdigit]
    · have hends : EndsWord (c :: more) := by
        rintro d ⟨⟩
        exact hplain
      refine fails_check_bind (Fails.manyWithin_bind (fails_namePiece hends) ?_)
      exact Fails.bind (fails_check rfl)

/-- Nothing is read of a word that may have no parts. -/
theorem fails_word_zero : Fails (word 0) s := by
  refine fails_skipTrivia_bind fun _ => Fails.nil_bind reads_here fun _ _ => fails_check_bind ?_
  have hnone : Reads (manyWithin 0 namePiece) [] (upcoming s) fun pieces => pieces = [] :=
    Reads.pure rfl
  refine Fails.nil_bind hnone ?_
  rintro _ rfl
  exact Fails.bind (fails_check rfl)

theorem fails_name {bound : Nat} (h : Fails (word bound) s) : Fails (name bound) s :=
  Fails.bind h

theorem fails_name_of_reserved {bound : Nat} (hw : reservedWords.contains w = true)
    (h : Reads (word bound) text rest fun found => found = w) : Fails (name bound) (text ++ rest) :=
  Fails.after h fun _ hfound => Fails.bind (fails_check (by rw [hfound, hw]; rfl))

/-! ## What closes a literal -/

/-- The characters that can stand behind a literal, apart from blanks and comments. -/
def closers : List Char := [',', ']', '\x7d', ')', ';']

/-- In front of the text a literal can end. -/
structure Closes (s : List Char) : Prop where
  next : ∀ c ∈ (upcoming s).head?, c ∈ closers
  apart : ∀ c ∈ s.head?, isNameChar c = false ∧ c ≠ '\\' ∧ c ≠ '.'

theorem isToken_of_head (hs : ∀ c ∈ s.head?, c ∈ heads)
    (hheads : heads.all (fun c => !isSpace c && c != '/') = true) : IsToken s := by
  intro c hc
  have hthis := List.all_eq_true.1 hheads c (hs c hc)
  simpa using hthis

theorem isToken_of_closers (hs : ∀ c ∈ s.head?, c ∈ closers) : IsToken s :=
  isToken_of_head hs (by decide +kernel)

theorem isNameChar_of_isSpace {c : Char} (h : isSpace c = true) : isNameChar c = false := by
  simp [isNameChar, h]

theorem closes_append (hgap : IsTrivia gap) (hs : ∀ c ∈ s.head?, c ∈ closers) :
    Closes (gap ++ s) := by
  have htoken := isToken_of_closers hs
  refine ⟨by rwa [upcoming_append hgap htoken], ?_⟩
  cases hgap with
  | nil =>
    intro c hc
    have hall : ∀ d ∈ closers, isNameChar d = false ∧ d ≠ '\\' ∧ d ≠ '.' :=
      List.all_iff_forall_prop.1 (by decide)
    exact hall c (hs c hc)
  | @blank c more hc _ =>
    rintro _ ⟨⟩
    refine ⟨isNameChar_of_isSpace hc, ?_, ?_⟩
    · rintro rfl
      exact absurd hc (by decide)
    · rintro rfl
      exact absurd hc (by decide)
  | line =>
    rintro _ ⟨⟩
    decide
  | block =>
    rintro _ ⟨⟩
    decide

namespace Closes

theorem endsWord (h : Closes s) : EndsWord s := fun c hc =>
  ⟨(h.apart c hc).1, (h.apart c hc).2.1⟩

theorem endsNumber (h : Closes s) : EndsNumber s := by
  intro c hc
  obtain ⟨hname, -, hpoint⟩ := h.apart c hc
  refine ⟨?_, ?_, hpoint⟩
  · cases halnum : c.isAlphanum with
    | false => rfl
    | true => exact absurd ((isNameChar_of_isAlphanum halnum).symm.trans hname) (by decide)
  · rintro rfl
    exact absurd hname (by decide)

theorem upcoming (h : Closes s) : Closes (upcoming s) := closes_append .nil h.next

theorem symbol (h : Closes s) (hw : beginsOff closers w = true) : Fails (symbol w) s :=
  fails_symbol_of_head h.next hw

theorem keyword (h : Closes s) (hw : beginsOff closers w = true) : Fails (keyword w) s :=
  fails_keyword_of_head h.next hw

theorem arguments (h : Closes s) : Fails (arguments g) s :=
  Fails.bind (Fails.bind (h.symbol (by decide)))

theorem typeArguments (h : Closes s) : Fails (typeArguments g) s :=
  Fails.bind (Fails.bind (h.symbol (by decide)))

theorem templateLiteral (h : Closes s) : Fails (templateLiteral g) s := by
  refine Fails.captured (Fails.bind (fails_exactly ?_))
  exact dropStart?_of_beginsOff h.next (by decide)

/-- Nothing is called on a literal or taken from it. -/
theorem postfixStep (h : Closes s) (start : Cursor) (e : Expr) :
    Fails (postfixStep g start e) s := by
  unfold Script.postfixStep
  refine Fails.orElse (Fails.bind (h.symbol (by decide))) ?_
  refine Fails.orElse (Fails.bind (Fails.bind (h.symbol (by decide)))) ?_
  refine Fails.orElse (Fails.bind (h.symbol (by decide))) ?_
  refine Fails.orElse (Fails.bind h.arguments) ?_
  refine Fails.orElse (fails_skipTrivia_bind fun _ => Fails.bind h.upcoming.templateLiteral) ?_
  refine Fails.orElse (Fails.bind h.typeArguments) ?_
  refine Fails.orElse (Fails.nil_bind reads_newlineAhead fun _ _ => fails_check_bind ?_)
    (Fails.nil_bind reads_newlineAhead fun _ _ => fails_check_bind ?_)
  · exact Fails.bind (Fails.bind (h.symbol (by decide)))
  · exact Fails.bind (Fails.orElse (h.symbol (by decide)) (h.symbol (by decide)))

theorem postfixSteps (h : Closes s) (start : Cursor) (bound : Nat) (e : Expr) :
    Reads (postfixSteps g start bound e) [] s fun found => found = e := by
  cases bound with
  | zero => exact Reads.pure rfl
  | succ bound =>
    refine Reads.nil_bind (Reads.maybe_none (h.postfixStep start e)) ?_
    rintro _ rfl
    exact Reads.pure rfl

theorem anySymbol (h : Closes s) {symbols : List (String × List Char)}
    (hsymbols : symbols.all (fun entry => beginsOff closers entry.1) = true) :
    Fails (anySymbol symbols) s := by
  induction symbols with
  | nil => exact fails_failure
  | cons entry symbols ih =>
    obtain ⟨hentry, hmore⟩ := Bool.and_eq_true_iff.1 (List.all_cons ▸ hsymbols)
    exact Fails.orElse (Fails.bind (h.symbol hentry)) (ih hmore)

theorem binaryOperator (h : Closes s) (mode : Mode) : Fails (binaryOperator mode) s := by
  refine Fails.orElse (h.anySymbol (by decide)) ?_
  refine Fails.orElse (h.keyword (by decide)) ?_
  exact fails_check_bind (h.keyword (by decide))

theorem cast (h : Closes s) (mode : Mode) : Fails (cast g mode) s := by
  refine Fails.nil_bind reads_newlineAhead fun _ _ => fails_check_bind ?_
  exact Fails.bind (Fails.orElse (h.keyword (by decide)) (h.keyword (by decide)))

/-- No operator follows a literal. -/
theorem operatorSteps (h : Closes s) (mode : Mode) (start : Cursor) (bound : Nat) (e : Expr) :
    Reads (operatorSteps g mode start bound e) [] s fun found => found = e := by
  cases bound with
  | zero => exact Reads.pure rfl
  | succ bound =>
    refine Reads.nil_bind (Reads.maybe_none ?_) ?_
    · exact Fails.orElse (Fails.bind (h.cast mode)) (Fails.bind (h.binaryOperator mode))
    · rintro _ rfl
      exact Reads.pure rfl

theorem updateSymbols (h : Closes s) {symbols : List String}
    (hsymbols : symbols.all (beginsOff closers) = true) :
    Fails (symbols.foldr (fun s r => Script.symbol s <|> r) failure) s := by
  induction symbols with
  | nil => exact fails_failure
  | cons entry symbols ih =>
    obtain ⟨hentry, hmore⟩ := Bool.and_eq_true_iff.1 (List.all_cons ▸ hsymbols)
    exact Fails.orElse (h.symbol hentry) (ih hmore)

theorem conditionalRest (h : Closes s) (mode : Mode) : Fails (conditionalRest g mode) s :=
  Fails.bind (Fails.bind (h.symbol (by decide)))

/-! What closes a literal begins no literal, nor any other expression. -/

theorem word (h : Closes s) (bound : Nat) : Fails (word bound) s := by
  refine fails_word fun c hc => ?_
  have hall : ∀ d ∈ closers, d.isDigit = true ∨ isNameChar d = false ∧ d ≠ '\\' :=
    List.all_iff_forall_prop.1 (by decide)
  exact hall c (h.next c hc)

theorem asyncWord (h : Closes s) : Fails asyncWord s := Fails.bind (h.keyword (by decide))

theorem typeParameters (h : Closes s) : Fails (typeParameters g) s :=
  Fails.bind (Fails.bind (h.symbol (by decide)))

theorem arrowFunction (h : Closes s) (mode : Mode) : Fails (arrowFunction g mode) s := by
  refine Fails.captured (Fails.bind (Fails.bind (Fails.orElse ?_ ?_)))
  · exact Fails.maybe_bind (Fails.bind h.upcoming.asyncWord)
      (Fails.bind (fails_name (h.upcoming.word _)))
  · refine Fails.maybe_bind h.upcoming.asyncWord ?_
    refine Fails.maybe_bind h.upcoming.typeParameters (Fails.bind ?_)
    exact Fails.bind (Fails.bind (h.upcoming.symbol (by decide)))

theorem captured (h : Closes s) {f : Unit → Reader (String → α)} (hw : beginsOff closers w = true) :
    Fails (captured (Script.keyword w >>= f)) s :=
  Fails.captured (Fails.bind (h.upcoming.keyword hw))

theorem functionExpression (h : Closes s) : Fails (functionExpression g) s :=
  Fails.captured (Fails.maybe_bind h.upcoming.asyncWord
    (Fails.bind (h.upcoming.keyword (by decide))))

theorem classRest (h : Closes s) : Fails (classRest g) s := Fails.bind (h.keyword (by decide))

theorem wordExpression (h : Closes s) : Fails (wordExpression g) s :=
  Fails.captured (Fails.bind (h.upcoming.word g.bound))

theorem anyPrimary (h : Closes s) : Fails (anyPrimary g) s := by
  refine fails_skipTrivia_bind fun _ => Fails.get_bind fun c hc => ?_
  cases hs : Script.upcoming s with
  | nil =>
    rw [hc, hs]
    exact fails_failure
  | cons first more =>
    have hfirst := h.next first (by rw [hs]; rfl)
    have hall : ∀ d ∈ closers, d ∉ ['"', '\x27', '\x60', '(', '[', '\x7b', '<', '/', '#', '@', '.'] ∧
        d.isDigit = false := List.all_iff_forall_prop.1 (by decide)
    obtain ⟨hmark, hdigit⟩ := hall first hfirst
    simp only [List.mem_cons, List.not_mem_nil, or_false, not_or] at hmark
    rw [hc, hs]
    dsimp only
    simp only [beq_iff_eq, hmark, hdigit, if_false, Bool.or_eq_true, or_self]
    rw [← hs]
    refine Fails.orElse h.upcoming.functionExpression (Fails.orElse ?_ h.upcoming.wordExpression)
    exact Fails.captured (Fails.bind h.upcoming.upcoming.classRest)

theorem leftHandSide (h : Closes s) (hprimary : ∀ s, Closes s → Fails g.primary s) :
    Fails (leftHandSide g) s :=
  fails_skipTrivia_bind fun _ => Fails.nil_bind reads_here fun _ _ =>
    Fails.bind (hprimary _ h.upcoming)

theorem anyUnary (h : Closes s) (hprimary : ∀ s, Closes s → Fails g.primary s) (mode : Mode) :
    Fails (anyUnary g mode) s := by
  refine Fails.nil_bind reads_nextChar? ?_
  rintro _ rfl
  split
  case h_6 =>
    refine Fails.orElse (h.captured (by decide)) (Fails.orElse (h.captured (by decide)) ?_)
    refine Fails.orElse (h.captured (by decide)) (Fails.orElse (h.captured (by decide)) ?_)
    exact h.leftHandSide hprimary
  all_goals
    rename_i heq
    exact absurd (h.next _ heq) (by decide)

theorem anyAssignment (h : Closes s) (hprimary : ∀ s, Closes s → Fails g.primary s) (mode : Mode) :
    Fails (anyAssignment g mode) s := by
  refine fails_skipTrivia_bind fun _ => Fails.nil_bind reads_here fun _ _ => ?_
  refine Fails.orElse (Fails.bind (h.upcoming.keyword (by decide))) ?_
  refine Fails.orElse (Fails.bind (h.upcoming.arrowFunction mode)) ?_
  exact Fails.bind (h.upcoming.anyUnary hprimary mode)

theorem assignment (h : Closes s) (elements : Bool) (bound : Nat) :
    ∀ depth mode, Fails ((Grammar.ofDepth elements bound depth).assignment mode) s := by
  have hprimary : ∀ depth s, Closes s → Fails (Grammar.ofDepth elements bound depth).primary s := by
    rintro (_ | depth) s hs
    · exact fails_failure
    · exact hs.anyPrimary
  rintro (_ | depth) mode
  · exact fails_failure
  · exact h.anyAssignment (hprimary depth) mode

end Closes

/-! ## What a literal opens with -/

/-- The characters that a literal can begin with. -/
def literalHeads : List Char := "\"\x27\x600123456789+-[\x7btfn".toList

/-- Words that other phrases begin with where a literal could stand. -/
def leadWords : List String :=
  ["yield", "async", "typeof", "void", "delete", "await", "function", "class", "abstract",
    "interface", "const", "enum"]

/-- The text begins like a literal, and no other phrase begins so. -/
structure Opens (s : List Char) : Prop where
  head : ∀ c ∈ s.head?, c ∈ literalHeads
  lead : ∀ w ∈ leadWords, Text.dropStart? w.toList s = none
  name (bound : Nat) : Fails (name bound) s

namespace Opens

theorem isToken (h : Opens s) : IsToken s := isToken_of_head h.head (by decide +kernel)

theorem upcoming_eq (h : Opens s) : upcoming s = s := upcoming_of_isToken h.isToken

theorem symbol (h : Opens s) (hw : beginsOff literalHeads w = true) : Fails (symbol w) s :=
  fails_symbol_of_head (by rw [h.upcoming_eq]; exact h.head) hw

theorem keyword (h : Opens s) (hw : w ∈ leadWords) : Fails (keyword w) s :=
  fails_keyword (h.upcoming_eq.symm ▸ h.lead w hw)

theorem asyncWord (h : Opens s) : Fails asyncWord s := Fails.bind (h.keyword (by decide))

theorem typeParameters (h : Opens s) : Fails (typeParameters g) s :=
  Fails.bind (Fails.bind (h.symbol (by decide)))

theorem arrowFunction (h : Opens s) (mode : Mode) : Fails (arrowFunction g mode) s := by
  refine Fails.captured ?_
  rw [h.upcoming_eq]
  refine Fails.bind (Fails.bind (Fails.orElse ?_ ?_))
  · exact Fails.maybe_bind (Fails.bind h.asyncWord) (Fails.bind (h.name _))
  · refine Fails.maybe_bind h.asyncWord (Fails.maybe_bind h.typeParameters (Fails.bind ?_))
    exact Fails.bind (Fails.bind (h.symbol (by decide)))

theorem captured (h : Opens (upcoming s)) {f : Unit → Reader (String → α)} (hw : w ∈ leadWords) :
    Fails (captured (Script.keyword w >>= f)) s :=
  Fails.captured (Fails.bind (h.keyword hw))

theorem functionExpression (h : Opens s) : Fails (functionExpression g) s := by
  refine Fails.captured ?_
  rw [h.upcoming_eq]
  exact Fails.maybe_bind h.asyncWord (Fails.bind (h.keyword (by decide)))

theorem classRest (h : Opens s) : Fails (classRest g) s := Fails.bind (h.keyword (by decide))

end Opens

/-- What begins with a sign, a quote, a digit or a bracket opens a literal. -/
theorem opens_of_mark {c : Char} (hc : c ∈ "\"\x27\x600123456789+-[\x7b".toList) :
    Opens (c :: s) := by
  have hhead : c ∈ literalHeads := by
    have hall := List.all_eq_true.1 (by decide : "\"\x27\x600123456789+-[\x7b".toList.all
      literalHeads.contains = true) c hc
    exact List.contains_iff_mem.1 hall
  have hheads : ∀ d ∈ (c :: s).head?, d ∈ "\"\x27\x600123456789+-[\x7b".toList := by
    rintro d ⟨⟩
    exact hc
  refine ⟨by rintro d ⟨⟩; exact hhead, ?_, ?_⟩
  · intro w hw
    have hoff := List.all_eq_true.1 (by decide : leadWords.all
      (beginsOff "\"\x27\x600123456789+-[\x7b".toList) = true) w hw
    exact dropStart?_of_beginsOff hheads hoff
  · intro bound
    refine fails_name (fails_word ?_)
    rw [upcoming_of_isToken (isToken_of_head hheads (by decide +kernel))]
    intro d hd
    have hplain := List.all_eq_true.1 (by decide : "\"\x27\x600123456789+-[\x7b".toList.all
      (fun d => d.isDigit || !isNameChar d && d != '\\') = true) d (hheads d hd)
    simpa using hplain

/-- The words that are literals. -/
def literalWords : List String := ["true", "false", "null"]

theorem isName_of_literalWords (hw : w ∈ literalWords) : IsName w.toList := by
  simp only [literalWords, List.mem_cons, List.not_mem_nil, or_false] at hw
  rcases hw with rfl | rfl | rfl
  all_goals
    refine ⟨by decide, List.all_eq_true.1 (by decide), ?_⟩
    rintro c ⟨⟩
    decide

theorem opens_of_word (hw : w ∈ literalWords) (hrest : EndsWord rest) :
    Opens (w.toList ++ rest) := by
  have hname := isName_of_literalWords hw
  refine ⟨?_, ?_, ?_⟩
  · simp only [literalWords, List.mem_cons, List.not_mem_nil, or_false] at hw
    rcases hw with rfl | rfl | rfl
    all_goals
      rintro c ⟨⟩
      decide
  · intro lead hlead
    simp only [literalWords, leadWords, List.mem_cons, List.not_mem_nil, or_false] at hw hlead
    rcases hw with rfl | rfl | rfl <;>
      rcases hlead with rfl | rfl | rfl | rfl | rfl | rfl | rfl | rfl | rfl | rfl | rfl | rfl <;>
      rfl
  · intro bound
    rcases Nat.eq_zero_or_pos bound with rfl | hbound
    · exact fails_name fails_word_zero
    · have hreserved : ∀ w ∈ literalWords, reservedWords.contains w = true := by decide
      have hread := reads_word hbound .nil hname hrest
      rw [List.nil_append, String.ofList_toList] at hread
      exact fails_name_of_reserved (hreserved w hw) hread

/-! ## Expressions that are literals -/

section

variable {P : Expr → Prop} {mode : Mode}

theorem reads_leftHandSide (hgap : IsTrivia gap) (htoken : IsToken (text ++ rest))
    (h : Reads g.primary text rest P) (hrest : Closes rest) :
    Reads (leftHandSide g) (gap ++ text) rest P := by
  refine Reads.bind (reads_skipTrivia hgap htoken) fun _ _ => ?_
  refine Reads.nil_bind reads_here fun start _ => ?_
  refine Reads.bind_nil h fun e he => ?_
  exact (hrest.postfixSteps start g.bound e).mono fun _ hfound => hfound ▸ he

/-- A literal without a sign is read by what reads expressions without operators. -/
theorem reads_unary (hgap : IsTrivia gap) (hopens : Opens (text ++ rest))
    (hsign : ∀ c ∈ (text ++ rest).head?, c ≠ '+' ∧ c ≠ '-') (h : Reads g.primary text rest P)
    (hrest : Closes rest) : Reads (anyUnary g mode) (gap ++ text) rest P := by
  have hupcoming : upcoming (gap ++ text ++ rest) = text ++ rest := by
    rw [List.append_assoc, upcoming_append hgap hopens.isToken]
  have hlead : Opens (upcoming (gap ++ text ++ rest)) := by rwa [hupcoming]
  refine Reads.nil_bind reads_nextChar? ?_
  rintro _ rfl
  rw [hupcoming]
  have hhead := hopens.head
  split
  case h_6 =>
    refine Reads.orElse_right (hlead.captured (by decide)) ?_
    refine Reads.orElse_right (hlead.captured (by decide)) ?_
    refine Reads.orElse_right (hlead.captured (by decide)) ?_
    refine Reads.orElse_right (hlead.captured (by decide)) ?_
    exact reads_leftHandSide hgap hopens.isToken h hrest
  case h_3 heq => exact absurd rfl (hsign '+' heq).1
  case h_4 heq => exact absurd rfl (hsign '-' heq).2
  all_goals
    rename_i heq
    exact absurd (hhead _ heq) (by decide)

/-- Behind blanks and comments the text goes on with a blank, a slash or what follows them. -/
theorem head?_gap_append {P : Char → Prop} (hgap : IsTrivia gap)
    (htext : ∀ c ∈ s.head?, P c) (hspace : ∀ c, isSpace c = true → P c) (hslash : P '/') :
    ∀ c ∈ (gap ++ s).head?, P c := by
  cases hgap with
  | nil => exact htext
  | @blank c more hc _ =>
    rintro _ ⟨⟩
    exact hspace c hc
  | line =>
    rintro _ ⟨⟩
    exact hslash
  | block =>
    rintro _ ⟨⟩
    exact hslash

theorem reads_prefixed {c : Char} (hw : w.toList = [c]) (htoken : IsToken [c])
    (hnext : ∀ d ∈ (text ++ rest).head?, d ≠ c) (h : Reads (g.unary mode) text rest P) :
    Reads
      (captured do
        symbolNot w [c]
        let operand ← g.unary mode
        pure fun source => Expr.signed source w operand)
      (c :: text) rest fun e => ∃ source operand, e = .signed source w operand ∧ P operand := by
  have hcut : IsToken (c :: (text ++ rest)) := by
    rintro d ⟨⟩
    exact htoken c rfl
  refine Reads.captured_token hcut ?_
  have hother : ∀ d ∈ (text ++ rest).head?, d ∉ [c] := fun d hd => by
    simpa using hnext d hd
  have hsign := reads_symbolNot_token hw hcut hother
  refine Reads.bind hsign fun _ _ => Reads.bind_nil h fun operand hoperand => ?_
  exact Reads.pure ⟨_, operand, rfl, hoperand⟩

/-- A sign before a literal is kept, with what it stands before. -/
theorem reads_signed {c : Char} (hw : w.toList = [c]) (hc : w = "+" ∨ w = "-")
    (hgap : IsTrivia gap) (hsign : ∀ d ∈ (text ++ rest).head?, d ≠ '+' ∧ d ≠ '-')
    (h : Reads (g.unary mode) (gap ++ text) rest P) :
    Reads (anyUnary g mode) (c :: (gap ++ text)) rest fun e =>
      ∃ source operand, e = .signed source w operand ∧ P operand := by
  have hnext : ∀ d ∈ (gap ++ text ++ rest).head?, d ≠ '+' ∧ d ≠ '-' := by
    rw [List.append_assoc]
    refine head?_gap_append hgap hsign ?_ (by decide)
    intro d hd
    constructor
    · rintro rfl
      exact absurd hd (by decide)
    · rintro rfl
      exact absurd hd (by decide)
  refine Reads.nil_bind reads_nextChar? ?_
  rintro _ rfl
  rcases hc with rfl | rfl
  · obtain rfl : '+' = c := List.singleton_inj.1 (show ['+'] = [c] from hw)
    have htoken (s : List Char) : IsToken ('+' :: s) := isToken_cons (by decide) (by decide)
    rw [List.cons_append, upcoming_of_isToken (htoken _), List.head?_cons]
    refine Reads.orElse_left (reads_prefixed hw (htoken []) ?_ h)
    exact fun d hd => (hnext d hd).1
  · obtain rfl : '-' = c := List.singleton_inj.1 (show ['-'] = [c] from hw)
    have htoken (s : List Char) : IsToken ('-' :: s) := isToken_cons (by decide) (by decide)
    rw [List.cons_append, upcoming_of_isToken (htoken _), List.head?_cons]
    refine Reads.orElse_left (reads_prefixed hw (htoken []) ?_ h)
    exact fun d hd => (hnext d hd).2

/-- An expression is read by what reads prefix operators, if no operator follows it. -/
theorem reads_assignment (hgap : IsTrivia gap) (hopens : Opens (text ++ rest))
    (h : Reads (anyUnary g mode) text rest P) (hrest : Closes rest) :
    Reads (anyAssignment g mode) (gap ++ text) rest P := by
  refine Reads.bind (reads_skipTrivia hgap hopens.isToken) fun _ _ => ?_
  refine Reads.nil_bind reads_here fun start _ => ?_
  refine Reads.orElse_right (Fails.bind (hopens.keyword (by decide))) ?_
  refine Reads.orElse_right (Fails.bind (hopens.arrowFunction mode)) ?_
  refine Reads.bind_nil h fun first hfirst => ?_
  refine Reads.bind_nil (hrest.operatorSteps mode start g.bound first) ?_
  rintro _ rfl
  refine Reads.orElse_right (Fails.bind (Fails.bind (hrest.symbol (by decide)))) ?_
  refine Reads.orElse_right (Fails.bind (hrest.updateSymbols (by decide))) ?_
  refine Reads.orElse_right (Fails.bind (hrest.conditionalRest mode)) ?_
  exact Reads.pure hfirst

end

end StoryRegistry.Script
