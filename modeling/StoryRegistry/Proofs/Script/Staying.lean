import StoryRegistry.Proofs.Script.Reading
import StoryRegistry.Script.Module

/-!
# Readers stay in the text

Whatever a reader does, it only moves forward: from a place in a text it comes to a place in the same
text (`StaysIn`). The property is passed on from readers to what is made of them, so that each reader
of the grammar has it by what it is made of, and the grammar of every depth has it by that of the depth
before (`Grammar.staysIn_ofDepth`).
-/

set_option autoImplicit false
-- readers of many parts make large instances
set_option synthInstance.maxSize 4000

namespace StoryRegistry.Script

variable {α β : Type}

/-- From a place in a text the reader only comes to places in that text. -/
class StaysIn (text : List Char) (r : Reader α) : Prop where
  suffix {c stop : Cursor} {a : α} (hc : c.rest <:+ text) (h : r c = some (a, stop)) :
    stop.rest <:+ text

variable {text : List Char} {r r' : Reader α}

/-! ## Sequences and choices -/

namespace StaysIn

instance pure (a : α) : StaysIn text (pure a : Reader α) where
  suffix hc h := by
    cases h
    exact hc

instance failure : StaysIn text (failure : Reader α) where
  suffix _ h := nomatch h

instance get : StaysIn text (get : Reader Cursor) where
  suffix hc h := by
    cases h
    exact hc

theorem set {c : Cursor} (hc : c.rest <:+ text) : StaysIn text (set c : Reader PUnit) where
  suffix _ h := by
    cases h
    exact hc

theorem bind {f : α → Reader β} (hr : StaysIn text r) (hf : ∀ a, StaysIn text (f a)) :
    StaysIn text (r >>= f) where
  suffix hc h := by
    obtain ⟨a, next, hread, hmore⟩ := exists_of_bind h
    exact (hf a).suffix (hr.suffix hc hread) hmore

instance {f : α → Reader β} [hr : StaysIn text r] [hf : ∀ a, StaysIn text (f a)] :
    StaysIn text (r >>= f) :=
  hr.bind hf

/-- A reader that looks at the text ahead looks at an end of the text. -/
theorem get_bind {f : Cursor → Reader α} (h : ∀ c : Cursor, c.rest <:+ text → StaysIn text (f c)) :
    StaysIn text (MonadState.get >>= f) where
  suffix hc hread := (h _ hc).suffix hc hread

instance map {f : α → β} [StaysIn text r] : StaysIn text (f <$> r) :=
  inferInstanceAs (StaysIn text (r >>= fun a => Pure.pure (f a)))

instance seqRight {q : Reader β} [StaysIn text r] [StaysIn text q] : StaysIn text (r *> q) :=
  inferInstanceAs (StaysIn text (r >>= fun _ => q))

theorem orElse (hr : StaysIn text r) (hr' : StaysIn text r') : StaysIn text (r <|> r') where
  suffix hc h := (orElse_cases h).elim (hr.suffix hc) (hr'.suffix hc)

instance [hr : StaysIn text r] [hr' : StaysIn text r'] : StaysIn text (r <|> r') := hr.orElse hr'

instance {p : Prop} [Decidable p] [StaysIn text r] [StaysIn text r'] :
    StaysIn text (if p then r else r') := by
  split <;> infer_instance

end StaysIn

/-! ## Tokens -/

theorem Cursor.rest_advance (c : Cursor) (hc : c.rest <:+ text) (n : Nat) :
    (c.advance n).rest <:+ text :=
  (List.drop_suffix n c.rest).trans hc

theorem rest_skipFrom (gap : Gap) (n : Nat) (newline comment : Bool) (s : List Char) :
    (skipFrom gap n newline comment s).rest <:+ s := by
  fun_induction skipFrom gap n newline comment s with
  | case1 n newline _ rest ih | case2 n newline _ rest ih | case7 n newline comment rest ih =>
    exact (ih.trans (List.suffix_cons _ _)).trans (List.suffix_cons _ _)
  | case3 | case5 | case6 | case8 =>
    rename_i ih
    exact ih.trans (List.suffix_cons _ _)
  | case4 | case9 => exact List.suffix_refl _

theorem upcoming_suffix (s : List Char) : upcoming s <:+ s := rest_skipFrom .blanks 0 false false s

instance : StaysIn text here := inferInstanceAs (StaysIn text get)

instance : StaysIn text skipTrivia :=
  .get_bind fun c hc =>
    have hskip : (triviaOf c.rest).rest <:+ text := (upcoming_suffix c.rest).trans hc
    have := StaysIn.set (c := ⟨_, c.position + (triviaOf c.rest).size, c.imports⟩) hskip
    inferInstance

instance : StaysIn text (peek r) where
  suffix hc h := by
    cases h
    exact hc

instance : StaysIn text (sees r) := by
  unfold sees
  infer_instance

instance (condition : Bool) : StaysIn text (check condition) := by
  unfold check
  infer_instance

instance [StaysIn text r] : StaysIn text (maybe r) := by
  unfold maybe
  infer_instance

theorem StaysIn.manyWithin (h : StaysIn text r) (bound : Nat) : StaysIn text (manyWithin bound r) := by
  induction bound with
  | zero => exact .pure []
  | succ bound ih =>
    unfold Script.manyWithin
    refine .bind inferInstance fun found => ?_
    cases found <;> infer_instance

instance [h : StaysIn text r] (bound : Nat) : StaysIn text (manyWithin bound r) := h.manyWithin bound

instance (s : String) : StaysIn text (exactly s) where
  suffix {c _ _} hc h := by
    unfold exactly at h
    split at h
    · rename_i rest hdrop
      cases h
      rw [Text.dropStart?_eq_some_iff] at hdrop
      exact List.IsSuffix.trans ⟨s.toList, hdrop.symm⟩ hc
    · cases h

instance (s : String) : StaysIn text (symbol s) := by
  unfold symbol
  infer_instance

instance (s : String) (followers : List Char) : StaysIn text (symbolNot s followers) := by
  unfold symbolNot
  infer_instance

instance (test : Char → Bool) : StaysIn text (charWhere test) := by
  unfold charWhere
  refine .get_bind fun c hc => ?_
  have := StaysIn.set (c.rest_advance hc 1)
  split <;> infer_instance

instance (test : Char → Bool) : StaysIn text (charsWhile test) :=
  .get_bind fun c hc =>
    have := StaysIn.set (c.rest_advance hc (c.rest.takeWhile test).length)
    inferInstance

instance : StaysIn text nextChar? := by
  unfold nextChar?
  infer_instance

instance : StaysIn text newlineAhead := by
  unfold newlineAhead
  infer_instance

instance (specifier : String) : StaysIn text (noteImport specifier) where
  suffix hc h := by
    cases h
    exact hc

instance : StaysIn text nameEscape := by
  unfold nameEscape
  dsimp only
  infer_instance

instance (bound : Nat) : StaysIn text (word bound) := by
  unfold word
  infer_instance

instance (bound : Nat) : StaysIn text (name bound) := by
  unfold name
  infer_instance

instance (w : String) : StaysIn text (keyword w) := by
  unfold keyword
  infer_instance

instance (words : List String) : StaysIn text (oneOf words) := by
  induction words with
  | nil => exact .failure
  | cons w rest ih =>
    unfold oneOf
    infer_instance


/-! ## Phrases -/

variable {g : Grammar}

instance [h : StaysIn text r] : StaysIn text (many g r) := h.manyWithin g.bound

instance [StaysIn text r] : StaysIn text (listOf g r) := by
  unfold listOf
  refine .bind inferInstance fun found => ?_
  cases found <;> infer_instance

instance (start finish : String) [StaysIn text r] : StaysIn text (enclosed g start finish r) := by
  unfold enclosed
  infer_instance

theorem StaysIn.captured {r : Reader (String → α)} (h : StaysIn text r) : StaysIn text (captured r) := by
  unfold Script.captured
  infer_instance

instance {r : Reader (String → α)} [h : StaysIn text r] : StaysIn text (captured r) := h.captured

instance : StaysIn text statementEnd := by
  unfold statementEnd
  infer_instance

instance : StaysIn text stringLiteral := by
  refine .captured (.get_bind fun c hc => ?_)
  have (n : Nat) := StaysIn.set (c.rest_advance hc n)
  split
  · refine .bind inferInstance fun _ => ?_
    split <;> infer_instance
  · infer_instance

instance {inside : Reader Unit} [StaysIn text inside] : StaysIn text (templateRest g inside) := by
  unfold templateRest
  extract_lets run
  have : StaysIn text run := .get_bind fun c hc => by
    have (n : Nat) := StaysIn.set (c.rest_advance hc n)
    infer_instance
  infer_instance

instance : StaysIn text numberLiteral := by
  refine .captured (.get_bind fun c hc => ?_)
  have (n : Nat) := StaysIn.set (c.rest_advance hc n)
  infer_instance

instance : StaysIn text regexLiteral := by
  refine .captured (.bind inferInstance fun _ => .get_bind fun c hc => ?_)
  have (n : Nat) := StaysIn.set (c.rest_advance hc n)
  split <;> infer_instance

/-- Every reader of the grammar stays in the text. -/
class Grammar.StaysIn (text : List Char) (g : Grammar) : Prop where
  assignment (mode : Mode) : Script.StaysIn text (g.assignment mode)
  unary (mode : Mode) : Script.StaysIn text (g.unary mode)
  primary : Script.StaysIn text g.primary
  type : Script.StaysIn text g.type
  pattern : Script.StaysIn text g.pattern
  element : Script.StaysIn text g.element
  statement : Script.StaysIn text g.statement

attribute [instance] Grammar.StaysIn.assignment Grammar.StaysIn.unary Grammar.StaysIn.primary
  Grammar.StaysIn.type Grammar.StaysIn.pattern Grammar.StaysIn.element Grammar.StaysIn.statement

variable [g.StaysIn text]

instance (mode : Mode) : StaysIn text (expression g mode) := by
  unfold expression
  infer_instance

instance : StaysIn text (templateLiteral g) := by
  unfold templateLiteral
  infer_instance

instance : StaysIn text (argument g) := by
  unfold argument
  infer_instance

instance : StaysIn text (arguments g) := by
  unfold arguments
  infer_instance

instance : StaysIn text (importArguments g) := by
  unfold importArguments
  refine .bind inferInstance fun _ => .bind inferInstance fun found => ?_
  cases found with
  | none => infer_instance
  | some first =>
    dsimp only
    cases specifier? first <;> infer_instance

instance : StaysIn text (privateName g) := by
  unfold privateName
  infer_instance

instance : StaysIn text (propertyName g) := by
  unfold propertyName
  have (e : Expr) : StaysIn text (match e with
      | .string _ pieces => pure (some (decodePieces pieces))
      | _ => pure none) := by
    split <;> infer_instance
  infer_instance

instance (words : List String) : StaysIn text (modifier words) := by
  unfold modifier
  refine .bind inferInstance fun w => .bind inferInstance fun next => ?_
  cases next <;> infer_instance

/-! ## Types -/

instance : StaysIn text (typeArguments g) := by
  unfold typeArguments
  infer_instance

instance : StaysIn text (ascription g) := by
  unfold ascription
  infer_instance

instance : StaysIn text (typeParameters g) := by
  unfold typeParameters
  infer_instance

instance : StaysIn text (parameter g) := by
  unfold parameter
  infer_instance

instance : StaysIn text (parameters g) := by
  unfold parameters
  infer_instance

instance : StaysIn text (signature g) := by
  unfold signature
  infer_instance

instance : StaysIn text (functionType g) := by
  unfold functionType
  infer_instance

instance : StaysIn text (typeMember g) := by
  unfold typeMember
  extract_lets optional index named
  infer_instance

instance : StaysIn text (objectType g) := by
  unfold objectType
  extract_lets separator
  infer_instance

instance : StaysIn text (tupleType g) := by
  unfold tupleType
  infer_instance

instance : StaysIn text (typeName g) := by
  unfold typeName
  infer_instance

instance : StaysIn text (typeArgumentsHere g) := by
  unfold typeArgumentsHere
  infer_instance

instance : StaysIn text (typePath g) := by
  unfold typePath
  infer_instance

instance : StaysIn text (primaryType g) := by
  unfold primaryType
  refine .bind inferInstance fun _ => .bind inferInstance fun start => ?_
  split <;> infer_instance

instance : StaysIn text (operandType g) := by
  unfold operandType
  refine .bind (.manyWithin (.bind inferInstance fun _ => .bind inferInstance fun next => ?_) 4)
    fun _ => inferInstance
  extract_lets
  split <;> infer_instance

instance : StaysIn text (anyType g) := by
  unfold anyType
  extract_lets operator operand
  infer_instance

/-! ## Functions and classes -/

instance : StaysIn text (defaultValue g) := by
  unfold defaultValue
  infer_instance

instance : StaysIn text (objectPatternPart g) := by
  unfold objectPatternPart
  infer_instance

instance : StaysIn text (arrayPatternPart g) := by
  unfold arrayPatternPart
  infer_instance

instance : StaysIn text (anyPattern g) := by
  unfold anyPattern
  refine .bind inferInstance fun next => ?_
  split <;> infer_instance

instance : StaysIn text (block g) := by
  unfold block
  infer_instance

instance : StaysIn text asyncWord := by
  unfold asyncWord
  infer_instance

instance : StaysIn text (functionExpression g) := by
  unfold functionExpression
  infer_instance

instance (mode : Mode) : StaysIn text (arrowHead g mode) := by
  unfold arrowHead
  infer_instance

instance (mode : Mode) : StaysIn text (arrowFunction g mode) := by
  unfold arrowFunction
  infer_instance

instance : StaysIn text (methodRest g) := by
  unfold methodRest
  infer_instance

instance : StaysIn text (classMember g) := by
  unfold classMember
  infer_instance

instance : StaysIn text (classRest g) := by
  unfold classRest
  infer_instance

instance : StaysIn text (decorators g) := by
  unfold decorators
  infer_instance

/-! ## Elements -/

instance : StaysIn text (elementName g) := by
  unfold elementName
  extract_lets isPart segment
  infer_instance

instance : StaysIn text (container g) := by
  unfold container
  infer_instance

instance : StaysIn text attributeText := by
  unfold attributeText
  infer_instance

instance : StaysIn text (elementAttribute g) := by
  unfold elementAttribute
  infer_instance

instance : StaysIn text (children g) := by
  unfold children
  extract_lets run
  refine .bind inferInstance fun _ => .bind (.manyWithin (.bind inferInstance fun c => ?_) g.bound)
    fun _ => inferInstance
  extract_lets
  split <;> infer_instance

instance : StaysIn text (anyElement g) := by
  unfold anyElement
  extract_lets closing
  infer_instance

/-! ## Expressions -/

instance : StaysIn text (parenthesized g) := by
  unfold parenthesized
  infer_instance

instance : StaysIn text (arrayLiteral g) := by
  unfold arrayLiteral
  infer_instance

instance : StaysIn text (objectMember g) := by
  unfold objectMember
  have (key : String) : StaysIn text (do
      match ← maybe (defaultValue g) with
      | some _ => pure none
      | none => pure (some (key, Expr.other key))) := by
    refine .bind inferInstance fun found => ?_
    cases found <;> infer_instance
  infer_instance

instance : StaysIn text (objectLiteral g) := by
  unfold objectLiteral
  infer_instance

instance : StaysIn text (newRest g) := by
  unfold newRest
  infer_instance

instance : StaysIn text (wordExpression g) := by
  unfold wordExpression
  refine .captured (.bind inferInstance fun w => ?_)
  split <;> infer_instance

instance : StaysIn text (anyPrimary g) := by
  unfold anyPrimary
  refine .bind inferInstance fun _ => .bind inferInstance fun c => ?_
  split <;> infer_instance

instance (start : Cursor) (e : Expr) : StaysIn text (postfixStep g start e) := by
  unfold postfixStep
  extract_lets ending taken indexed called tagged generic
  infer_instance

instance (start : Cursor) (fuel : Nat) (e : Expr) : StaysIn text (postfixSteps g start fuel e) := by
  induction fuel generalizing e with
  | zero => exact .pure e
  | succ fuel ih =>
    unfold postfixSteps
    refine .bind inferInstance fun found => ?_
    cases found <;> infer_instance

instance : StaysIn text (leftHandSide g) := by
  unfold leftHandSide
  infer_instance

instance (mode : Mode) : StaysIn text (anyUnary g mode) := by
  unfold anyUnary
  extract_lets prefixed hidden
  refine .bind inferInstance fun next => ?_
  split <;> infer_instance

instance (symbols : List (String × List Char)) : StaysIn text (anySymbol symbols) := by
  induction symbols with
  | nil => exact .failure
  | cons first rest ih =>
    unfold anySymbol
    infer_instance

instance (mode : Mode) : StaysIn text (binaryOperator mode) := by
  unfold binaryOperator
  infer_instance

instance (mode : Mode) : StaysIn text (cast g mode) := by
  unfold cast
  infer_instance

instance (mode : Mode) (start : Cursor) (fuel : Nat) (e : Expr) :
    StaysIn text (operatorSteps g mode start fuel e) := by
  induction fuel generalizing e with
  | zero => exact .pure e
  | succ fuel ih =>
    unfold operatorSteps
    refine .bind inferInstance fun found => ?_
    cases found <;> infer_instance

instance (mode : Mode) : StaysIn text (conditionalRest g mode) := by
  unfold conditionalRest
  extract_lets branches
  infer_instance

instance (symbols : List String) :
    StaysIn text (symbols.foldr (fun s r => symbol s <|> r) failure) := by
  induction symbols with
  | nil => exact .failure
  | cons s rest ih =>
    rw [List.foldr_cons]
    infer_instance

instance (mode : Mode) : StaysIn text (anyAssignment g mode) := by
  unfold anyAssignment
  refine .bind inferInstance fun _ => .bind inferInstance fun start => ?_
  extract_lets
  refine .orElse inferInstance (.orElse (.bind inferInstance fun (e, isBlock) => ?_) inferInstance)
  infer_instance

/-! ## Statements -/

instance (mode : Mode) : StaysIn text (declarator g mode) := by
  unfold declarator
  infer_instance

instance (mode : Mode) : StaysIn text (declarators g mode) := by
  unfold declarators
  infer_instance

theorem rest_declarationEnd {body c : Cursor} (hbody : body.rest <:+ text) (hc : c.rest <:+ text)
    (fuel : Nat) : (declarationEnd fuel body c).rest <:+ text := by
  fun_induction declarationEnd fuel body c with
  | case1 | case5 | case8 | case9 => exact hbody
  | case2 | case3 | case4 => exact hc
  | case6 _ _ _ _ next _ _ _ ih => exact ih hbody (next.rest_advance (Cursor.rest_advance _ hc _) _)
  | case7 _ _ _ _ next _ _ _ _ _ ih => exact ih hbody (next.rest_advance (Cursor.rest_advance _ hc _) _)

instance : StaysIn text (functionDeclaration g) := by
  unfold functionDeclaration
  refine .bind inferInstance fun _ => .bind inferInstance fun start => .bind inferInstance fun _ =>
    .bind inferInstance fun _ => .bind inferInstance fun generator => .bind inferInstance fun name =>
      .bind inferInstance fun _ => .bind inferInstance fun found => ?_
  cases found with
  | none => infer_instance
  | some _ =>
    refine .get_bind fun body hbody => ?_
    have := StaysIn.set (rest_declarationEnd hbody hbody g.bound)
    infer_instance

instance staysIn_declaredFunction (exported : Bool) : StaysIn text (do
    match ← functionDeclaration g with
    | some (functionName, text) => pure (Form.function exported functionName text)
    | none => pure .other) := by
  refine .bind inferInstance fun found => ?_
  split <;> infer_instance

instance : StaysIn text (interfaceDeclaration g) := by
  unfold interfaceDeclaration
  infer_instance

instance : StaysIn text (typeDeclaration g) := by
  unfold typeDeclaration
  infer_instance

instance : StaysIn text (enumDeclaration g) := by
  unfold enumDeclaration
  infer_instance

instance : StaysIn text (spaceDeclaration g) := by
  unfold spaceDeclaration
  extract_lets described
  infer_instance

instance : StaysIn text (classDeclaration g) := by
  unfold classDeclaration
  infer_instance

instance : StaysIn text (hiddenDeclaration g) := by
  unfold hiddenDeclaration
  infer_instance

instance : StaysIn text (ambientDeclaration g) := by
  unfold ambientDeclaration
  infer_instance

instance : StaysIn text (importAttributes g) := by
  unfold importAttributes
  infer_instance

instance : StaysIn text (importSource g) := by
  unfold importSource
  refine .bind inferInstance fun source => ?_
  cases specifier? source <;> infer_instance

instance : StaysIn text (listedWord g) := by
  unfold listedWord
  infer_instance

instance : StaysIn text (listedWords g) := by
  unfold listedWords
  infer_instance

instance : StaysIn text (importClause g) := by
  unfold importClause
  extract_lets group
  infer_instance

instance : StaysIn text (importAlias g) := by
  unfold importAlias
  infer_instance

instance : StaysIn text (importStatement g) := by
  unfold importStatement
  infer_instance

instance : StaysIn text (exportedDefault g) := by
  unfold exportedDefault
  infer_instance

instance : StaysIn text (exportStatement g) := by
  unfold exportStatement
  extract_lets source typeWord
  infer_instance

instance : StaysIn text (subject g) := by
  unfold subject
  infer_instance

instance : StaysIn text (loopHead g) := by
  unfold loopHead
  extract_lets mode
  infer_instance

instance : StaysIn text (switchCase g) := by
  unfold switchCase
  infer_instance

instance : StaysIn text (controlStatement g) := by
  unfold controlStatement
  extract_lets nested
  infer_instance

instance : StaysIn text (expressionStatement g) := by
  unfold expressionStatement
  refine .bind inferInstance fun e => .bind inferInstance fun _ => ?_
  split <;> infer_instance

instance : StaysIn text (anyStatement g) := by
  unfold anyStatement
  extract_lets hidden
  refine .bind inferInstance fun next => ?_
  split <;> infer_instance

/-! ## Modules -/

instance : Grammar.StaysIn text g.deepen where
  assignment mode := inferInstanceAs (StaysIn text (anyAssignment g mode))
  unary mode := inferInstanceAs (StaysIn text (anyUnary g mode))
  primary := inferInstanceAs (StaysIn text (anyPrimary g))
  type := inferInstanceAs (StaysIn text (anyType g))
  pattern := inferInstanceAs (StaysIn text (anyPattern g))
  element := inferInstanceAs (StaysIn text (anyElement g))
  statement := inferInstanceAs (StaysIn text (anyStatement g))

omit [g.StaysIn text] in
/-- Every reader of every grammar stays in the text, by induction on the depth. -/
theorem Grammar.staysIn_ofDepth (text : List Char) (elements : Bool) (bound depth : Nat) :
    (ofDepth elements bound depth).StaysIn text := by
  induction depth with
  | zero => exact ⟨fun _ => .failure, fun _ => .failure, .failure, .failure, .failure, .failure, .failure⟩
  | succ depth ih => exact inferInstanceAs ((ofDepth elements bound depth).deepen.StaysIn text)

end StoryRegistry.Script
