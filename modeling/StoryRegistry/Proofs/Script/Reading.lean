import StoryRegistry.Proofs.Text.Ascii
import StoryRegistry.Script.Grammar

/-!
# What readers do

A reader takes a text if, wherever the text stands, the reader moves over it and leaves what follows
(`Reads`); it fails on a text if it does so wherever the text stands (`Fails`). Both are passed on
from readers to what is made of them: a sequence takes the texts of its parts one behind the other, a
choice takes what its first part takes, or else what its second part takes on which the first fails,
and a repetition takes texts until its part fails.

Blanks and comments stand before any token. A token reader fails as soon as the text that comes up
behind them begins otherwise.
-/

set_option autoImplicit false

namespace StoryRegistry.Script

variable {α β : Type}

/-- Wherever the text stands in front of `rest`, the reader moves over it, and its result has the
property. -/
def Reads (r : Reader α) (text rest : List Char) (P : α → Prop) : Prop :=
  ∀ position imports, ∃ a, P a ∧
    r ⟨text ++ rest, position, imports⟩ = some (a, ⟨rest, position + text.length, imports⟩)

/-- Wherever the text stands, the reader fails on it. -/
def Fails (r : Reader α) (s : List Char) : Prop :=
  ∀ position imports, r ⟨s, position, imports⟩ = none

section

variable {r : Reader α} {text more rest s : List Char} {P : α → Prop} {Q : β → Prop}

/-! ## Sequences and choices -/

theorem Reads.mono {P' : α → Prop} (h : Reads r text rest P) (hP : ∀ a, P a → P' a) :
    Reads r text rest P' := by
  intro position imports
  obtain ⟨a, ha, hread⟩ := h position imports
  exact ⟨a, hP a ha, hread⟩

theorem Reads.pure {a : α} (h : P a) : Reads (pure a) [] rest P := by
  intro position imports
  exact ⟨a, h, rfl⟩

theorem Reads.bind {f : α → Reader β} (h : Reads r text (more ++ rest) P)
    (hf : ∀ a, P a → Reads (f a) more rest Q) : Reads (r >>= f) (text ++ more) rest Q := by
  intro position imports
  obtain ⟨a, ha, hread⟩ := h position imports
  obtain ⟨b, hb, hmore⟩ := hf a ha (position + text.length) imports
  refine ⟨b, hb, ?_⟩
  show (r ⟨text ++ more ++ rest, position, imports⟩ >>= fun p => f p.1 p.2) = _
  rw [List.append_assoc, hread, List.length_append, ← Nat.add_assoc]
  exact hmore

/-- What comes after a reader that takes the whole text takes nothing. -/
theorem Reads.bind_nil {f : α → Reader β} (h : Reads r text rest P)
    (hf : ∀ a, P a → Reads (f a) [] rest Q) : Reads (r >>= f) text rest Q := by
  have hseq : Reads (r >>= f) (text ++ []) rest Q := Reads.bind h hf
  rwa [List.append_nil] at hseq

/-- What comes after a reader that takes nothing takes the whole text. -/
theorem Reads.nil_bind {f : α → Reader β} (h : Reads r [] (text ++ rest) P)
    (hf : ∀ a, P a → Reads (f a) text rest Q) : Reads (r >>= f) text rest Q :=
  List.nil_append text ▸ Reads.bind h hf

theorem Reads.map {f : α → β} (h : Reads r text rest P) (hf : ∀ a, P a → Q (f a)) :
    Reads (f <$> r) text rest Q := by
  intro position imports
  obtain ⟨a, ha, hread⟩ := h position imports
  refine ⟨f a, hf a ha, ?_⟩
  show (r ⟨text ++ rest, position, imports⟩ >>= fun p => Pure.pure (f p.1, p.2)) = _
  rw [hread]
  rfl

theorem Fails.bind {f : α → Reader β} (h : Fails r s) : Fails (r >>= f) s := by
  intro position imports
  show (r ⟨s, position, imports⟩ >>= fun p => f p.1 p.2) = none
  rw [h position imports]
  rfl

theorem Fails.map {f : α → β} (h : Fails r s) : Fails (f <$> r) s := by
  intro position imports
  show (r ⟨s, position, imports⟩ >>= fun p => Pure.pure (f p.1, p.2)) = none
  rw [h position imports]
  rfl

/-- A reader that takes a text leaves it to the next one to fail on the rest. -/
theorem Fails.after {f : α → Reader β} (h : Reads r text rest P) (hf : ∀ a, P a → Fails (f a) rest) :
    Fails (r >>= f) (text ++ rest) := by
  intro position imports
  obtain ⟨a, ha, hread⟩ := h position imports
  show (r ⟨text ++ rest, position, imports⟩ >>= fun p => f p.1 p.2) = none
  rw [hread]
  exact hf a ha (position + text.length) imports

/-- A reader that takes nothing leaves it to the next one to fail. -/
theorem Fails.nil_bind {f : α → Reader β} (h : Reads r [] s P) (hf : ∀ a, P a → Fails (f a) s) :
    Fails (r >>= f) s :=
  Fails.after h hf

/-- A sequence succeeds by its parts. -/
theorem exists_of_bind {f : α → Reader β} {c stop : Cursor} {b : β} (h : (r >>= f) c = some (b, stop)) :
    ∃ a next, r c = some (a, next) ∧ f a next = some (b, stop) := by
  obtain ⟨⟨a, next⟩, hread, hmore⟩ := Option.bind_eq_some_iff.1 h
  exact ⟨a, next, hread, hmore⟩

theorem orElse_apply (r r' : Reader α) (c : Cursor) : (r <|> r') c = (r c <|> r' c) := rfl

/-- A choice succeeds by one of its parts. -/
theorem orElse_cases {r' : Reader α} {c stop : Cursor} {a : α} (h : (r <|> r') c = some (a, stop)) :
    r c = some (a, stop) ∨ r' c = some (a, stop) := by
  rw [orElse_apply, Option.orElse_eq_orElse, Option.orElse_eq_or] at h
  exact (Option.or_eq_some_iff.1 h).imp_right And.right

theorem Reads.orElse_left {r' : Reader α} (h : Reads r text rest P) :
    Reads (r <|> r') text rest P := by
  intro position imports
  obtain ⟨a, ha, hread⟩ := h position imports
  refine ⟨a, ha, ?_⟩
  rw [orElse_apply, hread]
  rfl

theorem Reads.orElse_right {r' : Reader α} (h : Fails r (text ++ rest))
    (h' : Reads r' text rest P) : Reads (r <|> r') text rest P := by
  intro position imports
  obtain ⟨a, ha, hread⟩ := h' position imports
  refine ⟨a, ha, ?_⟩
  rw [orElse_apply, h position imports, hread]
  rfl

theorem Fails.orElse {r' : Reader α} (h : Fails r s) (h' : Fails r' s) : Fails (r <|> r') s := by
  intro position imports
  rw [orElse_apply, h position imports, h' position imports]
  rfl

theorem fails_failure : Fails (failure : Reader α) s := fun _ _ => rfl

theorem reads_check {condition : Bool} (h : condition = true) :
    Reads (check condition) [] rest fun _ => True := by
  rw [check, if_pos h]
  exact Reads.pure trivial

theorem fails_check {condition : Bool} (h : condition = false) : Fails (check condition) s := by
  rw [check, h]
  exact fails_failure

/-! ## Repetitions -/

theorem Reads.maybe_some (h : Reads r text rest P) :
    Reads (maybe r) text rest fun a? => ∃ a, a? = some a ∧ P a :=
  Reads.orElse_left (h.map fun a ha => ⟨a, rfl, ha⟩)

theorem Reads.maybe_none (h : Fails r rest) : Reads (maybe r) [] rest fun a? => a? = none :=
  Reads.orElse_right h.map (Reads.pure rfl)

/-- What may be there and is not leaves it to the next reader to fail. -/
theorem Fails.maybe_bind {f : Option α → Reader β} (h : Fails r s) (hf : Fails (f none) s) :
    Fails (maybe r >>= f) s :=
  Fails.nil_bind (Reads.maybe_none h) fun _ ha => ha ▸ hf

theorem Reads.manyWithin_nil (bound : Nat) (h : Fails r rest) :
    Reads (manyWithin bound r) [] rest fun items => items = [] := by
  cases bound with
  | zero => exact Reads.pure rfl
  | succ bound =>
    refine Reads.nil_bind (Reads.maybe_none h) ?_
    rintro _ rfl
    exact Reads.pure rfl

theorem Reads.manyWithin_cons {bound : Nat} {R : List α → Prop}
    (h : Reads r text (more ++ rest) P) (hmore : Reads (manyWithin bound r) more rest R) :
    Reads (manyWithin (bound + 1) r) (text ++ more) rest
      fun items => ∃ a others, items = a :: others ∧ P a ∧ R others := by
  refine Reads.bind (Reads.maybe_some h) ?_
  rintro _ ⟨a, rfl, ha⟩
  refine Reads.bind_nil hmore ?_
  intro others hothers
  exact Reads.pure ⟨a, others, rfl, ha, hothers⟩

theorem Fails.manyWithin_bind {f : List α → Reader β} {bound : Nat} (h : Fails r s)
    (hf : Fails (f []) s) : Fails (manyWithin bound r >>= f) s :=
  Fails.nil_bind (Reads.manyWithin_nil bound h) fun _ ha => ha ▸ hf

end

/-! ## Blanks and comments -/

/-- A text of blanks and comments, each comment with its end. -/
inductive IsTrivia : List Char → Prop where
  | nil : IsTrivia []
  | blank {c : Char} {more : List Char} (hc : isSpace c = true) (h : IsTrivia more) :
      IsTrivia (c :: more)
  | line {body more : List Char} {c : Char} (hbody : ∀ d ∈ body, isLineEnd d = false)
      (hc : isLineEnd c = true) (h : IsTrivia more) : IsTrivia ('/' :: '/' :: (body ++ c :: more))
  | block {body more : List Char} (hbody : ¬ ['*', '/'] <:+: body) (h : IsTrivia more) :
      IsTrivia ('/' :: '*' :: (body ++ '*' :: '/' :: more))

/-- No blank and no comment stands in front. -/
def IsToken (s : List Char) : Prop := ∀ c ∈ s.head?, isSpace c = false ∧ c ≠ '/'

/-- The text from the next token on. -/
def upcoming (s : List Char) : List Char := (triviaOf s).rest

theorem isToken_nil : IsToken [] := by
  intro c hc
  cases hc

theorem isToken_cons {c : Char} {s : List Char} (hspace : isSpace c = false) (hc : c ≠ '/') :
    IsToken (c :: s) := by
  rintro d ⟨⟩
  exact ⟨hspace, hc⟩

theorem skipFrom_of_isToken {s : List Char} (h : IsToken s) (n : Nat) (newline comment : Bool) :
    skipFrom .blanks n newline comment s = ⟨n, newline, comment, s⟩ := by
  cases s with
  | nil => rfl
  | cons c rest =>
    obtain ⟨hspace, hc⟩ := h c rfl
    rw [skipFrom]
    · rw [hspace]
      rfl
    · rintro rest' ⟨⟩
      exact absurd rfl hc
    · rintro rest' ⟨⟩
      exact absurd rfl hc

theorem skipFrom_line {body rest : List Char} {c : Char}
    (hbody : ∀ d ∈ body, isLineEnd d = false) (hc : isLineEnd c = true) (n : Nat)
    (newline comment : Bool) :
    skipFrom .lineComment n newline comment (body ++ c :: rest) =
      skipFrom .blanks (n + body.length + 1) true comment rest := by
  induction body generalizing n with
  | nil =>
    rw [List.nil_append, skipFrom, if_pos hc]
    rfl
  | cons d more ih =>
    have hd := hbody d List.mem_cons_self
    rw [List.cons_append, skipFrom, hd, if_neg Bool.false_ne_true,
      ih fun e he => hbody e (List.mem_cons_of_mem _ he), List.length_cons]
    congr 1
    omega

theorem skipFrom_block {body rest : List Char} (hbody : ¬ ['*', '/'] <:+: body) (n : Nat)
    (newline comment : Bool) :
    skipFrom .blockComment n newline comment (body ++ '*' :: '/' :: rest) =
      skipFrom .blanks (n + body.length + 2) newline comment rest := by
  induction body generalizing n with
  | nil =>
    rw [List.nil_append, skipFrom]
    rfl
  | cons d more ih =>
    have hmore : ¬ ['*', '/'] <:+: more := fun h => hbody (h.trans (List.infix_cons (List.infix_refl _)))
    rw [List.cons_append, skipFrom, ih hmore, List.length_cons]
    · congr 1
      omega
    · -- the comment does not end here: what follows is in the body or is the star of its end
      rintro tail rfl htail
      cases more with
      | nil => cases htail
      | cons e others =>
        obtain ⟨rfl, -⟩ := List.cons.inj htail
        exact hbody ⟨[], others, rfl⟩

/-- Blanks and comments are walked over up to the next token. -/
theorem skipFrom_append {gap s : List Char} (hgap : IsTrivia gap) (hs : IsToken s) (n : Nat)
    (newline comment : Bool) : ∃ newline' comment',
      skipFrom .blanks n newline comment (gap ++ s) = ⟨n + gap.length, newline', comment', s⟩ := by
  induction hgap generalizing n newline comment with
  | nil => exact ⟨newline, comment, skipFrom_of_isToken hs n newline comment⟩
  | @blank c more hc _ ih =>
    obtain ⟨newline', comment', hskip⟩ := ih (n + 1) (newline || isLineEnd c) comment
    refine ⟨newline', comment', ?_⟩
    have hslash : c ≠ '/' := by
      rintro rfl
      exact absurd hc (by decide)
    rw [List.cons_append, skipFrom, if_pos hc, hskip, List.length_cons]
    · congr 1
      omega
    · rintro rest' ⟨⟩
      exact absurd rfl hslash
    · rintro rest' ⟨⟩
      exact absurd rfl hslash
  | @line body more c hbody hc _ ih =>
    obtain ⟨newline', comment', hskip⟩ := ih (n + 2 + body.length + 1) true true
    refine ⟨newline', comment', ?_⟩
    have hassoc : ('/' :: '/' :: (body ++ c :: more)) ++ s = '/' :: '/' :: (body ++ c :: (more ++ s)) := by
      simp
    rw [hassoc, skipFrom, skipFrom_line hbody hc, hskip]
    congr 1
    simp only [List.length_cons, List.length_append]
    omega
  | @block body more hbody _ ih =>
    obtain ⟨newline', comment', hskip⟩ := ih (n + 2 + body.length + 2) newline true
    refine ⟨newline', comment', ?_⟩
    have hassoc : ('/' :: '*' :: (body ++ '*' :: '/' :: more)) ++ s =
        '/' :: '*' :: (body ++ '*' :: '/' :: (more ++ s)) := by simp
    rw [hassoc, skipFrom, skipFrom_block hbody, hskip]
    congr 1
    simp only [List.length_cons, List.length_append]
    omega

theorem upcoming_append {gap s : List Char} (hgap : IsTrivia gap) (hs : IsToken s) :
    upcoming (gap ++ s) = s := by
  obtain ⟨newline, comment, hskip⟩ := skipFrom_append hgap hs 0 false false
  rw [upcoming, triviaOf, hskip]

theorem upcoming_of_isToken {s : List Char} (hs : IsToken s) : upcoming s = s :=
  upcoming_append .nil hs

theorem reads_skipTrivia {gap rest : List Char} (hgap : IsTrivia gap) (hrest : IsToken rest) :
    Reads skipTrivia gap rest fun _ => True := by
  intro position imports
  obtain ⟨newline, comment, hskip⟩ := skipFrom_append hgap hrest 0 false false
  refine ⟨triviaOf (gap ++ rest), trivial, ?_⟩
  have htrivia : triviaOf (gap ++ rest) = ⟨gap.length, newline, comment, rest⟩ := by
    rw [triviaOf, hskip, Nat.zero_add]
  show some (triviaOf (gap ++ rest), (⟨(triviaOf (gap ++ rest)).rest,
    position + (triviaOf (gap ++ rest)).size, imports⟩ : Cursor)) = _
  rw [htrivia]

theorem fails_skipTrivia_bind {f : Trivia → Reader α} {s : List Char}
    (h : ∀ trivia, Fails (f trivia) (upcoming s)) : Fails (skipTrivia >>= f) s := by
  intro position imports
  exact h (triviaOf s) (position + (triviaOf s).size) imports

/-! ## Tokens -/

section

variable {gap rest s : List Char} {w : String}

theorem reads_exactly {chars : List Char} (hw : w.toList = chars) (rest : List Char) :
    Reads (exactly w) chars rest fun _ => True := by
  intro position imports
  have hdrop : Text.dropStart? w.toList (chars ++ rest) = some rest :=
    Text.dropStart?_eq_some_iff.2 (by rw [hw])
  have hlength : w.length = chars.length := by rw [← hw, String.length_toList]
  refine ⟨(), trivial, ?_⟩
  unfold exactly
  simp only [hdrop, hlength]

theorem fails_exactly (h : Text.dropStart? w.toList s = none) : Fails (exactly w) s := by
  intro position imports
  unfold exactly
  simp only [h]

theorem reads_symbol {chars : List Char} (hw : w.toList = chars) (hgap : IsTrivia gap)
    (htoken : IsToken (chars ++ rest)) : Reads (symbol w) (gap ++ chars) rest fun _ => True :=
  Reads.bind (reads_skipTrivia hgap htoken) fun _ _ => reads_exactly hw rest

theorem fails_symbol (h : Text.dropStart? w.toList (upcoming s) = none) : Fails (symbol w) s :=
  fails_skipTrivia_bind fun _ => fails_exactly h

theorem fails_keyword (h : Text.dropStart? w.toList (upcoming s) = none) : Fails (keyword w) s :=
  Fails.bind (fails_symbol h)

/-- A reader that looks at the text ahead goes on with what it sees. -/
theorem Reads.get_bind {f : Cursor → Reader α} {text : List Char} {P : α → Prop}
    (h : ∀ c : Cursor, c.rest = text ++ rest → Reads (f c) text rest P) :
    Reads (get >>= f) text rest P :=
  fun position imports => h ⟨text ++ rest, position, imports⟩ rfl position imports

theorem Fails.get_bind {f : Cursor → Reader α}
    (h : ∀ c : Cursor, c.rest = s → Fails (f c) s) : Fails (get >>= f) s :=
  fun position imports => h ⟨s, position, imports⟩ rfl position imports

theorem reads_here : Reads here [] rest fun c => c.rest = rest :=
  fun position imports => ⟨⟨rest, position, imports⟩, rfl, rfl⟩

theorem reads_nextChar? : Reads nextChar? [] rest fun c? => c? = (upcoming rest).head? :=
  fun _ _ => ⟨(upcoming rest).head?, rfl, rfl⟩

theorem reads_newlineAhead : Reads newlineAhead [] rest fun _ => True :=
  fun _ _ => ⟨(triviaOf rest).newline, trivial, rfl⟩

theorem fails_check_bind {f : Unit → Reader α} {condition : Bool} (h : Fails (f ()) s) :
    Fails (check condition >>= f) s := by
  cases condition with
  | false => exact Fails.bind (fails_check rfl)
  | true => exact Fails.nil_bind (reads_check rfl) fun _ _ => h

theorem advance_append (text rest : List Char) (position : Nat) (imports : List String) :
    Cursor.advance ⟨text ++ rest, position, imports⟩ text.length =
      ⟨rest, position + text.length, imports⟩ := by
  simp [Cursor.advance]

/-- A reader that looks at the text ahead and moves over all of it takes the text. -/
theorem Reads.get_advance {f : Cursor → Reader α} {text : List Char} {P : α → Prop} {a : α}
    (h : ∀ c : Cursor, c.rest = text ++ rest →
      f c = (do set (c.advance text.length); Pure.pure a)) (ha : P a) :
    Reads (get >>= f) text rest P := by
  intro position imports
  refine ⟨a, ha, ?_⟩
  show f ⟨text ++ rest, position, imports⟩ ⟨text ++ rest, position, imports⟩ = _
  rw [h _ rfl, advance_append]
  rfl

/-- The same where no blank and no comment comes first. -/
theorem reads_symbol_token {chars : List Char} (hw : w.toList = chars)
    (htoken : IsToken (chars ++ rest)) : Reads (symbol w) chars rest fun _ => True := by
  have hread := reads_symbol hw .nil htoken
  rwa [List.nil_append] at hread

theorem reads_symbolNot_token {chars followers : List Char} (hw : w.toList = chars)
    (htoken : IsToken (chars ++ rest)) (hnext : ∀ c ∈ rest.head?, c ∉ followers) :
    Reads (symbolNot w followers) chars rest fun _ => True := by
  refine Reads.bind_nil (reads_symbol_token hw htoken) fun _ _ => ?_
  have hcheck : (!(rest.head?.any followers.contains)) = true := by
    cases rest with
    | nil => rfl
    | cons c t => simpa using hnext c rfl
  intro position imports
  exact reads_check hcheck position imports

theorem Reads.captured {text : List Char} {r : Reader (String → α)} {P : α → Prop}
    (hgap : IsTrivia gap) (htext : IsToken (text ++ rest))
    (h : Reads r text rest fun build => P (build (String.ofList text))) :
    Reads (captured r) (gap ++ text) rest P := by
  refine Reads.bind (reads_skipTrivia hgap htext) fun _ _ => ?_
  intro position imports
  obtain ⟨build, hbuild, hread⟩ := h position imports
  have hspan : Cursor.textTo ⟨text ++ rest, position, imports⟩
      ⟨rest, position + text.length, imports⟩ = String.ofList text := by
    simp [Cursor.textTo]
  refine ⟨build (String.ofList text), hbuild, ?_⟩
  show (r ⟨text ++ rest, position, imports⟩ >>= fun p =>
    some (p.1 (Cursor.textTo ⟨text ++ rest, position, imports⟩ p.2), p.2)) = _
  rw [hread]
  exact congrArg (fun t => some (build t, _)) hspan

/-- The same where no blank and no comment comes first. -/
theorem Reads.captured_token {text : List Char} {r : Reader (String → α)} {P : α → Prop}
    (htext : IsToken (text ++ rest))
    (h : Reads r text rest fun build => P (build (String.ofList text))) :
    Reads (Script.captured r) text rest P := by
  have hread := Reads.captured .nil htext h
  rwa [List.nil_append] at hread

theorem Fails.captured {r : Reader (String → α)} (h : Fails r (upcoming s)) :
    Fails (captured r) s := by
  refine fails_skipTrivia_bind fun _ => ?_
  intro position imports
  show (r ⟨upcoming s, position, imports⟩ >>= fun p => _) = none
  rw [h position imports]
  rfl

end

end StoryRegistry.Script
