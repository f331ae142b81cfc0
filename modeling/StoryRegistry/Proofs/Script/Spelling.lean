import StoryRegistry.Proofs.Script.Quoted
import StoryRegistry.Proofs.Script.Sequence
import StoryRegistry.Proofs.Table

/-!
# Spelled values

A plain value can be written as an expression in many ways (`Spells`): its texts and numbers are
spelled as literals, and blanks, comments and a last comma may stand among its parts. Whatever the
spelling, a reader deep enough for the nesting reads the expression, and the value of what it reads
is the spelled one (`reads_of_spells`).

The main lemma is an induction on the length of the spelling: each part of a list or map is shorter
than the whole, and two levels of the grammar are enough to come from the whole to a part.
-/

set_option autoImplicit false

namespace StoryRegistry.Script

variable {g : Grammar} {gap text rest s : List Char}

/-! ## Texts and numbers -/

/-- The character quotes a text that is no template. -/
def plainQuotes : List Char := ['"', '\x27']

/-- The text spells a text in single or double quotes. -/
inductive SpellsString (v : List Char) : List Char → Prop where
  | quoted {quote : Char} {t : List Char} (hquote : quote ∈ plainQuotes)
      (h : SpellsChars quote v t) : SpellsString v (quote :: (t ++ [quote]))

theorem isToken_of_mem {c : Char} {heads : List Char} (hc : c ∈ heads)
    (hheads : heads.all (fun c => !isSpace c && c != '/') = true) : IsToken (c :: s) :=
  isToken_of_head (by rintro d ⟨⟩; exact hc) hheads

theorem reads_stringLiteral {v : List Char} (hgap : IsTrivia gap) (h : SpellsString v text) :
    Reads stringLiteral (gap ++ text) rest fun e =>
      ∃ source pieces, e = .string source pieces ∧ pieces.flatMap Piece.decode = v := by
  obtain @⟨quote, t, hquote, h⟩ := h
  have hquotes : ∀ q ∈ plainQuotes, q ∈ quotes ∧ q ≠ '\\' ∧ q ≠ '\x60' ∧
      (q == '"' || q == '\x27') = true := List.all_iff_forall_prop.1 (by decide)
  obtain ⟨hmem, hslash, htemplate, hcheck⟩ := hquotes quote hquote
  refine Reads.captured hgap (isToken_of_mem hquote (by decide +kernel)) ?_
  have hassoc : quote :: (t ++ [quote]) ++ rest = quote :: (t ++ quote :: rest) := by simp
  have hfuel : t.length < (t ++ quote :: rest).length + 1 := by
    rw [List.length_append]
    omega
  obtain ⟨pieces, hread, hdecode⟩ := readQuoted_of_cut hslash htemplate (h.cut hmem) rest hfuel
  refine Reads.get_advance (a := fun source => .string source pieces) ?_ ⟨_, pieces, rfl, hdecode⟩
  intro c hc
  have hlength : (quote :: (t ++ [quote])).length = t.length + 1 + 1 := by simp
  rw [hc, hassoc, hlength]
  dsimp only
  rw [hread, hcheck]
  rfl

theorem reads_templateRest {v t : List Char} {inside : Reader Unit} (h : SpellsChars '\x60' v t) :
    Reads (templateRest g inside) (t ++ ['\x60']) rest fun found =>
      ∃ pieces, found = some pieces ∧ pieces.flatMap Piece.decode = v := by
  have hfuel : t.length < (t ++ '\x60' :: rest).length + 1 := by
    rw [List.length_append]
    omega
  obtain ⟨pieces, hread, hdecode⟩ := readTemplate_of_cut (h.cut (by decide)) rest hfuel
  have hclose : Reads (exactly "\x60") ['\x60'] rest fun _ => True := reads_exactly rfl rest
  unfold templateRest
  refine Reads.bind (P := fun found => found = pieces) (Reads.get_advance ?_ rfl) ?_
  · intro c hc
    have hchars : c.rest = t ++ '\x60' :: rest := by rw [hc, List.singleton_append]
    rw [hchars, hread]
  · rintro _ rfl
    refine Reads.nil_bind (Reads.manyWithin_nil g.bound (Fails.bind (fails_exactly rfl))) ?_
    rintro _ rfl
    refine Reads.bind_nil hclose fun _ _ => ?_
    exact Reads.pure ⟨_, rfl, hdecode⟩

theorem reads_templateLiteral {v t : List Char} (h : SpellsChars '\x60' v t) :
    Reads (templateLiteral g) ('\x60' :: (t ++ ['\x60'])) rest fun e =>
      ∃ source pieces, e = .template source pieces ∧ pieces.flatMap Piece.decode = v := by
  have hopen : Reads (exactly "\x60") ['\x60'] (t ++ ['\x60'] ++ rest) fun _ => True :=
    reads_exactly rfl _
  refine Reads.captured_token (isToken_cons (by decide) (by decide)) ?_
  refine Reads.bind hopen fun _ _ => Reads.bind_nil (reads_templateRest h) ?_
  rintro _ ⟨pieces, rfl, hdecode⟩
  exact Reads.pure ⟨_, pieces, rfl, hdecode⟩

theorem head_of_spellsNumber {n : Nat} (h : SpellsNumber n text) :
    ∃ c more, text = c :: more ∧ c.isDigit = true := by
  cases h with
  | decimal hfirst _ _ h =>
    cases text with
    | nil => exact absurd rfl h.1
    | cons c more =>
      refine ⟨c, more, rfl, ?_⟩
      rcases mem_digitsOf_or (List.mem_cons_self (a := c) (l := more)) with hin | hunder
      · obtain ⟨k, hk⟩ := h.exists_isDigit c hin
        exact isDigit_of_isDecimal hk
      · exact absurd hunder (hfirst c rfl)
  | based => exact ⟨'0', _, rfl, rfl⟩

theorem isToken_of_isDigit {c : Char} (h : c.isDigit = true) : IsToken (c :: s) := by
  have hname := isNameChar_of_isAlphanum (Text.isAlphanum_of_isDigit h)
  refine isToken_cons ?_ ?_
  · cases hspace : isSpace c with
    | false => rfl
    | true => exact absurd (hname.symm.trans (isNameChar_of_isSpace hspace)) (by decide)
  · rintro rfl
    exact absurd h (by decide)

theorem reads_numberLiteral {n : Nat} (h : SpellsNumber n text) (hrest : Closes rest) :
    Reads numberLiteral text rest fun e => e = .number (String.ofList text) := by
  obtain ⟨c, more, rfl, hdigit⟩ := head_of_spellsNumber h
  refine Reads.captured_token (isToken_of_isDigit hdigit) ?_
  refine Reads.get_advance (a := fun source => .number source) ?_ rfl
  intro c' hc
  rw [hc, numberSize_of_spells h hrest.endsNumber]
  simp [check]

/-! ## Values -/

/-- The text spells the key of a member: as a plain name or as a text. -/
inductive SpellsKey : String → List Char → Prop where
  | name {text : List Char} (h : IsName text) : SpellsKey (String.ofList text) text
  | string {v text : List Char} (h : SpellsString v text) : SpellsKey (String.ofList v) text

/-- The text spells a member of an object, given how values are spelled. -/
inductive SpellsMember (spells : Value → List Char → Prop) : String × Value → List Char → Prop where
  | pair {key : String} {v : Value} {keyText gap between text : List Char}
      (hkey : SpellsKey key keyText) (hgap : IsTrivia gap) (hbetween : IsTrivia between)
      (h : spells v text) : SpellsMember spells (key, v) (keyText ++ (gap ++ ':' :: (between ++ text)))

/-- The text spells the value as an expression. -/
inductive Spells : Value → List Char → Prop where
  | null : Spells .null "null".toList
  | bool (b : Bool) : Spells (.bool b) (if b then "true" else "false").toList
  | number {n : Nat} {text : List Char} (h : SpellsNumber n text) : Spells (.int n) text
  | positive {n : Nat} {gap text : List Char} (hgap : IsTrivia gap) (h : SpellsNumber n text) :
      Spells (.int n) ('+' :: (gap ++ text))
  | negative {n : Nat} {gap text : List Char} (hgap : IsTrivia gap) (h : SpellsNumber n text) :
      Spells (.int (-n)) ('-' :: (gap ++ text))
  | string {v text : List Char} (h : SpellsString v text) : Spells (.string (String.ofList v)) text
  | template {v t : List Char} (h : SpellsChars '\x60' v t) :
      Spells (.string (String.ofList v)) ('\x60' :: (t ++ ['\x60']))
  | list {items : List Value} {content : List Char} (h : Listed Spells items content) :
      Spells (.list items) ('[' :: (content ++ [']']))
  | map {entries : List (String × Value)} {content : List Char}
      (hkeys : (Table.names entries).Nodup) (h : Listed (SpellsMember Spells) entries content) :
      Spells (.map entries) ('\x7b' :: (content ++ ['\x7d']))

namespace Closes

theorem stringLiteral (h : Closes s) : Fails stringLiteral s := by
  refine Fails.captured (Fails.get_bind fun c hc => ?_)
  rw [hc]
  have hhead := h.next
  cases hs : Script.upcoming s with
  | nil => exact fails_failure
  | cons quote more =>
    have hall : ∀ d ∈ closers, (d == '"' || d == '\x27') = false :=
      List.all_iff_forall_prop.1 (by decide)
    exact Fails.bind (fails_check (hall quote (hhead quote (by rw [hs]; rfl))))

theorem numberSize_eq_zero (h : ∀ c ∈ s.head?, c ∈ closers) : numberSize s = 0 := by
  cases s with
  | nil => rfl
  | cons c s =>
    have hc := h c rfl
    simp only [closers, List.mem_cons, List.not_mem_nil, or_false] at hc
    rcases hc with rfl | rfl | rfl | rfl | rfl <;> rfl

theorem numberLiteral (h : Closes s) : Fails numberLiteral s := by
  refine Fails.captured (Fails.get_bind fun c hc => Fails.bind (fails_check ?_))
  rw [hc, numberSize_eq_zero h.next]
  rfl

theorem propertyName (h : Closes s) : Fails (propertyName g) s := by
  refine Fails.orElse (Fails.map (h.word g.bound)) ?_
  refine Fails.orElse (Fails.bind h.stringLiteral) ?_
  refine Fails.orElse (Fails.bind h.numberLiteral) ?_
  refine Fails.orElse (Fails.bind (Fails.bind (h.symbol (by decide)))) ?_
  exact Fails.bind (h.symbol (by decide))

theorem objectMember (h : Closes s) : Fails (objectMember g) s := by
  have hmodifier : Fails (modifier methodModifiers) (Script.upcoming s) := by
    refine Fails.bind (fails_oneOf fun w hw => h.upcoming.keyword ?_)
    have hall : ∀ w ∈ methodModifiers, beginsOff closers w = true := by decide
    exact hall w hw
  refine Fails.orElse (Fails.bind (h.symbol (by decide))) ?_
  refine Fails.orElse (Fails.bind h.propertyName) (Fails.orElse (Fails.captured ?_) ?_)
  · refine Fails.manyWithin_bind hmodifier (Fails.maybe_bind (h.upcoming.symbol (by decide)) ?_)
    exact Fails.bind h.upcoming.propertyName
  · exact Fails.bind (fails_name (h.word g.bound))

theorem argument (h : Closes s) (hstop : ∀ s, Closes s → Fails (g.assignment .brackets) s) :
    Fails (argument g) s :=
  Fails.captured (Fails.maybe_bind (h.upcoming.symbol (by decide)) (Fails.bind (hstop _ h.upcoming)))

end Closes

/-! ### Members -/

theorem beginsPart_of_spellsKey {key : String} (h : SpellsKey key text) : BeginsPart text := by
  cases h with
  | name h =>
    cases text with
    | nil => exact absurd rfl h.1
    | cons c text =>
      have hc := h.2.1 c List.mem_cons_self
      have htoken : IsToken (c :: text ++ []) := isToken_of_isName h
      obtain ⟨hspace, hslash⟩ := htoken c rfl
      refine ⟨c, text, rfl, hspace, hslash, ?_, ?_⟩
      · rintro rfl
        exact absurd hc (by decide)
      · rintro rfl
        exact absurd hc (by decide)
  | string h =>
    obtain @⟨quote, t, hquote, -⟩ := h
    have hall : ∀ c ∈ plainQuotes, isSpace c = false ∧ c ≠ '/' ∧ c ≠ ',' ∧ c ≠ '.' :=
      List.all_iff_forall_prop.1 (by decide)
    exact ⟨quote, _, rfl, hall quote hquote⟩

theorem beginsPart_of_spellsMember {spells : Value → List Char → Prop} {entry : String × Value}
    (h : SpellsMember spells entry text) : BeginsPart text := by
  obtain ⟨hkey, -, -, -⟩ := h
  exact (beginsPart_of_spellsKey hkey).append

theorem reads_propertyName {key : String} (hbound : 0 < g.bound) (hgap : IsTrivia gap)
    (h : SpellsKey key text) (hrest : EndsWord rest) :
    Reads (propertyName g) (gap ++ text) rest fun found => found = some key := by
  cases h with
  | name h =>
    refine Reads.orElse_left ((reads_word hbound hgap h hrest).map ?_)
    rintro _ rfl
    rfl
  | string h =>
    refine Reads.orElse_right (Fails.map (fails_word ?_)) (Reads.orElse_left ?_)
    · have hquotes : ∀ q ∈ plainQuotes, isNameChar q = false ∧ q ≠ '\\' :=
        List.all_iff_forall_prop.1 (by decide)
      obtain @⟨quote, t, hquote, -⟩ := h
      have htoken : IsToken (quote :: (t ++ [quote]) ++ rest) :=
        isToken_of_mem hquote (by decide +kernel)
      rw [List.append_assoc, upcoming_append hgap htoken]
      rintro c ⟨⟩
      exact Or.inr (hquotes quote hquote)
    · refine Reads.bind_nil (reads_stringLiteral hgap h) ?_
      rintro _ ⟨source, pieces, rfl, hdecode⟩
      refine Reads.pure ?_
      rw [decodePieces, hdecode]

/-- A member of an object is read with its key, if its value is read. -/
theorem reads_objectMember {Q : Value → Expr → Prop} {spells : Value → List Char → Prop}
    {entry : String × Value} (hbound : 0 < g.bound) (h : SpellsMember spells entry text)
    (hread : ∀ v valueText, spells v valueText → valueText.length ≤ text.length → ∀ gap,
      IsTrivia gap → Reads (g.assignment .brackets) (gap ++ valueText) rest (Q v))
    (hgap : IsTrivia gap) :
    Reads (objectMember g) (gap ++ text) rest fun found =>
      ∃ e, found = some (entry.1, e) ∧ Q entry.2 e := by
  obtain @⟨key, v, keyText, space, between, valueText, hkey, hspace, hbetween, hvalue⟩ := h
  have hsize : valueText.length ≤
      (keyText ++ (space ++ ':' :: (between ++ valueText))).length := by
    simp only [List.length_append, List.length_cons]
    omega
  have hbegins := beginsPart_of_spellsKey hkey
  have hends : EndsWord (space ++ [':'] ++ (between ++ valueText) ++ rest) := by
    unfold EndsWord
    rw [List.append_assoc, List.append_assoc]
    refine head?_gap_append hspace (by rintro c ⟨⟩; decide) ?_ (by decide)
    intro c hc
    refine ⟨isNameChar_of_isSpace hc, ?_⟩
    rintro rfl
    exact absurd hc (by decide)
  have hcolon : Reads (symbol ":") (space ++ [':']) (between ++ valueText ++ rest) fun _ => True :=
    reads_symbol rfl hspace (isToken_cons (by decide) (by decide))
  have hassoc : gap ++ (keyText ++ (space ++ ':' :: (between ++ valueText))) =
      gap ++ keyText ++ (space ++ [':'] ++ (between ++ valueText)) := by simp
  have hspread : Fails (symbol "...")
      (gap ++ keyText ++ (space ++ [':'] ++ (between ++ valueText)) ++ rest) := by
    rw [List.append_assoc, List.append_assoc]
    exact hbegins.append.fails_spread hgap
  rw [hassoc]
  refine Reads.orElse_right (Fails.bind hspread) (Reads.orElse_left ?_)
  refine Reads.bind (reads_propertyName hbound hgap hkey hends) ?_
  rintro _ rfl
  refine Reads.bind hcolon fun _ _ => ?_
  refine Reads.bind_nil (hread v valueText hvalue hsize between hbetween) fun e he => ?_
  exact Reads.pure ⟨e, rfl, he⟩

/-! ### Expressions -/

theorem mem_literalWords (b : Bool) : (if b then "true" else "false") ∈ literalWords := by
  cases b <;> decide

theorem mem_marks_of_isDigit {c : Char} (h : c.isDigit = true) :
    c ∈ "\"\x27\x600123456789+-[\x7b".toList := by
  have hall : ∀ n < 128, (Char.ofNat n).isDigit = true →
      Char.ofNat n ∈ "\"\x27\x600123456789+-[\x7b".toList := by decide +kernel
  have hc := hall c.toNat (Text.toNat_lt_of_isAlphanum (Text.isAlphanum_of_isDigit h))
  rw [Char.ofNat_toNat] at hc
  exact hc h

/-- A spelled value opens like a literal, and only a signed one with a sign. -/
theorem opens_of_spells {v : Value} (h : Spells v text) (hrest : Closes rest) :
    Opens (text ++ rest) := by
  cases h with
  | null => exact opens_of_word (by decide) hrest.endsWord
  | bool b => exact opens_of_word (mem_literalWords b) hrest.endsWord
  | number h =>
    obtain ⟨c, more, rfl, hdigit⟩ := head_of_spellsNumber h
    exact opens_of_mark (mem_marks_of_isDigit hdigit)
  | positive => exact opens_of_mark (by decide)
  | negative => exact opens_of_mark (by decide)
  | string h =>
    obtain @⟨quote, t, hquote, -⟩ := h
    have hall : ∀ q ∈ plainQuotes, q ∈ "\"\x27\x600123456789+-[\x7b".toList :=
      List.all_iff_forall_prop.1 (by decide)
    exact opens_of_mark (hall quote hquote)
  | template => exact opens_of_mark (by decide)
  | list => exact opens_of_mark (by decide)
  | map => exact opens_of_mark (by decide)

theorem ne_nil_of_spells {v : Value} (h : Spells v text) : text ≠ [] := by
  cases h with
  | null => decide
  | bool b => cases b <;> decide
  | number h =>
    obtain ⟨c, more, rfl, -⟩ := head_of_spellsNumber h
    exact List.cons_ne_nil c more
  | string h =>
    cases h
    exact List.cons_ne_nil _ _
  | _ => exact List.cons_ne_nil _ _

theorem beginsPart_of_spells {v : Value} (h : Spells v text) : BeginsPart text := by
  have hends : Closes ([] ++ []) := closes_append .nil (by simp)
  have hopens : Opens (text ++ []) := opens_of_spells h hends
  have hall : ∀ c ∈ literalHeads, isSpace c = false ∧ c ≠ '/' ∧ c ≠ ',' ∧ c ≠ '.' :=
    List.all_iff_forall_prop.1 (by decide +kernel)
  cases text with
  | nil => exact absurd rfl (ne_nil_of_spells h)
  | cons c more => exact ⟨c, more, rfl, hall c (hopens.head c rfl)⟩

/-- The reader has found an expression with the value. -/
def HasValue (v : Value) (e : Expr) : Prop := e.value = v

theorem values_eq {items : List Value} {found : List Expr} (h : List.Forall₂ HasValue items found) :
    Expr.values found = items := by
  induction h with
  | nil => rfl
  | cons hhead _ ih => rw [Expr.values, hhead, ih]

theorem entries_eq {entries : List (String × Value)} {found : List (Option (String × Expr))}
    (h : List.Forall₂ (fun entry found => ∃ e, found = some (entry.1, e) ∧ HasValue entry.2 e)
      entries found) : Expr.entries (found.filterMap id) = entries := by
  induction h with
  | nil => rfl
  | @cons entry _ _ _ hhead _ ih =>
    obtain ⟨e, rfl, he⟩ := hhead
    rw [List.filterMap_cons]
    show (entry.1, e.value) :: Expr.entries _ = _
    rw [he, ih]

section

variable {v : Value}
  (hstop : ∀ s, Closes s → Fails (g.assignment .brackets) s)
  (hread : ∀ v inner, Spells v inner → inner.length < text.length → ∀ gap rest, IsTrivia gap →
    Closes rest → Reads (g.assignment .brackets) (gap ++ inner) rest (HasValue v))

include hstop hread

omit hread in
theorem fails_argument : ∀ s, Closes s → Fails (argument g) s := fun _ hs => hs.argument hstop

omit hstop in
theorem reads_argument {inner : List Char} (h : Spells v inner)
    (hlength : inner.length < text.length) (hgap : IsTrivia gap) (hrest : Closes rest) :
    Reads (argument g) (gap ++ inner) rest (HasValue v) := by
  have hbegins := beginsPart_of_spells h
  have hvalue := hread v inner h hlength [] rest .nil hrest
  have hspread : Fails (symbol "...") ([] ++ (inner ++ rest)) := hbegins.append.fails_spread .nil
  rw [List.nil_append] at hvalue hspread
  refine Reads.captured hgap hbegins.append.isToken ?_
  refine Reads.nil_bind (Reads.maybe_none hspread) ?_
  rintro _ rfl
  refine Reads.bind_nil hvalue fun e he => ?_
  exact Reads.pure he

theorem reads_arrayLiteral {items : List Value} {content : List Char}
    (h : Listed Spells items content) (htext : text = '[' :: (content ++ [']']))
    (hbound : text.length < g.bound) :
    Reads (arrayLiteral g) text rest (HasValue (.list items)) := by
  have hsize : text.length = content.length + 2 := by simp [htext]
  have hpart (v : Value) (inner : List Char) (hinner : Spells v inner)
      (hlength : inner.length ≤ content.length) (gap rest : List Char) (hgap : IsTrivia gap)
      (hrest : Closes rest) : Reads (argument g) (gap ++ inner) rest (HasValue v) :=
    reads_argument hread hinner (by omega) hgap hrest
  have hopen : "[".toList = ['['] := rfl
  have hclose : "]".toList = [']'] := rfl
  have htoken : IsToken ['['] := isToken_cons (by decide) (by decide)
  rw [htext]
  refine (reads_brackets hopen htoken hclose (by decide) (fun _ _ => beginsPart_of_spells)
    (fails_argument hstop) hpart h (by omega)).mono ?_
  rintro _ ⟨source, found, rfl, hfound⟩
  show Value.list (Expr.values found) = _
  rw [values_eq hfound]

omit hstop in
theorem reads_objectLiteral {entries : List (String × Value)} {content : List Char}
    (hkeys : (Table.names entries).Nodup)
    (h : Listed (SpellsMember Spells) entries content) (htext : text = '\x7b' :: (content ++ ['\x7d']))
    (hbound : text.length < g.bound) :
    Reads (objectLiteral g) text rest (HasValue (.map entries)) := by
  have hsize : text.length = content.length + 2 := by simp [htext]
  have hpart (entry : String × Value) (member : List Char) (hmember : SpellsMember Spells entry member)
      (hlength : member.length ≤ content.length) (gap rest : List Char) (hgap : IsTrivia gap)
      (hrest : Closes rest) : Reads (objectMember g) (gap ++ member) rest fun found =>
        ∃ e, found = some (entry.1, e) ∧ HasValue entry.2 e := by
    refine reads_objectMember (Nat.zero_lt_of_lt hbound) hmember ?_ hgap
    intro v inner hinner hshort gap hgap
    exact hread v inner hinner (by omega) gap rest hgap hrest
  have hopen : "\x7b".toList = ['\x7b'] := rfl
  have hclose : "\x7d".toList = ['\x7d'] := rfl
  have htoken : IsToken ['\x7b'] := isToken_cons (by decide) (by decide)
  rw [htext]
  refine (reads_brackets hopen htoken hclose (by decide) (fun _ _ => beginsPart_of_spellsMember)
    (fun _ hs => hs.objectMember) hpart h (by omega)).mono ?_
  rintro _ ⟨source, found, rfl, hfound⟩
  show Value.map (Table.ofList (Expr.entries (found.filterMap id))) = _
  rw [entries_eq hfound, Table.ofList_eq_self hkeys]

omit hstop hread in
/-- What begins with a digit is read as a number. -/
theorem reads_digit {c : Char} {more : List Char} {P : Expr → Prop} (hdigit : c.isDigit = true)
    (h : Reads numberLiteral (c :: more) rest P) : Reads (anyPrimary g) (c :: more) rest P := by
  have hall : ∀ n < 128, (Char.ofNat n).isDigit = true → Char.ofNat n ∉
      ['"', '\x27', '\x60', '(', '[', '\x7b', '<', '/', '#', '@'] := by decide +kernel
  have hmark := hall c.toNat (Text.toNat_lt_of_isAlphanum (Text.isAlphanum_of_isDigit hdigit))
  rw [Char.ofNat_toNat] at hmark
  have hmark := hmark hdigit
  simp only [List.mem_cons, List.not_mem_nil, or_false, not_or] at hmark
  refine Reads.nil_bind (reads_skipTrivia .nil (isToken_of_isDigit hdigit)) fun _ _ => ?_
  refine Reads.get_bind fun cursor hcursor => ?_
  rw [hcursor, List.cons_append]
  simp only [beq_iff_eq, hmark, hdigit, if_false, Bool.or_eq_true, or_self, true_or, if_true]
  exact h

omit hstop hread in
/-- The words that are literals are read as what they stand for. -/
theorem reads_literalWord {w : String} (hbound : 0 < g.bound) (hrest : Closes rest)
    (hw : w = "true" ∧ v = .bool true ∨ w = "false" ∧ v = .bool false ∨ w = "null" ∧ v = .null) :
    Reads (anyPrimary g) w.toList rest (HasValue v) := by
  have hmem : w ∈ literalWords := by
    rcases hw with ⟨rfl, -⟩ | ⟨rfl, -⟩ | ⟨rfl, -⟩ <;> decide
  have hname := isName_of_literalWords hmem
  have hopens := opens_of_word hmem hrest.endsWord
  have hfound := reads_word hbound .nil hname hrest.endsWord
  rw [List.nil_append, String.ofList_toList] at hfound
  have hword : Reads (wordExpression g) w.toList rest (HasValue v) := by
    refine Reads.captured_token hopens.isToken (Reads.bind_nil hfound ?_)
    rintro _ rfl
    rcases hw with ⟨rfl, rfl⟩ | ⟨rfl, rfl⟩ | ⟨rfl, rfl⟩ <;> exact Reads.pure rfl
  have hfunction : Fails (functionExpression g) (w.toList ++ rest) := hopens.functionExpression
  have hclass : Fails (captured (classRest g >>= fun _ => pure Expr.other)) (w.toList ++ rest) :=
    Fails.captured (Fails.bind (by rw [hopens.upcoming_eq]; exact hopens.classRest))
  refine Reads.nil_bind (reads_skipTrivia .nil hopens.isToken) fun _ _ => ?_
  refine Reads.get_bind fun cursor hcursor => ?_
  rw [hcursor]
  rcases hw with ⟨rfl, -⟩ | ⟨rfl, -⟩ | ⟨rfl, -⟩ <;>
    exact Reads.orElse_right hfunction (Reads.orElse_right hclass hword)

/-- An unsigned spelled value is read without operators. -/
theorem reads_anyPrimary (h : Spells v text) (hsign : ∀ c ∈ text.head?, c ≠ '+' ∧ c ≠ '-')
    (hbound : text.length < g.bound) (hrest : Closes rest) :
    Reads (anyPrimary g) text rest (HasValue v) := by
  have htoken := (opens_of_spells h hrest).isToken
  have hpositive : 0 < g.bound := Nat.zero_lt_of_lt hbound
  cases h with
  | null => exact reads_literalWord hpositive hrest (Or.inr (Or.inr ⟨rfl, rfl⟩))
  | bool b =>
    refine reads_literalWord hpositive hrest ?_
    cases b
    · exact Or.inr (Or.inl ⟨rfl, rfl⟩)
    · exact Or.inl ⟨rfl, rfl⟩
  | number h =>
    have hliteral := reads_numberLiteral h hrest
    obtain ⟨c, more, rfl, hdigit⟩ := head_of_spellsNumber h
    refine reads_digit hdigit (hliteral.mono ?_)
    rintro _ rfl
    show (numberValue? (String.ofList (c :: more))).getD _ = _
    rw [numberValue?_of_spells h]
    rfl
  | positive => exact absurd rfl (hsign '+' rfl).1
  | negative => exact absurd rfl (hsign '-' rfl).2
  | @string chars _ h =>
    have hvalue : Reads stringLiteral ([] ++ text) rest (HasValue (.string (String.ofList chars))) := by
      refine (reads_stringLiteral .nil h).mono ?_
      rintro _ ⟨source, pieces, rfl, hdecode⟩
      show Value.string (decodePieces pieces) = _
      rw [decodePieces, hdecode]
    obtain @⟨quote, t, hquote, -⟩ := h
    refine Reads.nil_bind (reads_skipTrivia .nil htoken) fun _ _ => ?_
    refine Reads.get_bind fun cursor hcursor => ?_
    rw [hcursor]
    simp only [plainQuotes, List.mem_cons, List.not_mem_nil, or_false] at hquote
    rcases hquote with rfl | rfl <;> exact hvalue
  | @template chars t h =>
    refine Reads.nil_bind (reads_skipTrivia .nil htoken) fun _ _ => ?_
    refine Reads.get_bind fun cursor hcursor => ?_
    rw [hcursor]
    have hvalue : Reads (templateLiteral g) ('\x60' :: (t ++ ['\x60'])) rest
        (HasValue (.string (String.ofList chars))) := by
      refine (reads_templateLiteral h).mono ?_
      rintro _ ⟨source, pieces, rfl, hdecode⟩
      show Value.string (decodePieces pieces) = _
      rw [decodePieces, hdecode]
    exact hvalue
  | @list items content h =>
    refine Reads.nil_bind (reads_skipTrivia .nil htoken) fun _ _ => ?_
    refine Reads.get_bind fun cursor hcursor => ?_
    rw [hcursor]
    exact reads_arrayLiteral hstop hread h rfl hbound
  | @map entries content hkeys h =>
    refine Reads.nil_bind (reads_skipTrivia .nil htoken) fun _ _ => ?_
    refine Reads.get_bind fun cursor hcursor => ?_
    rw [hcursor]
    exact reads_objectLiteral hread hkeys h rfl hbound

end

/-! ### Nesting -/

theorem bound_ofDepth (elements : Bool) (bound depth : Nat) :
    (Grammar.ofDepth elements bound depth).bound = bound := by
  induction depth with
  | zero => rfl
  | succ depth ih => exact ih

theorem reads_unsigned {v : Value} {elements : Bool} {bound depth : Nat} {mode : Mode}
    (h : Spells v text) (hsign : ∀ c ∈ text.head?, c ≠ '+' ∧ c ≠ '-')
    (hread : ∀ v inner, Spells v inner → inner.length < text.length → ∀ gap rest, IsTrivia gap →
      Closes rest → Reads ((Grammar.ofDepth elements bound depth).assignment .brackets)
        (gap ++ inner) rest (HasValue v))
    (hbound : text.length < bound) (hgap : IsTrivia gap) (hrest : Closes rest) :
    Reads (anyUnary (Grammar.ofDepth elements bound (depth + 1)) mode) (gap ++ text) rest
      (HasValue v) := by
  have hstop (s : List Char) (hs : Closes s) :
      Fails ((Grammar.ofDepth elements bound depth).assignment .brackets) s :=
    hs.assignment elements bound depth .brackets
  have hhead : ∀ c ∈ (text ++ rest).head?, c ≠ '+' ∧ c ≠ '-' := by
    cases text with
    | nil => exact absurd rfl (ne_nil_of_spells h)
    | cons c text => exact hsign
  have hfits : text.length < (Grammar.ofDepth elements bound depth).bound := by
    rwa [bound_ofDepth]
  have hprimary := reads_anyPrimary hstop hread h hsign hfits hrest
  exact reads_unary hgap (opens_of_spells h hrest) hhead hprimary hrest

theorem head_digit {n : Nat} (h : SpellsNumber n text) :
    ∀ c ∈ (text ++ rest).head?, c ≠ '+' ∧ c ≠ '-' := by
  obtain ⟨d, more, rfl, hdigit⟩ := head_of_spellsNumber h
  rintro c ⟨⟩
  constructor
  · rintro rfl
    exact absurd hdigit (by decide)
  · rintro rfl
    exact absurd hdigit (by decide)

/-- A spelled value is spelled without a sign, or is a number behind one. -/
theorem unsigned_or_signed {v : Value} (h : Spells v text) :
    (∀ c ∈ text.head?, c ≠ '+' ∧ c ≠ '-') ∨
      ∃ (n : Nat) (space digits : List Char), IsTrivia space ∧ SpellsNumber n digits ∧
        (v = .int n ∧ text = '+' :: (space ++ digits) ∨
          v = .int (-n) ∧ text = '-' :: (space ++ digits)) := by
  cases h with
  | @positive n space digits hspace h =>
    exact Or.inr ⟨n, space, digits, hspace, h, Or.inl ⟨rfl, rfl⟩⟩
  | @negative n space digits hspace h =>
    exact Or.inr ⟨n, space, digits, hspace, h, Or.inr ⟨rfl, rfl⟩⟩
  | bool b =>
    left
    cases b
    all_goals
      rintro c ⟨⟩
      decide
  | number h =>
    have hhead : ∀ c ∈ (text ++ []).head?, c ≠ '+' ∧ c ≠ '-' := head_digit h
    rw [List.append_nil] at hhead
    exact Or.inl hhead
  | string h =>
    obtain @⟨quote, t, hquote, -⟩ := h
    have hall : ∀ q ∈ plainQuotes, q ≠ '+' ∧ q ≠ '-' := List.all_iff_forall_prop.1 (by decide)
    left
    rintro c ⟨⟩
    exact hall quote hquote
  | _ =>
    left
    rintro c ⟨⟩
    decide

/-- A number with a sign is read as the number behind the sign. -/
theorem reads_sign {n : Nat} {c : Char} {w : String} {elements : Bool} {bound depth : Nat}
    {mode : Mode} (hw : w.toList = [c]) (hc : w = "+" ∨ w = "-") (hgap : IsTrivia gap)
    (h : SpellsNumber n text) (hrest : Closes rest) :
    Reads (anyUnary (Grammar.ofDepth elements bound (depth + 2)) mode) (c :: (gap ++ text)) rest
      fun e => ∃ source, e = .signed source w (.number (String.ofList text)) := by
  have hprimary : Reads (Grammar.ofDepth elements bound (depth + 1)).primary text rest
      fun e => e = .number (String.ofList text) := by
    have hliteral := reads_numberLiteral h hrest
    obtain ⟨d, more, rfl, hdigit⟩ := head_of_spellsNumber h
    exact reads_digit hdigit hliteral
  have hoperand : Reads ((Grammar.ofDepth elements bound (depth + 2)).unary mode) (gap ++ text) rest
      fun e => e = .number (String.ofList text) :=
    reads_unary hgap (opens_of_spells (.number h) hrest) (head_digit h) hprimary hrest
  refine (reads_signed hw hc hgap (head_digit h) hoperand).mono ?_
  rintro _ ⟨source, _, rfl, rfl⟩
  exact ⟨source, rfl⟩

/-- The value of the expression that a spelling is read as is the spelled one. -/
theorem reads_of_spells {v : Value} {elements : Bool} {bound depth : Nat} {mode : Mode}
    (h : Spells v text) (hdepth : 2 * text.length ≤ depth) (hbound : text.length < bound)
    (hgap : IsTrivia gap) (hrest : Closes rest) :
    Reads ((Grammar.ofDepth elements bound depth).assignment mode) (gap ++ text) rest
      (HasValue v) := by
  induction hlength : text.length using Nat.strong_induction_on
    generalizing v text gap rest depth mode with
  | _ n ih =>
    have hpositive : 0 < text.length := List.length_pos_iff.2 (ne_nil_of_spells h)
    obtain ⟨depth, rfl⟩ := Nat.exists_eq_add_of_le' (show 2 ≤ depth by omega)
    have hread (v : Value) (inner : List Char) (hinner : Spells v inner)
        (hless : inner.length < text.length) (gap rest : List Char) (hgap : IsTrivia gap)
        (hrest : Closes rest) :
        Reads ((Grammar.ofDepth elements bound depth).assignment .brackets) (gap ++ inner) rest
          (HasValue v) :=
      ih inner.length (by omega) hinner (by omega) (by omega) hgap hrest rfl
    have hopens := opens_of_spells h hrest
    refine reads_assignment hgap hopens ?_ hrest
    rcases unsigned_or_signed h with hsign | ⟨m, space, digits, hspace, hnumber, hsigned⟩
    · have hunary : Reads (anyUnary (Grammar.ofDepth elements bound (depth + 1)) mode) ([] ++ text)
          rest (HasValue v) := reads_unsigned h hsign hread hbound .nil hrest
      exact hunary
    · have hdigits : 0 < digits.length := List.length_pos_iff.2 (ne_nil_of_spells (.number hnumber))
      have hvalue := numberValue?_of_spells hnumber
      have hlong : 2 ≤ text.length := by
        rcases hsigned with ⟨-, rfl⟩ | ⟨-, rfl⟩ <;>
          simp only [List.length_cons, List.length_append] <;> omega
      obtain ⟨depth, rfl⟩ := Nat.exists_eq_add_of_le' (show 1 ≤ depth by omega)
      rcases hsigned with ⟨rfl, rfl⟩ | ⟨rfl, rfl⟩
      · have hplus : "+".toList = ['+'] := rfl
        refine (reads_sign hplus (Or.inl rfl) hspace hnumber hrest).mono ?_
        rintro _ ⟨source, rfl⟩
        show (numberValue? (String.ofList digits)).getD _ = _
        rw [hvalue]
        rfl
      · have hminus : "-".toList = ['-'] := rfl
        refine (reads_sign hminus (Or.inr rfl) hspace hnumber hrest).mono ?_
        rintro _ ⟨source, rfl⟩
        show ((numberValue? (String.ofList digits)).map Expr.negated).getD _ = _
        rw [hvalue]
        rfl

end StoryRegistry.Script
