import StoryRegistry.Proofs.Script.Number
import StoryRegistry.Script.Cursor

/-!
# Spelled texts

A text can be spelled in many ways: characters stand for themselves or are escaped, by a letter, by
number or needlessly, and a line can be continued (`SpellsChars`). Whatever the spelling, reading up
to the closing quote gives back what was spelled.

The readers go over a text in raw characters and escapes, so a spelled text is first cut into these
(`Cut`). The cut takes off one escape after the other as it was spelled, with one exception: an
escaped question mark takes a line end behind it along, which stands for itself there.
-/

set_option autoImplicit false

namespace StoryRegistry.Script

/-! ## Spellings -/

/-- The letters that stand for control characters in an escape. -/
def controlLetters : List (Char × Char) :=
  [('n', '\n'), ('t', '\t'), ('r', '\r'), ('b', '\x08'), ('f', '\x0c'), ('v', '\x0b')]

/-- The character stands for itself in an escape. -/
def StandsForItself (c : Char) : Prop :=
  c.isDigit = false ∧ c ∉ ['x', 'u', 'n', 't', 'r', 'b', 'f', 'v'] ∧ isLineEnd c = false

/-- The characters between two quotes spell the characters of a text. Raw, a character is not the
quote, a backslash or a carriage return; only a template goes over line ends, and in a template no
substitution may begin. -/
inductive SpellsChars (quote : Char) : List Char → List Char → Prop where
  | nil : SpellsChars quote [] []
  | raw {c : Char} {v t : List Char} (hquote : c ≠ quote) (hslash : c ≠ '\\') (hreturn : c ≠ '\r')
      (hline : c = '\n' → quote = '\x60')
      (hsubstitution : quote = '\x60' → c = '$' → ∀ d ∈ t.head?, d ≠ '\x7b')
      (h : SpellsChars quote v t) : SpellsChars quote (c :: v) (c :: t)
  | control {letter c : Char} {v t : List Char} (hletter : (letter, c) ∈ controlLetters)
      (h : SpellsChars quote v t) : SpellsChars quote (c :: v) ('\\' :: letter :: t)
  | nul {v t : List Char} (hnext : ∀ d ∈ t.head?, d.isDigit = false) (h : SpellsChars quote v t) :
      SpellsChars quote ('\x00' :: v) ('\\' :: '0' :: t)
  | itself {c : Char} {v t : List Char} (hc : StandsForItself c) (h : SpellsChars quote v t) :
      SpellsChars quote (c :: v) ('\\' :: c :: t)
  | short {c : Char} {digits v t : List Char} (hlength : digits.length = 2)
      (hdigits : SpellsDigits 16 digits c.toNat) (h : SpellsChars quote v t) :
      SpellsChars quote (c :: v) ('\\' :: 'x' :: (digits ++ t))
  | long {c : Char} {digits v t : List Char} (hlength : digits.length = 4)
      (hdigits : SpellsDigits 16 digits c.toNat) (h : SpellsChars quote v t) :
      SpellsChars quote (c :: v) ('\\' :: 'u' :: (digits ++ t))
  | braced {c : Char} {digits v t : List Char} (hdigits : SpellsDigits 16 digits c.toNat)
      (h : SpellsChars quote v t) :
      SpellsChars quote (c :: v) ('\\' :: 'u' :: '\x7b' :: (digits ++ '\x7d' :: t))
  | continued {v t : List Char} (h : SpellsChars quote v t) :
      SpellsChars quote v ('\\' :: '\n' :: t)
  | continuedReturn {v t : List Char} (h : SpellsChars quote v t) :
      SpellsChars quote v ('\\' :: '\r' :: '\n' :: t)

/-- The marks between which a text can stand. -/
def quotes : List Char := ['"', '\x27', '\x60']

/-- A spelled text cut into its raw characters and its escapes, each escape as long as it is found
to be. -/
inductive Cut (quote : Char) : List Char → List Char → Prop where
  | nil : Cut quote [] []
  | raw {c : Char} {v t : List Char} (hquote : c ≠ quote) (hslash : c ≠ '\\') (hreturn : c ≠ '\r')
      (hline : c = '\n' → quote = '\x60')
      (hsubstitution : quote = '\x60' → c = '$' → ∀ d ∈ t.head?, d ≠ '\x7b')
      (h : Cut quote v t) : Cut quote (c :: v) (c :: t)
  | escape {body v t : List Char}
      (hsize : ∀ rest, escapeSize (body ++ (t ++ quote :: rest)) = body.length)
      (h : Cut quote v t) : Cut quote (decodeEscape body ++ v) ('\\' :: (body ++ t))

/-! ## Escapes -/

theorem charOfCode?_toNat (c : Char) : Text.charOfCode? c.toNat = some c := by
  have hvalid : c.toNat < 0xD800 ∨ 0xDFFF < c.toNat ∧ c.toNat < 0x110000 := c.valid
  have hsurrogate : (0xD800 ≤ c.toNat && c.toNat ≤ 0xDFFF) = false := by
    rw [Bool.and_eq_false_iff, decide_eq_false_iff_not, decide_eq_false_iff_not]
    omega
  unfold Text.charOfCode?
  rw [if_neg (by omega), hsurrogate, if_neg Bool.false_ne_true, Char.ofNat_toNat]

theorem isOctal_of_not_digit {c : Char} (h : c.isDigit = false) :
    ('0' ≤ c && c ≤ '7') = false := by
  cases hoctal : ('0' ≤ c && c ≤ '7') with
  | false => rfl
  | true =>
    obtain ⟨hlow, hhigh⟩ := Bool.and_eq_true_iff.1 hoctal
    have hseven : c ≤ '7' := of_decide_eq_true hhigh
    have hnine : c ≤ '9' := Char.le_trans hseven (by decide)
    have hdigit : c.isDigit = true := Bool.and_eq_true_iff.2 ⟨hlow, decide_eq_true hnine⟩
    exact absurd (hdigit.symm.trans h) (by decide)

theorem escapeSize_of_plain {c : Char} {rest : List Char} (hx : c ≠ 'x') (hu : c ≠ 'u')
    (hdigit : c.isDigit = false) :
    escapeSize (c :: rest) =
      if (c == '\r' || c == '?') && rest.head?.any (fun d => d == '\n' || isSeparator d) then 2
      else 1 := by
  unfold escapeSize
  split
  · rename_i heq
    exact absurd (List.cons.inj heq).1 hx
  · rename_i heq
    exact absurd (List.cons.inj heq).1 hu
  · rename_i heq
    exact absurd (List.cons.inj heq).1 hu
  · rename_i heq
    obtain ⟨rfl, rfl⟩ := List.cons.inj heq
    dsimp only
    rw [if_neg (Bool.eq_false_iff.1 (isOctal_of_not_digit hdigit))]
  · rename_i heq
    cases heq

/-- A nought is an escape of its own where no digit follows it. -/
theorem escapeSize_nul {d : Char} {rest : List Char} (hd : d.isDigit = false) :
    escapeSize ('0' :: d :: rest) = 1 := by
  show (('0' :: d :: rest.take 1).takeWhile fun c => '0' ≤ c && c ≤ '7').length = 1
  rw [List.takeWhile_cons_of_pos (by decide), List.takeWhile_cons_of_neg]
  · rfl
  · rw [isOctal_of_not_digit hd]
    decide

theorem escapeSize_unbraced {c : Char} (hc : c ≠ '\x7b') (rest : List Char) :
    escapeSize ('u' :: c :: rest) = 5 := by
  unfold escapeSize
  split
  · rename_i heq
    exact absurd (List.cons.inj heq).1 (by decide)
  · rename_i heq
    exact absurd (List.cons.inj (List.cons.inj heq).2).1 hc
  · rfl
  · rename_i hu heq
    obtain ⟨rfl, -⟩ := List.cons.inj heq
    exact absurd rfl hu
  · rename_i heq
    cases heq

theorem controlEscape?_eq_none {c : Char} {more : List Char}
    (hc : c ∉ ['n', 't', 'r', 'b', 'f', 'v', '0']) : controlEscape? (c :: more) = none := by
  unfold controlEscape?
  split
  case h_8 => rfl
  all_goals
    rename_i heq
    obtain ⟨rfl, -⟩ := List.cons.inj heq
    exact absurd (by decide) hc

theorem decodeEscape_of_code {c d : Char} {more : List Char}
    (hd : d ∉ ['n', 't', 'r', 'b', 'f', 'v', '0']) (h : escapeCode? (d :: more) = some c.toNat) :
    decodeEscape (d :: more) = [c] := by
  unfold decodeEscape
  rw [controlEscape?_eq_none hd, h]
  dsimp only
  rw [charOfCode?_toNat]

theorem decodeEscape_of_plain {c : Char} {more : List Char}
    (hc : c ∉ ['n', 't', 'r', 'b', 'f', 'v', '0', 'x', 'u', '\n', '\r']) :
    decodeEscape (c :: more) = c :: more := by
  simp only [List.mem_cons, List.not_mem_nil, or_false, not_or] at hc
  have hcode : escapeCode? (c :: more) = none := by
    unfold escapeCode?
    split
    case h_4 => rfl
    all_goals
      rename_i heq
      obtain ⟨rfl, -⟩ := List.cons.inj heq
      simp at hc
  unfold decodeEscape
  rw [controlEscape?_eq_none (by simp [hc]), hcode]
  dsimp only
  split
  case h_3 => rfl
  all_goals
    rename_i heq
    obtain ⟨rfl, -⟩ := List.cons.inj heq
    simp at hc

theorem StandsForItself.ne {c : Char} (hc : StandsForItself c) :
    c ≠ 'x' ∧ c ≠ 'u' ∧ c ≠ '\r' := by
  obtain ⟨-, hletter, hline⟩ := hc
  refine ⟨?_, ?_, ?_⟩ <;> rintro rfl
  · exact hletter (by decide)
  · exact hletter (by decide)
  · exact absurd hline (by decide)

theorem StandsForItself.decodeEscape_eq {c : Char} (hc : StandsForItself c) (more : List Char) :
    decodeEscape (c :: more) = c :: more := by
  obtain ⟨hdigit, hletter, hline⟩ := hc
  have hall : ∀ d ∈ ['n', 't', 'r', 'b', 'f', 'v', '0', 'x', 'u', '\n', '\r'],
      d.isDigit = true ∨ d ∈ ['x', 'u', 'n', 't', 'r', 'b', 'f', 'v'] ∨ isLineEnd d = true :=
    List.all_iff_forall_prop.1 (by decide)
  apply decodeEscape_of_plain
  intro hmem
  rcases hall c hmem with h | h | h
  · exact absurd (h.symm.trans hdigit) (by decide)
  · exact hletter h
  · exact absurd (h.symm.trans hline) (by decide)

/-! ## The cut -/

theorem Cut.control {quote letter c : Char} {v t : List Char}
    (hletter : (letter, c) ∈ controlLetters) (h : Cut quote v t) :
    Cut quote (c :: v) ('\\' :: letter :: t) := by
  have hall : ∀ p ∈ controlLetters, decodeEscape [p.1] = [p.2] ∧ p.1 ≠ 'x' ∧ p.1 ≠ 'u' ∧
      p.1.isDigit = false ∧ (p.1 == '\r' || p.1 == '?') = false := by decide
  obtain ⟨hdecode, hx, hu, hdigit, hother⟩ := hall _ hletter
  have hcut : Cut quote (decodeEscape [letter] ++ v) ('\\' :: ([letter] ++ t)) := by
    refine .escape (fun rest => ?_) h
    rw [List.singleton_append, escapeSize_of_plain hx hu hdigit, hother]
    rfl
  rwa [hdecode] at hcut

theorem Cut.nul {quote : Char} {v t : List Char} (hquote : quote ∈ quotes)
    (hnext : ∀ d ∈ t.head?, d.isDigit = false) (h : Cut quote v t) :
    Cut quote ('\x00' :: v) ('\\' :: '0' :: t) := by
  have hquotes : ∀ q ∈ quotes, q.isDigit = false := List.all_iff_forall_prop.1 (by decide)
  have hcut : Cut quote (decodeEscape ['0'] ++ v) ('\\' :: (['0'] ++ t)) := by
    refine .escape (fun rest => ?_) h
    cases t with
    | nil => exact escapeSize_nul (hquotes quote hquote)
    | cons d t => exact escapeSize_nul (hnext d rfl)
  exact hcut

theorem Cut.itself {quote c : Char} {v t : List Char} (hc : StandsForItself c)
    (hquote : quote ∈ quotes)
    (hnext : c = '?' → ∀ d ∈ t.head?, (d == '\n' || isSeparator d) = false)
    (h : Cut quote v t) : Cut quote (c :: v) ('\\' :: c :: t) := by
  have hquotes : ∀ q ∈ quotes, (q == '\n' || isSeparator q) = false :=
    List.all_iff_forall_prop.1 (by decide)
  obtain ⟨hx, hu, hreturn⟩ := hc.ne
  have hcut : Cut quote (decodeEscape [c] ++ v) ('\\' :: ([c] ++ t)) := by
    refine .escape (fun rest => ?_) h
    rw [List.singleton_append, escapeSize_of_plain hx hu hc.1, if_neg]
    · rfl
    · rintro htwo
      obtain ⟨hmark, hline⟩ := Bool.and_eq_true_iff.1 htwo
      have hquestion : c = '?' := by simpa [hreturn] using hmark
      cases t with
      | nil => exact absurd hline (by simpa using hquotes quote hquote)
      | cons d t => exact absurd hline (by simpa using hnext hquestion d rfl)
  rwa [hc.decodeEscape_eq] at hcut

/-- An escaped question mark takes a line end along. -/
theorem Cut.question {quote d : Char} {v t : List Char}
    (hd : (d == '\n' || isSeparator d) = true) (h : Cut quote v t) :
    Cut quote ('?' :: d :: v) ('\\' :: '?' :: d :: t) := by
  have hcut : Cut quote (decodeEscape ['?', d] ++ v) ('\\' :: (['?', d] ++ t)) := by
    refine .escape (fun rest => ?_) h
    show escapeSize ('?' :: d :: (t ++ quote :: rest)) = 2
    rw [escapeSize_of_plain (by decide) (by decide) (by decide), if_pos]
    simpa using hd
  exact hcut

theorem Cut.short {quote c : Char} {digits v t : List Char} (hlength : digits.length = 2)
    (hdigits : SpellsDigits 16 digits c.toNat) (h : Cut quote v t) :
    Cut quote (c :: v) ('\\' :: 'x' :: (digits ++ t)) := by
  have hcode : escapeCode? ('x' :: digits) = some c.toNat := by
    show (if digits.length == 2 then hexNumber? digits else none) = _
    rw [hlength, hexNumber?_of_spells hdigits]
    rfl
  have hcut : Cut quote (decodeEscape ('x' :: digits) ++ v) ('\\' :: ('x' :: digits ++ t)) := by
    refine .escape (fun rest => ?_) h
    rw [List.length_cons, hlength]
    rfl
  rwa [decodeEscape_of_code (by decide) hcode] at hcut

theorem Cut.long {quote c : Char} {digits v t : List Char} (hlength : digits.length = 4)
    (hdigits : SpellsDigits 16 digits c.toNat) (h : Cut quote v t) :
    Cut quote (c :: v) ('\\' :: 'u' :: (digits ++ t)) := by
  cases digits with
  | nil => exact absurd rfl hdigits.1
  | cons d digits =>
    obtain ⟨k, hd⟩ := hdigits.exists_isDigit d List.mem_cons_self
    have hbrace : d ≠ '\x7b' := by
      rintro rfl
      exact absurd (isAlphanum_of_isHexDigit le_rfl hd) (by decide)
    have hcode : escapeCode? ('u' :: d :: digits) = some c.toNat := by
      rw [← hexNumber?_of_spells hdigits]
      unfold escapeCode?
      split
      · rename_i heq
        exact absurd (List.cons.inj heq).1 (by decide)
      · rename_i heq
        exact absurd (List.cons.inj (List.cons.inj heq).2).1 hbrace
      · rename_i heq
        rw [← (List.cons.inj heq).2, hlength]
        rfl
      · rename_i hu
        exact absurd rfl (hu _)
    have hcut : Cut quote (decodeEscape ('u' :: d :: digits) ++ v)
        ('\\' :: ('u' :: d :: digits ++ t)) := by
      refine .escape (fun rest => ?_) h
      rw [List.length_cons, hlength]
      exact escapeSize_unbraced hbrace _
    rwa [decodeEscape_of_code (by decide) hcode] at hcut

theorem Cut.braced {quote c : Char} {digits v t : List Char}
    (hdigits : SpellsDigits 16 digits c.toNat) (h : Cut quote v t) :
    Cut quote (c :: v) ('\\' :: 'u' :: '\x7b' :: (digits ++ '\x7d' :: t)) := by
  have hcode : escapeCode? ('u' :: '\x7b' :: (digits ++ ['\x7d'])) = some c.toNat := by
    show (if (digits ++ ['\x7d']).getLast? == some '\x7d' then
      hexNumber? (digits ++ ['\x7d']).dropLast else none) = _
    rw [List.getLast?_concat, List.dropLast_concat, hexNumber?_of_spells hdigits]
    rfl
  have hinside : ∀ d ∈ digits, (d != '\x7d') = true := by
    intro d hd
    obtain ⟨k, hk⟩ := hdigits.exists_isDigit d hd
    rw [bne_iff_ne]
    rintro rfl
    exact absurd (isAlphanum_of_isHexDigit le_rfl hk) (by decide)
  have hcut : Cut quote (decodeEscape ('u' :: '\x7b' :: (digits ++ ['\x7d'])) ++ v)
      ('\\' :: ('u' :: '\x7b' :: (digits ++ ['\x7d']) ++ t)) := by
    refine .escape (fun rest => ?_) h
    have htaken : (digits ++ '\x7d' :: (t ++ quote :: rest)).takeWhile (· != '\x7d') = digits :=
      takeWhile_append_of_ends hinside (by rintro d ⟨⟩; rfl)
    have hassoc : 'u' :: '\x7b' :: (digits ++ ['\x7d']) ++ (t ++ quote :: rest) =
        'u' :: '\x7b' :: (digits ++ '\x7d' :: (t ++ quote :: rest)) := by simp
    rw [hassoc]
    show 3 + ((digits ++ '\x7d' :: (t ++ quote :: rest)).takeWhile (· != '\x7d')).length = _
    rw [htaken]
    simp
    omega
  rw [decodeEscape_of_code (by decide) hcode] at hcut
  simpa using hcut

theorem Cut.continued {quote : Char} {v t : List Char} (h : Cut quote v t) :
    Cut quote v ('\\' :: '\n' :: t) := by
  have hcut : Cut quote (decodeEscape ['\n'] ++ v) ('\\' :: (['\n'] ++ t)) := by
    refine .escape (fun rest => ?_) h
    rw [List.singleton_append, escapeSize_of_plain (by decide) (by decide) (by decide)]
    rfl
  exact hcut

theorem Cut.continuedReturn {quote : Char} {v t : List Char} (h : Cut quote v t) :
    Cut quote v ('\\' :: '\r' :: '\n' :: t) := by
  have hcut : Cut quote (decodeEscape ['\r', '\n'] ++ v) ('\\' :: (['\r', '\n'] ++ t)) := by
    refine .escape (fun rest => ?_) h
    show escapeSize ('\r' :: '\n' :: (t ++ quote :: rest)) = 2
    rw [escapeSize_of_plain (by decide) (by decide) (by decide)]
    rfl
  exact hcut

/-- What follows a raw character is cut as well, in case an escaped question mark takes that
character. -/
theorem SpellsChars.cut_both {quote : Char} {v t : List Char} (hquote : quote ∈ quotes)
    (h : SpellsChars quote v t) :
    Cut quote v t ∧ ∀ d ∈ t.head?, d ≠ '\\' → ∃ v', v = d :: v' ∧ Cut quote v' t.tail := by
  induction h with
  | nil => exact ⟨.nil, by simp⟩
  | raw hne hslash hreturn hline hsubstitution _ ih =>
    refine ⟨.raw hne hslash hreturn hline hsubstitution ih.1, ?_⟩
    rintro d ⟨⟩ -
    exact ⟨_, rfl, ih.1⟩
  | @itself c v t hc _ ih =>
    refine ⟨?_, by rintro d ⟨⟩ hd; exact absurd rfl hd⟩
    cases t with
    | nil => exact .itself hc hquote (by simp) ih.1
    | cons d t =>
      by_cases hmerged : c = '?' ∧ (d == '\n' || isSeparator d) = true
      · obtain ⟨rfl, hd⟩ := hmerged
        have hslash : d ≠ '\\' := by
          rintro rfl
          exact absurd hd (by decide)
        obtain ⟨v', rfl, hcut⟩ := ih.2 d rfl hslash
        exact hcut.question hd
      · refine .itself hc hquote ?_ ih.1
        rintro hquestion e ⟨⟩
        exact Bool.eq_false_iff.2 fun hd => hmerged ⟨hquestion, hd⟩
  | control hletter _ ih =>
    exact ⟨ih.1.control hletter, by rintro d ⟨⟩ hd; exact absurd rfl hd⟩
  | nul hnext _ ih =>
    exact ⟨ih.1.nul hquote hnext, by rintro d ⟨⟩ hd; exact absurd rfl hd⟩
  | short hlength hdigits _ ih =>
    exact ⟨ih.1.short hlength hdigits, by rintro d ⟨⟩ hd; exact absurd rfl hd⟩
  | long hlength hdigits _ ih =>
    exact ⟨ih.1.long hlength hdigits, by rintro d ⟨⟩ hd; exact absurd rfl hd⟩
  | braced hdigits _ ih =>
    exact ⟨ih.1.braced hdigits, by rintro d ⟨⟩ hd; exact absurd rfl hd⟩
  | continued _ ih => exact ⟨ih.1.continued, by rintro d ⟨⟩ hd; exact absurd rfl hd⟩
  | continuedReturn _ ih => exact ⟨ih.1.continuedReturn, by rintro d ⟨⟩ hd; exact absurd rfl hd⟩

/-- A spelled text is cut into raw characters and escapes. -/
theorem SpellsChars.cut {quote : Char} {v t : List Char} (hquote : quote ∈ quotes)
    (h : SpellsChars quote v t) : Cut quote v t :=
  (h.cut_both hquote).1

/-! ## Reading -/

theorem decode_consRaw (c : Char) (pieces : List Piece) :
    (consRaw c pieces).flatMap Piece.decode = c :: pieces.flatMap Piece.decode := by
  unfold consRaw
  split <;> rfl

/-- A text between quotes is read up to its closing quote, and gives what it spells. -/
theorem readQuoted_of_cut {quote : Char} {v t : List Char} (hquote : quote ≠ '\\')
    (htemplate : quote ≠ '\x60') (h : Cut quote v t) (rest : List Char) {fuel : Nat}
    (hfuel : t.length < fuel) : ∃ pieces,
      readQuoted quote fuel (t ++ quote :: rest) = some (pieces, t.length + 1) ∧
        pieces.flatMap Piece.decode = v := by
  induction h generalizing fuel with
  | nil =>
    cases fuel with
    | zero => exact absurd hfuel (Nat.not_lt_zero _)
    | succ fuel => exact ⟨[], by simp [readQuoted], rfl⟩
  | @raw c v t hne hslash hreturn hline _ _ ih =>
    cases fuel with
    | zero => exact absurd hfuel (Nat.not_lt_zero _)
    | succ fuel =>
      obtain ⟨pieces, hread, hdecode⟩ := ih (Nat.lt_of_succ_lt_succ hfuel)
      have hnewline : c ≠ '\n' := fun h => htemplate (hline h)
      refine ⟨consRaw c pieces, ?_, ?_⟩
      · simp [readQuoted, hne, hslash, hreturn, hnewline, hread]
      · rw [decode_consRaw, hdecode]
  | @escape body v t hsize _ ih =>
    cases fuel with
    | zero => exact absurd hfuel (Nat.not_lt_zero _)
    | succ fuel =>
      have hless : t.length < fuel := by
        simp only [List.length_cons, List.length_append] at hfuel
        omega
      obtain ⟨pieces, hread, hdecode⟩ := ih hless
      refine ⟨.escape ('\\' :: body) :: pieces, ?_, ?_⟩
      · rw [List.cons_append, List.append_assoc]
        simp only [readQuoted, hsize rest, List.drop_left', List.take_left', hread]
        simp [Ne.symm hquote]
        omega
      · simp [Piece.decode, hdecode]

/-- A template is read up to its closing quote, and gives what it spells. -/
theorem readTemplate_of_cut {v t : List Char} (h : Cut '\x60' v t) (rest : List Char) {fuel : Nat}
    (hfuel : t.length < fuel) : ∃ pieces,
      readTemplate fuel (t ++ '\x60' :: rest) = (pieces, t.length) ∧
        pieces.flatMap Piece.decode = v := by
  induction h generalizing fuel with
  | nil =>
    cases fuel with
    | zero => exact absurd hfuel (Nat.not_lt_zero _)
    | succ fuel => exact ⟨[], by simp [readTemplate], rfl⟩
  | @raw c v t hne hslash hreturn _ hsubstitution _ ih =>
    cases fuel with
    | zero => exact absurd hfuel (Nat.not_lt_zero _)
    | succ fuel =>
      obtain ⟨pieces, hread, hdecode⟩ := ih (Nat.lt_of_succ_lt_succ hfuel)
      have hplain : (c == '$' && (t ++ '\x60' :: rest).head? == some '\x7b') = false := by
        rw [Bool.and_eq_false_iff]
        by_cases hc : c = '$'
        · right
          cases t with
          | nil => rfl
          | cons d t => simpa using hsubstitution rfl hc d rfl
        · exact Or.inl (by simpa using hc)
      refine ⟨consRaw c pieces, ?_, ?_⟩
      · rw [List.cons_append]
        simp only [readTemplate, hplain, hread]
        simp [hne, hslash]
      · rw [decode_consRaw, hdecode]
  | @escape body v t hsize _ ih =>
    cases fuel with
    | zero => exact absurd hfuel (Nat.not_lt_zero _)
    | succ fuel =>
      have hless : t.length < fuel := by
        simp only [List.length_cons, List.length_append] at hfuel
        omega
      obtain ⟨pieces, hread, hdecode⟩ := ih hless
      refine ⟨.escape ('\\' :: body) :: pieces, ?_, ?_⟩
      · rw [List.cons_append, List.append_assoc]
        simp only [readTemplate, hsize rest, List.drop_left', List.take_left', hread]
        simp
        omega
      · simp [Piece.decode, hdecode]

end StoryRegistry.Script
