import StoryRegistry.Proofs.Script.Phrases

/-!
# Sequences between brackets

Lists and maps are sequences of parts with commas between them, perhaps one more comma behind the
last part, and blanks and comments around each (`Listed`). They are read by the same loop, given a
reader of one part (`reads_brackets`).
-/

set_option autoImplicit false

namespace StoryRegistry.Script

variable {α β : Type} {g : Grammar} {gap text rest : List Char}

/-- Parts with commas between them, perhaps one after them, and blanks and comments around each. -/
inductive Listed (part : α → List Char → Prop) : List α → List Char → Prop where
  | nil {gap : List Char} (hgap : IsTrivia gap) : Listed part [] gap
  | last {a : α} {gap text after : List Char} (hgap : IsTrivia gap) (h : part a text)
      (hafter : IsTrivia after) : Listed part [a] (gap ++ (text ++ after))
  | cons {a : α} {items : List α} {gap text after more : List Char} (hgap : IsTrivia gap)
      (h : part a text) (hafter : IsTrivia after) (hmore : Listed part items more) :
      Listed part (a :: items) (gap ++ (text ++ (after ++ ',' :: more)))

/-- A part begins with a token that is no comma and no point. -/
def BeginsPart (text : List Char) : Prop :=
  ∃ c more, text = c :: more ∧ isSpace c = false ∧ c ≠ '/' ∧ c ≠ ',' ∧ c ≠ '.'

theorem BeginsPart.append {more : List Char} (h : BeginsPart text) : BeginsPart (text ++ more) := by
  obtain ⟨c, tail, rfl, hc⟩ := h
  exact ⟨c, tail ++ more, rfl, hc⟩

theorem BeginsPart.isToken (h : BeginsPart text) : IsToken text := by
  obtain ⟨c, tail, rfl, hspace, hslash, -⟩ := h
  exact isToken_cons hspace hslash

theorem BeginsPart.fails_spread (h : BeginsPart text) (hgap : IsTrivia gap) :
    Fails (symbol "...") (gap ++ text) := by
  have htoken := h.isToken
  obtain ⟨c, more, rfl, -, -, -, hpoint⟩ := h
  refine fails_symbol ?_
  rw [upcoming_append hgap htoken]
  show (if '.' = c then _ else none) = none
  rw [if_neg hpoint.symm]

namespace Listed

variable {part : α → List Char → Prop} {items : List α} {content : List Char}

theorem length_le (hpart : ∀ a text, part a text → BeginsPart text)
    (h : Listed part items content) : items.length ≤ content.length := by
  induction h with
  | nil => exact Nat.zero_le _
  | last hgap h hafter =>
    obtain ⟨c, more, rfl, -⟩ := hpart _ _ h
    simp only [List.length_cons, List.length_append, List.length_nil]
    omega
  | cons hgap h hafter _ ih =>
    simp only [List.length_cons, List.length_append]
    omega

/-- No comma comes next. -/
theorem fails_comma (hpart : ∀ a text, part a text → BeginsPart text)
    (h : Listed part items content) {finish : Char} (hfinish : finish ∈ [']', '\x7d']) :
    Fails (symbol ",") (content ++ finish :: rest) := by
  have hnext {gap s : List Char} (hgap : IsTrivia gap) (hs : BeginsPart s) :
      Fails (symbol ",") (gap ++ s) := by
    obtain ⟨c, more, rfl, hspace, hslash, hcomma, -⟩ := hs
    refine fails_symbol ?_
    rw [upcoming_append hgap (isToken_cons hspace hslash)]
    show (if ',' = c then _ else none) = none
    rw [if_neg hcomma.symm]
  have hends : BeginsPart (finish :: rest) := by
    have hall : ∀ c ∈ [']', '\x7d'], isSpace c = false ∧ c ≠ '/' ∧ c ≠ ',' ∧ c ≠ '.' :=
      List.all_iff_forall_prop.1 (by decide)
    exact ⟨finish, rest, rfl, hall finish hfinish⟩
  cases h with
  | nil hgap => exact hnext hgap hends
  | last hgap h _ =>
    rw [List.append_assoc, List.append_assoc]
    exact hnext hgap (hpart _ _ h).append
  | cons hgap h _ _ =>
    rw [List.append_assoc, List.append_assoc]
    exact hnext hgap (hpart _ _ h).append

/-- A part with the commas behind it. -/
def partThenCommas (g : Grammar) (r : Reader β) : Reader β := do
  let item ← r
  let _ ← many g (symbol ",")
  pure item

theorem head_finish {finish : Char} (hfinish : finish ∈ [']', '\x7d']) :
    ∀ c ∈ (finish :: rest).head?, c ∈ closers := by
  rintro c ⟨⟩
  have hall : ∀ d ∈ [']', '\x7d'], d ∈ closers := List.all_iff_forall_prop.1 (by decide)
  exact hall finish hfinish

theorem closes_finish {finish : Char} (hfinish : finish ∈ [']', '\x7d']) (hgap : IsTrivia gap) :
    Closes (gap ++ finish :: rest) :=
  closes_append hgap (head_finish hfinish)

theorem reads_part_last {r : Reader β} {P : β → Prop} (h : Reads r text rest P)
    (hcomma : Fails (symbol ",") rest) : Reads (partThenCommas g r) text rest P := by
  refine Reads.bind_nil h fun item hitem => ?_
  refine Reads.nil_bind (Reads.manyWithin_nil g.bound hcomma) ?_
  rintro _ rfl
  exact Reads.pure hitem

theorem reads_part_comma {r : Reader β} {P : β → Prop} {after : List Char} (hbound : 0 < g.bound)
    (hafter : IsTrivia after) (h : Reads r text (after ++ [','] ++ rest) P)
    (hcomma : Fails (symbol ",") rest) :
    Reads (partThenCommas g r) (text ++ (after ++ [','])) rest P := by
  obtain ⟨bound, hsucc⟩ := Nat.exists_eq_add_one_of_ne_zero (Nat.ne_of_gt hbound)
  have hfirst : Reads (symbol ",") (after ++ [',']) ([] ++ rest) fun _ => True :=
    reads_symbol rfl hafter (isToken_cons (by decide) (by decide))
  have hcommas := Reads.manyWithin_cons hfirst (Reads.manyWithin_nil bound hcomma)
  rw [List.append_nil, ← hsucc] at hcommas
  refine Reads.bind h fun item hitem => Reads.bind_nil hcommas fun _ _ => ?_
  exact Reads.pure hitem

/-- Parts are read one after the other, up to the blanks and comments behind the last one. -/
theorem reads {r : Reader β} {Q : α → β → Prop} {finish : Char} {limit : Nat}
    (hpart : ∀ a text, part a text → BeginsPart text) (hfinish : finish ∈ [']', '\x7d'])
    (hstop : ∀ s, Closes s → Fails r s) (hbound : 0 < g.bound)
    (hread : ∀ a text, part a text → text.length ≤ limit → ∀ gap rest, IsTrivia gap →
      Closes rest → Reads r (gap ++ text) rest (Q a))
    (h : Listed part items content) (hlimit : content.length ≤ limit) {bound : Nat}
    (hlength : items.length ≤ bound) :
    ∃ taken gap, content = taken ++ gap ∧ IsTrivia gap ∧
      Reads (manyWithin bound (partThenCommas g r)) taken (gap ++ finish :: rest)
        fun found => List.Forall₂ Q items found := by
  have hnone {gap : List Char} (hgap : IsTrivia gap) :
      Fails (partThenCommas g r) (gap ++ finish :: rest) :=
    Fails.bind (hstop _ (closes_finish hfinish hgap))
  induction h generalizing bound with
  | nil hgap =>
    refine ⟨[], _, rfl, hgap, (Reads.manyWithin_nil bound (hnone hgap)).mono ?_⟩
    rintro _ rfl
    exact .nil
  | @last a gap text after hgap h hafter =>
    obtain ⟨bound, rfl⟩ := Nat.exists_eq_add_of_le' hlength
    have hrest : Closes (after ++ finish :: rest) := closes_finish hfinish hafter
    have hcomma : Fails (symbol ",") (after ++ finish :: rest) :=
      fails_comma hpart (.nil hafter) hfinish
    have hsize : text.length ≤ limit := by
      simp only [List.length_append] at hlimit
      omega
    have hthis : Reads (partThenCommas g r) (gap ++ text) ([] ++ (after ++ finish :: rest)) (Q a) :=
      reads_part_last (hread a text h hsize gap _ hgap hrest) hcomma
    have hall := Reads.manyWithin_cons hthis (Reads.manyWithin_nil bound (hnone hafter))
    refine ⟨gap ++ text, after, (List.append_assoc ..).symm, hafter, ?_⟩
    rw [List.append_nil] at hall
    refine hall.mono ?_
    rintro _ ⟨b, _, rfl, hb, rfl⟩
    exact .cons hb .nil
  | @cons a items gap text after more hgap h hafter hmore ih =>
    simp only [List.length_append, List.length_cons] at hlimit hlength
    obtain ⟨bound, rfl⟩ := Nat.exists_eq_add_of_lt hlength
    have hfits : items.length ≤ items.length + bound := Nat.le_add_right _ _
    obtain ⟨taken, last, rfl, hlast, hothers⟩ := ih (by omega) hfits
    have hcomma : Fails (symbol ",") (taken ++ last ++ finish :: rest) :=
      hmore.fails_comma hpart hfinish
    have hrest : Closes (after ++ [','] ++ (taken ++ last ++ finish :: rest)) := by
      rw [List.append_assoc]
      exact closes_append hafter (by rintro c ⟨⟩; decide)
    have hthis := reads_part_comma hbound hafter (hread a text h (by omega) gap _ hgap hrest) hcomma
    rw [List.append_assoc taken] at hthis
    have hall := Reads.manyWithin_cons hthis hothers
    refine ⟨_, last, ?_, hlast, hall.mono ?_⟩
    · simp
    · rintro _ ⟨b, others, rfl, hb, hrest⟩
      exact .cons hb hrest

end Listed

/-- A sequence between brackets is read part by part. -/
theorem reads_brackets {part : α → List Char → Prop} {items : List α} {content : List Char}
    {r : Reader β} {Q : α → β → Prop} {start finish : String} {a z : Char}
    {build : List β → String → Expr} (hstart : start.toList = [a]) (ha : IsToken [a])
    (hfinish : finish.toList = [z]) (hz : z ∈ [']', '\x7d'])
    (hpart : ∀ a text, part a text → BeginsPart text) (hstop : ∀ s, Closes s → Fails r s)
    (hread : ∀ a text, part a text → text.length ≤ content.length → ∀ gap rest, IsTrivia gap →
      Closes rest → Reads r (gap ++ text) rest (Q a))
    (h : Listed part items content) (hbound : content.length < g.bound) :
    Reads
      (captured do
        symbol start
        let _ ← many g (symbol ",")
        let found ← many g (Listed.partThenCommas g r)
        symbol finish
        pure (build found))
      (a :: (content ++ [z])) rest fun e =>
        ∃ source found, e = build found source ∧ List.Forall₂ Q items found := by
  have htoken : IsToken (a :: (content ++ [z] ++ rest)) := by
    rintro d ⟨⟩
    exact ha a rfl
  have hlength : items.length ≤ g.bound := (h.length_le hpart).trans hbound.le
  have hcomma : Fails (symbol ",") (content ++ z :: rest) := h.fails_comma hpart hz
  obtain ⟨taken, gap, rfl, hgap, htaken⟩ :=
    h.reads hpart hz hstop (Nat.zero_lt_of_lt hbound) hread le_rfl hlength
  rw [List.append_assoc] at hcomma
  have hopen : Reads (symbol start) [a] (taken ++ gap ++ [z] ++ rest) fun _ => True :=
    reads_symbol_token hstart htoken
  have hclose : Reads (symbol finish) (gap ++ [z]) rest fun _ => True :=
    reads_symbol hfinish hgap (isToken_of_closers (Listed.head_finish hz))
  refine Reads.captured_token htoken (Reads.bind hopen fun _ _ => ?_)
  rw [List.append_assoc taken]
  have hassoc : gap ++ z :: rest = gap ++ [z] ++ rest := by simp
  rw [hassoc] at hcomma htaken
  rw [← List.append_assoc] at hcomma
  refine Reads.nil_bind (Reads.manyWithin_nil g.bound hcomma) fun _ _ => ?_
  refine Reads.bind htaken fun found hfound => Reads.bind_nil hclose fun _ _ => ?_
  exact Reads.pure ⟨_, found, rfl, hfound⟩

end StoryRegistry.Script
