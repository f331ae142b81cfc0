import StoryRegistry.Proofs.Glob.Alternation

/-!
# What templates stand for

A template is a pattern as a tree of literal texts and groups. It stands for the texts that come of a
choice for every group. The group that is replaced first in its text is that of a node, and what comes of
it are the texts of the trees with a choice in place of the node (`Template.exists_step`). So its text
expands to what the template stands for (`expand_of_template`).

For the step a tree with a group of a kind is followed down to the node. The search for a group goes past
a text without marks of that kind, and past what opens a group in which there is another one, as the
first bracket inside is opening (`Opens`).
-/

set_option autoImplicit false

namespace StoryRegistry.Glob

open Text

/-! ## Templates -/

mutual

/-- A pattern as it is meant, with a branching for each group. -/
inductive Template where
  /-- A text without marks of groups stands for itself. -/
  | literal (s : List Char) (plain : ∀ c ∈ s, ∀ k : Kind, c ∉ k.marks)
  | append (p q : Template)
  | group (k : Kind) (choices : Choices)

/-- The choices of a group, of which there is at least one. -/
inductive Choices where
  | last (p : Template)
  | cons (p : Template) (more : Choices)

end

mutual

/-- The text of a template. -/
def Template.text : Template → List Char
  | .literal s _ => s
  | .append p q => p.text ++ q.text
  | .group k choices => k.opening ++ choices.text k ++ [k.group.finish]

/-- The texts of the choices with the separators of the group between them. -/
def Choices.text (k : Kind) : Choices → List Char
  | .last p => p.text
  | .cons p more => p.text ++ k.group.separator :: more.text k

end

mutual

/-- The texts that come of a template by a choice for every group. -/
def Template.words : Template → List (List Char)
  | .literal s _ => [s]
  | .append p q => p.words.flatMap fun u => q.words.map fun v => u ++ v
  | .group _ choices => choices.words

/-- The texts that come of one of the choices. -/
def Choices.words : Choices → List (List Char)
  | .last p => p.words
  | .cons p more => p.words ++ more.words

end

mutual

/-- The template has a group of a kind. -/
def Template.has (k : Kind) : Template → Bool
  | .literal _ _ => false
  | .append p q => p.has k || q.has k
  | .group k' choices => k' == k || choices.has k

/-- One of the choices has a group of a kind. -/
def Choices.has (k : Kind) : Choices → Bool
  | .last p => p.has k
  | .cons p more => p.has k || more.has k

end

/-- The choices in order. -/
def Choices.toList : Choices → List Template
  | .last p => [p]
  | .cons p more => p :: more.toList

namespace Choices

theorem text_eq (k : Kind) :
    ∀ choices : Choices, choices.text k = joinWith [k.group.separator] (choices.toList.map Template.text)
  | .last p => by rw [text, toList, List.map_singleton, joinWith]
  | .cons p more => by
    rw [text, toList, List.map_cons, text_eq k more]
    cases more <;> simp [toList, joinWith]

theorem mem_words {w : List Char} :
    ∀ {choices : Choices}, w ∈ choices.words ↔ ∃ p ∈ choices.toList, w ∈ p.words
  | .last p => by simp [words, toList]
  | .cons p more => by simp [words, toList, @mem_words w more]

theorem has_eq_false_iff {k : Kind} :
    ∀ {choices : Choices}, choices.has k = false ↔ ∀ p ∈ choices.toList, p.has k = false
  | .last p => by simp [has, toList]
  | .cons p more => by simp [has, toList, @has_eq_false_iff k more]

end Choices

/-! ## Marks in the text of a template -/

mutual

/-- The text of a template without groups of a kind is free of their marks. -/
theorem Template.not_mem_marks {k : Kind} :
    ∀ {p : Template}, p.has k = false → ∀ c ∈ p.text, c ∉ k.marks
  | .literal s plain, _, c, hc => plain c hc k
  | .append p q, h, c, hc => by
    rw [Template.has, Bool.or_eq_false_iff] at h
    rw [Template.text, List.mem_append] at hc
    exact hc.elim (p.not_mem_marks h.1 c) (q.not_mem_marks h.2 c)
  | .group k' choices, h, c, hc => by
    rw [Template.has, Bool.or_eq_false_iff, beq_eq_false_iff_ne] at h
    rw [Template.text, List.mem_append, List.mem_append, List.mem_singleton] at hc
    rcases hc with (hc | hc) | rfl
    · exact Kind.not_mem_marks h.1 c (k'.mem_marks_of_opening hc)
    · exact choices.not_mem_marks h.1 h.2 c hc
    · exact Kind.not_mem_marks h.1 _ k'.finish_mem_marks

/-- So are choices in a group of the other kind. -/
theorem Choices.not_mem_marks {k k' : Kind} (hne : k' ≠ k) :
    ∀ {choices : Choices}, choices.has k = false → ∀ c ∈ choices.text k', c ∉ k.marks
  | .last p, h, c, hc => p.not_mem_marks h c hc
  | .cons p more, h, c, hc => by
    rw [Choices.has, Bool.or_eq_false_iff] at h
    rw [Choices.text, List.mem_append, List.mem_cons] at hc
    rcases hc with hc | rfl | hc
    · exact p.not_mem_marks h.1 c hc
    · exact Kind.not_mem_marks hne _ k'.separator_mem_marks
    · exact more.not_mem_marks hne h.2 c hc

end

/-- Choices without groups of a kind hold no bracket of that kind, even in such a group. -/
theorem Choices.not_mem_of_has {k : Kind} {choices : Choices} (h : choices.has k = false) {c : Char}
    (hmark : c ∈ k.marks) (hc : c ≠ k.group.separator) : c ∉ choices.text k := by
  rw [Choices.text_eq]
  intro hmem
  rcases mem_joinWith hmem with rfl | ⟨part, hpart, hmem⟩
  · exact hc rfl
  · obtain ⟨p, hp, rfl⟩ := List.mem_map.1 hpart
    exact p.not_mem_marks (Choices.has_eq_false_iff.1 h p hp) c hmem hmark

/-- Of the brackets of a kind in the text the first one is opening. -/
def Opens (k : Kind) (s : List Char) : Prop :=
  ∃ l t, s = l ++ k.group.bracket :: t ∧ k.group.bracket ∉ l ∧ k.group.finish ∉ l

namespace Opens

variable {k : Kind} {s t : List Char}

theorem append_right (h : Opens k s) (t : List Char) : Opens k (s ++ t) := by
  obtain ⟨l, rest, rfl, hl⟩ := h
  exact ⟨l, rest ++ t, by simp, hl⟩

theorem append_left (h : Opens k t) (hbracket : k.group.bracket ∉ s) (hfinish : k.group.finish ∉ s) :
    Opens k (s ++ t) := by
  obtain ⟨l, rest, rfl, hl, hl'⟩ := h
  refine ⟨s ++ l, rest, by simp, ?_, ?_⟩
  · exact List.not_mem_append hbracket hl
  · exact List.not_mem_append hfinish hl'

/-- What stands before a bracket in a text without marks does not matter. -/
theorem append_left_of_not_mem_marks (h : Opens k t) (hs : ∀ c ∈ s, c ∉ k.marks) :
    Opens k (s ++ t) :=
  h.append_left (fun hmem => hs _ hmem k.bracket_mem_marks) fun hmem => hs _ hmem k.finish_mem_marks

end Opens

mutual

/-- In a template with groups of a kind the first bracket of that kind is opening. -/
theorem Template.opens {k : Kind} : ∀ {p : Template}, p.has k = true → Opens k p.text
  | .literal _ _, h => nomatch h
  | .append p q, h => by
    rw [Template.text]
    cases hp : p.has k with
    | true => exact (p.opens hp).append_right _
    | false =>
      have hq : q.has k = true := by simpa [Template.has, hp] using h
      exact (q.opens hq).append_left_of_not_mem_marks (p.not_mem_marks hp)
  | .group k' choices, h => by
    rw [Template.text, List.append_assoc]
    by_cases hk : k' = k
    · subst hk
      rw [Kind.opening, List.append_assoc]
      exact ⟨k'.group.start, _, rfl, k'.bracket_not_mem_start, k'.finish_not_mem_start⟩
    · have hchoices : choices.has k = true := by simpa [Template.has, hk] using h
      refine ((choices.opens k' hchoices).append_right _).append_left_of_not_mem_marks ?_
      exact fun c hc => Kind.not_mem_marks hk c (k'.mem_marks_of_opening hc)

/-- So it is in the choices of a group. -/
theorem Choices.opens {k : Kind} (k' : Kind) :
    ∀ {choices : Choices}, choices.has k = true → Opens k (choices.text k')
  | .last p, h => p.opens h
  | .cons p more, h => by
    rw [Choices.text]
    cases hp : p.has k with
    | true => exact (p.opens hp).append_right _
    | false =>
      have hmore : more.has k = true := by simpa [Choices.has, hp] using h
      refine Opens.append_left_of_not_mem_marks ?_ (p.not_mem_marks hp)
      refine (more.opens k' hmore).append_left (s := [k'.group.separator]) ?_ ?_
      · simpa using Kind.bracket_ne_separator k k'
      · simpa using Kind.finish_ne_separator k k'

end

/-! ## Finding the group that is replaced -/

namespace Kind

variable {k : Kind} {l s : List Char}

/-- A text that begins otherwise than groups do has none at the front. -/
theorem front?_eq_none {c : Char} (h : c ≠ k.first) : k.group.front? (c :: s) = none := by
  cases hfront : k.group.front? (c :: s) with
  | none => rfl
  | some found =>
    have htext := (Group.front?_eq_some_iff.1 hfront).text
    cases k <;> exact absurd (List.cons.inj htext).1 h

/-- The search for a group goes past a text in which none begins. -/
theorem first?_append (h : k.first ∉ l) (rest : List Char) :
    k.group.first? (l ++ rest) =
      (k.group.first? rest).map fun (before, inside, after) => (l ++ before, inside, after) := by
  induction l with
  | nil => exact (Option.map_id' (x := k.group.first? rest)).symm
  | cons c l ih =>
    have hc : c ≠ k.first := fun heq => h (heq ▸ List.mem_cons_self)
    rw [List.cons_append, Group.first?, front?_eq_none hc, ih fun hmem => h (List.mem_cons_of_mem _ hmem)]
    cases k.group.first? rest <;> rfl

/-- The search for a group goes past the opening of one that holds another one: it is not at the
front, since the first bracket inside is opening. -/
theorem first?_opening_append (h : Opens k s) :
    k.group.first? (k.opening ++ s) =
      (k.group.first? s).map fun (before, inside, after) => (k.opening ++ before, inside, after) := by
  have hfront : k.group.front? (k.opening ++ s) = none := by
    cases hfound : k.group.front? (k.opening ++ s) with
    | none => rfl
    | some found =>
      obtain ⟨htext, hbracket, hfinish⟩ := Group.front?_eq_some_iff.1 hfound
      obtain ⟨l, t, rfl, hbracket', hfinish'⟩ := h
      have hinside : l ++ k.group.bracket :: t = found.1 ++ k.group.finish :: found.2 := by
        simpa [opening] using htext
      have hdrop := congrArg (List.dropWhile fun c => c != k.group.bracket && c != k.group.finish) hinside
      rw [List.dropWhile_append_of_pos (Group.forall_isInner hbracket' hfinish'),
        List.dropWhile_append_of_pos (Group.forall_isInner hbracket hfinish)] at hdrop
      have heq : k.group.bracket = k.group.finish := by simpa using congrArg List.head? hdrop
      exact absurd heq k.bracket_ne_finish
  obtain ⟨tail, htail, hfirst⟩ := k.exists_opening_eq
  rw [htail, List.cons_append] at hfront ⊢
  rw [Group.first?, hfront, first?_append hfirst]
  cases k.group.first? s <;> rfl

/-- There is no group in a text in which none begins. -/
theorem replaced?_eq_none (h : k.first ∉ s) : k.replaced? s = none := by
  have hfirst := first?_append h []
  rw [List.append_nil] at hfirst
  rw [replaced?, hfirst]
  rfl

end Kind

/-! ## Replacing a group of a template -/

/-- In the text of a tree the first group of a kind stands between `before` and `after`. Its choices,
each with the tree that has it in place of the group, make up what the tree stands for. -/
structure IsStep {α : Type} (k : Kind) (text : α → List Char) (words : α → List (List Char)) (a : α)
    (before after : List Char) (next : List (List Char × α)) : Prop where
  first : ∀ rest, k.group.first? (text a ++ rest) =
    some (before, joinWith [k.group.separator] (next.map Prod.fst), after ++ rest)
  nonempty : next ≠ []
  noSeparator : ∀ e ∈ next, k.group.separator ∉ e.1
  text : ∀ e ∈ next, text e.2 = before ++ e.1 ++ after
  words : ∀ w, w ∈ words a ↔ ∃ e ∈ next, w ∈ words e.2

/-- The tree has a group of a kind, which can be replaced. -/
def HasStep {α : Type} (k : Kind) (text : α → List Char) (words : α → List (List Char)) (a : α) :
    Prop :=
  ∃ before after next, IsStep k text words a before after next

/-- A group of a tree is one of the tree around it, if the search for it goes past what stands in
front, and each text that the tree around it stands for is either put together with one of the tree's
or comes of another tree. -/
theorem HasStep.lift {α β : Type} {k : Kind} {text : α → List Char} {words : α → List (List Char)}
    {text' : β → List Char} {words' : β → List (List Char)} {a : α} (h : HasStep k text words a)
    (f : α → β) (l r : List Char) (joins : List Char → List Char → Prop) (other : List Char → Prop)
    (htext : ∀ b, text' (f b) = l ++ text b ++ r)
    (hskip : ∀ rest, k.group.first? (l ++ (text a ++ rest)) = (k.group.first? (text a ++ rest)).map
      fun (before, inside, after) => (l ++ before, inside, after))
    (hwords : ∀ b w, w ∈ words' (f b) ↔ (∃ u ∈ words b, joins u w) ∨ other w) :
    HasStep k text' words' (f a) := by
  obtain ⟨before, after, next, hfirst, hne, hseparator, hnext, hunion⟩ := h
  refine ⟨l ++ before, after ++ r, next.map fun e => (e.1, f e.2), ?_, ?_, ?_, ?_, ?_⟩
  · intro rest
    have hrest : text' (f a) ++ rest = l ++ (text a ++ (r ++ rest)) := by simp [htext]
    rw [hrest, hskip, hfirst]
    simp [Function.comp_def]
  · simpa using hne
  · intro e' he'
    obtain ⟨e, he, rfl⟩ := List.mem_map.1 he'
    exact hseparator e he
  · intro e' he'
    obtain ⟨e, he, rfl⟩ := List.mem_map.1 he'
    simp [htext, hnext e he]
  · intro w
    obtain ⟨first, hfirst⟩ := List.exists_mem_of_ne_nil next hne
    simp only [hwords, hunion, List.mem_map, exists_exists_and_eq_and]
    constructor
    · rintro (⟨u, ⟨e, he, hu⟩, hjoins⟩ | hother)
      · exact ⟨e, he, .inl ⟨u, hu, hjoins⟩⟩
      · exact ⟨first, hfirst, .inr hother⟩
    · rintro ⟨e, he, ⟨u, hu, hjoins⟩ | hother⟩
      · exact .inl ⟨u, ⟨e, he, hu⟩, hjoins⟩
      · exact .inr hother

/-- A group whose choices hold none of its kind is the one that is replaced. -/
theorem hasStep_group {k : Kind} {choices : Choices} (h : choices.has k = false) :
    HasStep k Template.text Template.words (.group k choices) := by
  refine ⟨[], [], choices.toList.map fun p => (p.text, p), ?_, ?_, ?_, ?_, ?_⟩
  · intro rest
    have hinside : (choices.toList.map fun p => (p.text, p)).map Prod.fst =
        choices.toList.map Template.text := by simp
    rw [hinside, ← Choices.text_eq]
    refine Group.first?_of_front? (Group.front?_eq_some_iff.2 ⟨?_, ?_, ?_⟩)
    · simp [Template.text, Kind.opening]
    · exact Choices.not_mem_of_has h k.bracket_mem_marks (k.bracket_ne_separator k)
    · exact Choices.not_mem_of_has h k.finish_mem_marks (k.finish_ne_separator k)
  · cases choices <;> simp [Choices.toList]
  · intro e he
    obtain ⟨p, hp, rfl⟩ := List.mem_map.1 he
    intro hmem
    exact p.not_mem_marks (Choices.has_eq_false_iff.1 h p hp) _ hmem k.separator_mem_marks
  · intro e he
    obtain ⟨p, hp, rfl⟩ := List.mem_map.1 he
    simp
  · intro w
    rw [Template.words, Choices.mem_words]
    simp

mutual

/-- A template with groups of a kind has one that can be replaced. -/
theorem Template.hasStep {k : Kind} :
    ∀ {p : Template}, p.has k = true → HasStep k Template.text Template.words p
  | .literal _ _, h => nomatch h
  | .append p q, h => by
    cases hp : p.has k with
    | true =>
      refine (p.hasStep hp).lift (Template.append · q) [] q.text
        (fun u w => ∃ v ∈ q.words, u ++ v = w) (fun _ => False) ?_ ?_ ?_
      · intro b
        rw [Template.text, List.nil_append]
      · exact fun rest => Kind.first?_append List.not_mem_nil _
      · intro b w
        simp [Template.words]
    | false =>
      have hq : q.has k = true := by simpa [Template.has, hp] using h
      refine (q.hasStep hq).lift (Template.append p ·) p.text []
        (fun v w => ∃ u ∈ p.words, u ++ v = w) (fun _ => False) ?_ ?_ ?_
      · intro b
        rw [Template.text, List.append_nil]
      · exact fun rest => Kind.first?_append
          (fun hmem => p.not_mem_marks hp _ hmem k.first_mem_marks) _
      · intro b w
        simp only [Template.words, List.mem_flatMap, List.mem_map, or_false]
        constructor
        · rintro ⟨u, hu, v, hv, rfl⟩
          exact ⟨v, hv, u, hu, rfl⟩
        · rintro ⟨v, hv, u, hu, rfl⟩
          exact ⟨u, hu, v, hv, rfl⟩
  | .group k' choices, h => by
    cases hchoices : choices.has k with
    | true =>
      refine (choices.hasStep k' hchoices).lift (Template.group k') k'.opening [k'.group.finish]
        Eq (fun _ => False) ?_ ?_ ?_
      · intro b
        rw [Template.text]
      · intro rest
        by_cases hk : k' = k
        · subst hk
          exact Kind.first?_opening_append ((choices.opens k' hchoices).append_right _)
        · exact Kind.first?_append (fun hmem =>
            Kind.not_mem_marks hk _ (k'.mem_marks_of_opening hmem) k.first_mem_marks) _
      · intro b w
        simp [Template.words]
    | false =>
      have hk : k' = k := by simpa [Template.has, hchoices] using h
      subst hk
      exact hasStep_group hchoices

/-- So have the choices of a group. -/
theorem Choices.hasStep {k : Kind} (k' : Kind) :
    ∀ {choices : Choices}, choices.has k = true → HasStep k (Choices.text k') Choices.words choices
  | .last p, h => by
    refine (p.hasStep h).lift Choices.last [] [] Eq (fun _ => False) ?_ ?_ ?_
    · intro b
      simp [Choices.text]
    · exact fun rest => Kind.first?_append List.not_mem_nil _
    · intro b w
      simp [Choices.words]
  | .cons p more, h => by
    cases hp : p.has k with
    | true =>
      refine (p.hasStep hp).lift (Choices.cons · more) []
        (k'.group.separator :: more.text k') Eq (· ∈ more.words) ?_ ?_ ?_
      · intro b
        rw [Choices.text, List.nil_append]
      · exact fun rest => Kind.first?_append List.not_mem_nil _
      · intro b w
        simp [Choices.words]
    | false =>
      have hmore : more.has k = true := by simpa [Choices.has, hp] using h
      refine (more.hasStep k' hmore).lift (Choices.cons p ·) (p.text ++ [k'.group.separator]) []
        Eq (· ∈ p.words) ?_ ?_ ?_
      · intro b
        simp [Choices.text]
      · refine fun rest => Kind.first?_append (fun hmem => ?_) _
        rcases List.mem_append.1 hmem with hmem | hmem
        · exact p.not_mem_marks hp _ hmem k.first_mem_marks
        · exact k.first_ne_separator k' (List.mem_singleton.1 hmem)
      · intro b w
        simp [Choices.words, or_comm]

end

/-- Without groups a template stands for its text alone. -/
theorem Template.words_eq_of_has : ∀ {p : Template}, (∀ k, p.has k = false) → p.words = [p.text]
  | .literal _ _, _ => rfl
  | .append p q, h => by
    have hp (k : Kind) : p.has k = false := (Bool.or_eq_false_iff.1 (h k)).1
    have hq (k : Kind) : q.has k = false := (Bool.or_eq_false_iff.1 (h k)).2
    rw [Template.words, p.words_eq_of_has hp, q.words_eq_of_has hq]
    rfl
  | .group k choices, h => absurd (h k) (by simp [Template.has])

/-- The first group of a kind is replaced by the choices of a node of the template. -/
theorem Template.exists_step {k : Kind} {p : Template} (h : p.has k = true) :
    ∃ next : List Template, k.replaced? p.text = some (next.map Template.text) ∧
      ∀ w, w ∈ p.words ↔ ∃ q ∈ next, w ∈ q.words := by
  obtain ⟨before, after, next, hfirst, hne, hseparator, htext, hwords⟩ := p.hasStep h
  refine ⟨next.map Prod.snd, ?_, fun w => ?_⟩
  · have hfound := hfirst []
    rw [List.append_nil, List.append_nil] at hfound
    have hparts : splitOn k.group.separator (joinWith [k.group.separator] (next.map Prod.fst)) =
        next.map Prod.fst := by
      refine splitOn_joinWith (by simpa using hne) fun part hpart => ?_
      obtain ⟨e, he, rfl⟩ := List.mem_map.1 hpart
      exact hseparator e he
    rw [Kind.replaced?, hfound, Option.map_some]
    dsimp only
    rw [hparts, List.map_map, List.map_map]
    exact congrArg some (List.map_congr_left fun e he => (htext e he).symm)
  · simp only [hwords, List.mem_map, exists_exists_and_eq_and]

theorem Template.replaced?_eq_none {k : Kind} {p : Template} (h : p.has k = false) :
    k.replaced? p.text = none :=
  Kind.replaced?_eq_none fun hmem => p.not_mem_marks h _ hmem k.first_mem_marks

/-- The choices in the text of a template are the texts of templates that stand for the same between
them; there are none if the template stands for its text alone. -/
theorem Template.choices?_cases (p : Template) :
    (∃ next : List Template, choices? p.text = some (next.map Template.text) ∧
      ∀ w, w ∈ p.words ↔ ∃ q ∈ next, w ∈ q.words) ∨
    choices? p.text = none ∧ p.words = [p.text] := by
  rw [choices?_eq]
  cases hparens : p.has .parens with
  | true =>
    obtain ⟨next, hreplaced, hwords⟩ := p.exists_step hparens
    exact .inl ⟨next, by rw [hreplaced]; rfl, hwords⟩
  | false =>
    rw [p.replaced?_eq_none hparens, Option.none_or]
    cases hbraces : p.has .braces with
    | true =>
      obtain ⟨next, hreplaced, hwords⟩ := p.exists_step hbraces
      exact .inl ⟨next, hreplaced, hwords⟩
    | false =>
      refine .inr ⟨p.replaced?_eq_none hbraces, p.words_eq_of_has fun k => ?_⟩
      cases k with
      | parens => exact hparens
      | braces => exact hbraces

/-- The plain patterns of the text of a template are what the template stands for. The induction is on
the number of opening brackets. -/
theorem Template.mem_expansion_text (p : Template) (w : List Char) :
    w ∈ expansion p.text ↔ w ∈ p.words := by
  induction hn : openings p.text using Nat.strong_induction_on generalizing p with
  | _ n ih =>
    rcases p.choices?_cases with ⟨next, hchoices, hwords⟩ | ⟨hnone, hwords⟩
    · rw [mem_expansion_of_some hchoices, hwords]
      simp only [List.mem_map, exists_exists_and_eq_and]
      refine exists_congr fun q => and_congr_right fun hq => ?_
      exact ih _ (hn ▸ openings_lt_of_choices? hchoices (List.mem_map_of_mem hq)) q rfl
    · rw [mem_expansion_of_none hnone, hwords, List.mem_singleton]

/-- The text of a template expands to what the template stands for, each once. Any text at all expands to
what its choices expand to, which have fewer opening brackets, and to nothing in which a group is
left that holds no bracket of its kind. -/
theorem expand_of_template (p : Template) (s : String) :
    (expand (String.ofList p.text)).Nodup ∧
      (∀ w, w ∈ expand (String.ofList p.text) ↔ w.toList ∈ p.words) ∧
      (expand s = match choices? s.toList with
        | none => [s]
        | some found => distinct (found.flatMap fun t => expand (String.ofList t))) ∧
      (∀ found, choices? s.toList = some found → ∀ t ∈ found, openings t < openings s.toList) ∧
      ∀ t ∈ expand s, ∀ (k : Kind) (before inside after : List Char),
        ¬k.group.Splits t.toList before inside after := by
  refine ⟨nodup_expand _, fun w => ?_, expand_eq s, fun found hfound t ht => ?_, fun t ht => ?_⟩
  · rw [mem_expand, String.toList_ofList, p.mem_expansion_text]
  · exact openings_lt_of_choices? hfound ht
  · exact choices?_eq_none_iff.1 (choices?_eq_none_of_mem_expansion (mem_expand.1 ht))

/-- A literal text of one character. -/
def Template.letter (c : Char) (h : ∀ k : Kind, c ∉ k.marks) : Template :=
  .literal [c] fun _ hmem => List.mem_singleton.1 hmem ▸ h

/-- Braces in parentheses with further parentheses inside. -/
def nested : Template :=
  .append (.letter 'x' fun k => by cases k <;> decide)
    (.group .parens (.cons (.letter 'a' fun k => by cases k <;> decide) (.last
      (.group .braces (.cons (.letter 'b' fun k => by cases k <;> decide) (.last
        (.group .parens (.cons (.letter 'a' fun k => by cases k <;> decide)
          (.last (.literal [] nofun))))))))))

/-- Nested groups of both kinds stand for three texts, and brackets that make up no group stay. -/
theorem expand_of_nested :
    (∀ w, w ∈ expand "x@(a|\x7bb,@(a|)\x7d)" ↔ w ∈ ["xa", "xb", "x"]) ∧
      ")b(@\x7bc" ∈ expand ")@(a|b)(@\x7bc" ∧
      ∀ (k : Kind) (before inside after : List Char),
        ¬k.group.Splits ")b(@\x7bc".toList before inside after := by
  have htext : String.ofList nested.text = "x@(a|\x7bb,@(a|)\x7d)" := by decide
  have hleft : ")b(@\x7bc" ∈ expand ")@(a|b)(@\x7bc" := by decide
  obtain ⟨-, hwords, -, -, hplain⟩ := expand_of_template nested ")@(a|b)(@\x7bc"
  rw [htext] at hwords
  refine ⟨fun w => ?_, hleft, hplain _ hleft⟩
  rw [hwords, show nested.words = ["xa", "xb", "xa", "x"].map String.toList by decide,
    List.mem_map_of_injective fun _ _ => String.toList_inj.1]
  simp only [List.mem_cons, List.not_mem_nil, or_false]
  tauto

end StoryRegistry.Glob
