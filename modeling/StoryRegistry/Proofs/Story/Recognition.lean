import StoryRegistry.Proofs.Script.Exports
import StoryRegistry.Proofs.Story.Meta
import StoryRegistry.Story.Recognition

/-!
# What the look at the text misses

A text that is read as a story file with stories may still not look like one. Where it does not, the
text itself says why: its default is exported by a clause, or without the white space that is looked
for; or the framework is not mentioned and each story is exported as a function, by a clause, or
without the white space that is looked for (`StoryFile.looksLikeStory_or_hidden`). All other story
files look like story files.
-/

set_option autoImplicit false

namespace StoryRegistry

open StoryRegistry.Script StoryRegistry.Text

/-! ## The look at the text -/

namespace Story

/-- White space, and at least one character of it. -/
def IsBlanks (s : List Char) : Prop := s ≠ [] ∧ ∀ c ∈ s, isBlank c = true

theorem anywhere_iff {test : List Char → Bool} {s : List Char} :
    anywhere test s = true ↔ ∃ t, t <:+ s ∧ test t = true := by
  induction s with
  | nil => simp [anywhere]
  | cons c rest ih =>
    simp only [anywhere, Bool.or_eq_true, ih, List.suffix_cons_iff]
    constructor
    · rintro (h | ⟨t, ht, h⟩)
      · exact ⟨c :: rest, .inl rfl, h⟩
      · exact ⟨t, .inr ht, h⟩
    · rintro ⟨t, rfl | ht, h⟩
      · exact .inl h
      · exact .inr ⟨t, ht, h⟩

theorem afterBlanks?_append {blanks : List Char} (h : IsBlanks blanks) (s : List Char) :
    afterBlanks? (blanks ++ s) = some (s.dropWhile isBlank) := by
  obtain ⟨hne, hblanks⟩ := h
  cases blanks with
  | nil => exact absurd rfl hne
  | cons c more =>
    obtain ⟨hc, hmore⟩ := List.forall_mem_cons.1 hblanks
    rw [List.cons_append, afterBlanks?, if_pos hc, List.dropWhile_append_of_pos hmore]

theorem afterWord?_append {word : String} {blanks : List Char} (h : IsBlanks blanks) (s : List Char) :
    afterWord? word (word.toList ++ (blanks ++ s)) = some (s.dropWhile isBlank) := by
  rw [afterWord?, dropStart?_eq_some_iff.2 rfl, Option.bind_some, afterBlanks?_append h]

/-- White space comes between the two words of a default export, and after them. -/
structure IsPlainDefault (gap rest : List Char) : Prop where
  gap : IsBlanks gap
  rest : ∃ c ∈ rest.head?, isBlank c = true

/-- White space comes between the two words of exported variables, and after them, before a letter, digit
or underscore. -/
structure IsPlainVariables (gap rest : List Char) : Prop where
  gap : IsBlanks gap
  rest : ∃ blanks c more, rest = blanks ++ c :: more ∧ IsBlanks blanks ∧ isWord c = true ∧ isBlank c = false

variable {gap rest : List Char} {word : String}

theorem afterExport?_append (h : IsBlanks gap) (hword : word ∈ ["default", "const", "let", "var"])
    (s : List Char) :
    afterWord? "export" ("export".toList ++ (gap ++ (word.toList ++ s))) = some (word.toList ++ s) := by
  rw [afterWord?_append h]
  simp only [List.mem_cons, List.not_mem_nil, or_false] at hword
  rcases hword with rfl | rfl | rfl | rfl <;> rfl

theorem startsDefaultExport_of_plain (h : IsPlainDefault gap rest) (after : List Char) :
    startsDefaultExport ("export".toList ++ (gap ++ ("default".toList ++ (rest ++ after)))) = true := by
  obtain ⟨c, hc, hblank⟩ := h.rest
  obtain ⟨more, rfl⟩ := List.head?_eq_some_iff.1 hc
  have hblanks : IsBlanks [c] := ⟨List.cons_ne_nil _ _, by simpa using hblank⟩
  rw [startsDefaultExport, afterExport?_append h.gap (by decide), Option.bind_some]
  exact congrArg Option.isSome (afterWord?_append hblanks (more ++ after))

theorem startsNamedExport_of_plain (h : IsPlainVariables gap rest) (hword : word ∈ ["const", "let", "var"])
    (after : List Char) :
    startsNamedExport ("export".toList ++ (gap ++ (word.toList ++ (rest ++ after)))) = true := by
  obtain ⟨blanks, c, more, rfl, hblanks, hc, hblank⟩ := h.rest
  have hname : afterWord? word (word.toList ++ (blanks ++ c :: more ++ after)) =
      some (c :: (more ++ after)) := by
    rw [List.append_assoc, afterWord?_append hblanks, List.cons_append,
      List.dropWhile_cons_of_neg (by simp [hblank])]
  rw [startsNamedExport, afterExport?_append h.gap (List.mem_cons_of_mem _ hword)]
  exact List.any_eq_true.2 ⟨word, hword, by rw [hname]; exact hc⟩

/-- What stands in a piece of a text stands in the text, with the rest of the text after it. -/
theorem suffix_of_hasExport {text source : List Char} (h : HasExport text word gap rest)
    (htext : text <:+: source) :
    ∃ after, "export".toList ++ (gap ++ (word.toList ++ (rest ++ after))) <:+ source := by
  obtain ⟨before, after, rfl⟩ := htext
  obtain ⟨front, rfl⟩ := h.suffix
  exact ⟨after, before ++ front, by simp only [List.append_assoc]⟩

end Story

/-! ## What is missed -/

namespace Script.Located

/-- The statement exports the default, in a way that is not looked for. -/
inductive HidesDefault (s : Located) : Prop where
  | clause {names : List (String × String)} {name : String} (hform : s.statement.form = .exports names)
      (hname : ("default", name) ∈ names)
  | spaced {e : Expr} {gap rest : List Char} (hform : s.statement.form = .defaultExport e)
      (hwords : HasExport s.text "default" gap rest) (h : ¬ Story.IsPlainDefault gap rest)

/-- The statement exports something under the name, in a way that is not looked for. -/
inductive HidesExport (s : Located) (name : String) : Prop where
  | function {text : String} (hform : s.statement.form = .function true name text)
  | clause {names : List (String × String)} {other : String} (hform : s.statement.form = .exports names)
      (hname : (name, other) ∈ names)
  | spaced {declared : List (String × Expr)} {word : String} {gap rest : List Char}
      (hform : s.statement.form = .bindings true declared) (hname : name ∈ Table.names declared)
      (hword : word ∈ ["const", "let", "var"]) (hwords : HasExport s.text word gap rest)
      (h : ¬ Story.IsPlainVariables gap rest)

variable {s : Located} {path source : String}

/-- A statement that exports the default is seen, or hides it. -/
theorem default_seen_or_hidden (hs : s ∈ Module.located path source)
    (h : s.statement.form.defaultValues ≠ [] ∨ s.statement.form.defaultNames ≠ []) :
    Story.anywhere Story.startsDefaultExport source.toList = true ∨ s.HidesDefault := by
  obtain ⟨htext, hwritten⟩ := Module.writtenIn_of_mem_located hs
  cases hform : s.statement.form with
  | defaultExport e =>
    rw [hform] at hwritten
    cases hwritten with
    | noValue h => exact h.elim
    | @defaultExport _ gap rest hwords =>
      by_cases hplain : Story.IsPlainDefault gap rest
      · obtain ⟨after, hafter⟩ := Story.suffix_of_hasExport hwords htext
        exact .inl (Story.anywhere_iff.2 ⟨_, hafter, Story.startsDefaultExport_of_plain hplain after⟩)
      · exact .inr (.spaced hform hwords hplain)
  | exports names =>
    rw [hform] at h
    obtain ⟨name, hname⟩ := List.exists_mem_of_ne_nil _ (h.resolve_left (· rfl))
    obtain ⟨⟨exported, _⟩, hentry, rfl⟩ := List.mem_map.1 hname
    obtain ⟨hentry, hdefault⟩ := List.mem_filter.1 hentry
    obtain rfl : exported = "default" := beq_iff_eq.1 hdefault
    exact .inr (.clause hform hentry)
  | _ =>
    rw [hform] at h
    exact (h.elim (· rfl) (· rfl)).elim

/-- A statement that exports something is seen, or hides the export. -/
theorem export_seen_or_hidden (hs : s ∈ Module.located path source) {name variableName : String}
    (h : (name, variableName) ∈ s.statement.form.exported) :
    Story.anywhere Story.startsNamedExport source.toList = true ∨ s.HidesExport name := by
  obtain ⟨htext, hwritten⟩ := Module.writtenIn_of_mem_located hs
  cases hform : s.statement.form with
  | bindings exported declared =>
    rw [hform] at hwritten h
    cases hwritten with
    | noValue hnone =>
      cases exported with
      | false => cases h
      | true => exact hnone.elim
    | @bindings _ word gap rest hword hwords =>
      obtain ⟨entry, hentry, heq⟩ := List.mem_map.1 h
      cases heq
      by_cases hplain : Story.IsPlainVariables gap rest
      · obtain ⟨after, hafter⟩ := Story.suffix_of_hasExport hwords htext
        exact .inl (Story.anywhere_iff.2 ⟨_, hafter, Story.startsNamedExport_of_plain hplain hword after⟩)
      · exact .inr (.spaced hform (List.mem_map_of_mem hentry) hword hwords hplain)
  | function exported functionName text =>
    rw [hform] at h
    cases exported with
    | false => cases h
    | true =>
      cases List.mem_singleton.1 h
      exact .inr (.function hform)
  | exports names =>
    rw [hform] at h
    exact .inr (.clause hform (List.mem_filter.1 h).1)
  | _ =>
    rw [hform] at h
    cases h

end Script.Located

/-- A module with a default has a statement that exports it. -/
theorem Outline.exists_of_hasDefault {m : Module} (h : (ofModule m).hasDefault = true) :
    ∃ s ∈ m, s.form.defaultValues ≠ [] ∨ s.form.defaultNames ≠ [] := by
  by_contra hnone
  simp only [not_exists, not_and, not_or, not_not] at hnone
  have hvalues := Module.contributed_eq_nil Form.defaultValues fun s hs => (hnone s hs).1
  have hnames := Module.contributed_eq_nil Form.defaultNames fun s hs => (hnone s hs).2
  rw [ofModule_eq, hasDefault, hvalues, hnames] at h
  cases h

/-- A text that is read as a story file looks like one, unless it hides its default, or does not mention
the framework and hides all its stories. -/
theorem StoryFile.looksLikeStory_or_hidden {path source : String} {f : StoryFile}
    (h : ofSource path source = .ok f) :
    Story.looksLikeStory source = true ∨ (∃ s ∈ Module.located path source, s.HidesDefault) ∨
      occursIn "@storybook/" source = false ∧
        ∀ name ∈ Table.names f.stories, ∃ s ∈ Module.located path source, s.HidesExport name := by
  obtain ⟨-, entries, held, hmeta, -, hstories⟩ := parts_of_ofOutline h
  have hlocated : ∀ s ∈ Module.ofFile path source, ∃ t ∈ Module.located path source, t.statement = s := by
    rw [← Module.map_located]
    exact fun s hs => List.mem_map.1 hs
  have hdefault : (Outline.ofModule (Module.ofFile path source)).hasDefault = true := by
    by_contra hnone
    rw [Outline.meta?, if_pos (Bool.not_eq_true' _ ▸ Bool.not_eq_true _ ▸ hnone)] at hmeta
    cases hmeta
  obtain ⟨s, hs, hexports⟩ := Outline.exists_of_hasDefault hdefault
  obtain ⟨t, ht, rfl⟩ := hlocated s hs
  rcases Script.Located.default_seen_or_hidden ht hexports with hseen | hhidden
  · by_cases hnamed : (Story.anywhere Story.startsNamedExport source.toList ||
        occursIn "@storybook/" source) = true
    · exact .inl (Bool.and_eq_true_iff.2 ⟨hseen, hnamed⟩)
    · rw [Bool.or_eq_true, not_or, Bool.not_eq_true, Bool.not_eq_true] at hnamed
      refine .inr (.inr ⟨hnamed.2, fun name hname => ?_⟩)
      obtain ⟨⟨_, story⟩, hstory, rfl⟩ := List.mem_map.1 hname
      rw [hstories] at hstory
      obtain ⟨variableName, hexported, -, -⟩ := Outline.exists_of_mem_stories hstory
      rw [Outline.ofModule_eq] at hexported
      obtain ⟨s, hs, hin⟩ := List.mem_flatMap.1 hexported
      obtain ⟨t, ht, rfl⟩ := hlocated s hs
      refine ⟨t, ht, (Script.Located.export_seen_or_hidden ht hin).resolve_left ?_⟩
      rw [hnamed.1]
      exact Bool.false_ne_true
  · exact .inr (.inl ⟨t, ht, hhidden⟩)

/-! ## A story file that is missed -/

/-- A story file whose meta and story are exported by one clause. -/
def clauseStory : String :=
  "import '@storybook/x';const m=\x7b\x7d,S=\x7b\x7d;export\x7bm as default,S\x7d"

/-- The text is read with its meta and its story, does not look like a story file, and hides its default. -/
theorem StoryFile.hidden_clauseStory : ∃ f, ofSource "a.ts" clauseStory = .ok f ∧
    Table.names f.stories = ["S"] ∧ Story.looksLikeStory clauseStory = false ∧
      ∃ s ∈ Module.located "a.ts" clauseStory, s.HidesDefault := by
  have hread : (ofSource "a.ts" clauseStory).toOption.any (fun f =>
      Table.names f.stories == ["S"]) = true := by
    decide +kernel
  have hlooks : Story.looksLikeStory clauseStory = false := by decide +kernel
  have hmentioned : occursIn "@storybook/" clauseStory = true := by decide +kernel
  obtain ⟨f, hf, hnames⟩ := exists_ok_of_any hread
  refine ⟨f, hf, beq_iff_eq.1 hnames, hlooks, ?_⟩
  rcases looksLikeStory_or_hidden hf with htrue | hdefault | ⟨hnone, -⟩
  · exact absurd htrue (by simp [hlooks])
  · exact hdefault
  · exact absurd hnone (by simp [hmentioned])

end StoryRegistry
