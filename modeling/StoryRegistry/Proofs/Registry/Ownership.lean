import StoryRegistry.Proofs.Registry.Drafting

/-!
# Which file owns an item

The items of a registry are those that were kept, each from one story file, the first under its
name. A file that is left out takes no name, so leaving it out from the start changes nothing for
the others.
-/

set_option autoImplicit false

namespace StoryRegistry

/-- The component of the story file goes by that name in the registry. -/
def StoryFile.Claims (f : StoryFile) (name : String) : Prop :=
  f.componentName ≠ "" ∧ Naming.kebab f.componentName = name

instance (f : StoryFile) (name : String) : Decidable (f.Claims name) :=
  inferInstanceAs (Decidable (_ ∧ _))

namespace Assembly

/-- The items that are kept. -/
def keptItems (results : List (StoryFile × Outcome)) : List Item :=
  results.filterMap fun entry => entry.2.item?

variable {settings : Settings} {owners : Table String} {stories : List StoryFile}
  {analyses : List (Option Analysis)}

/-- An item is kept only if the story file gives it and its name is free. -/
theorem eq_kept_iff {f : StoryFile} {analysis : Option Analysis} {i : Item} :
    outcome settings owners f analysis = .kept i ↔
      item settings f analysis = .ok (some i) ∧ i.name ∉ Table.names owners := by
  unfold outcome
  cases hitem : item settings f analysis with
  | error cause =>
    dsimp only
    split <;> simp
  | ok found =>
    cases found with
    | none => simp
    | some j =>
      dsimp only
      cases howner : Table.get? j.name owners with
      | none =>
        have hfree := Table.get?_eq_none_iff.1 howner
        constructor
        · intro h
          cases h
          exact ⟨rfl, hfree⟩
        · rintro ⟨h, -⟩
          cases h
          rfl
      | some owner =>
        have htaken : j.name ∈ Table.names owners := List.mem_map_of_mem (Table.mem_of_get? howner)
        constructor
        · intro h
          cases h
        · rintro ⟨h, hfree⟩
          cases h
          exact absurd htaken hfree

/-- A story file that gives an item claims its name. -/
theorem claims_of_item {f : StoryFile} {analysis : Option Analysis} {i : Item}
    (h : item settings f analysis = .ok (some i)) : f.Claims i.name := by
  refine ⟨fun hempty => ?_, (name_of_item h).symm⟩
  simp [item, hempty] at h

/-- The names of the items that are kept are free and distinct. -/
theorem names_keptItems (settings : Settings) (owners : Table String) (stories : List StoryFile)
    (analyses : List (Option Analysis)) :
    ((keptItems (outcomes settings owners stories analyses)).map Item.name).Nodup ∧
      ∀ i ∈ keptItems (outcomes settings owners stories analyses), i.name ∉ Table.names owners := by
  induction stories generalizing owners analyses with
  | nil => simp [outcomes, keptItems]
  | cons f rest ih =>
    rw [outcomes]
    cases hresult : outcome settings owners f analyses.head?.join with
    | kept i =>
      -- from here on the name counts as taken, so it cannot come again
      obtain ⟨-, hfree⟩ := eq_kept_iff.1 hresult
      obtain ⟨hnodup, hothers⟩ := ih (owners ++ [(i.name, f.path)]) analyses.tail
      have hnew : ∀ j ∈
          keptItems (outcomes settings (owners ++ [(i.name, f.path)]) rest analyses.tail),
          j.name ∉ Table.names owners ∧ j.name ≠ i.name := by
        intro j hj
        simpa [Table.names, not_or] using hothers j hj
      refine ⟨List.nodup_cons.2 ⟨fun hmem => ?_, hnodup⟩, fun j hj => ?_⟩
      · obtain ⟨j, hj, hname⟩ := List.mem_map.1 hmem
        exact (hnew j hj).2 hname
      · rcases List.mem_cons.1 hj with rfl | hj
        · exact hfree
        · exact (hnew j hj).1
    | broken cause => simp [keptItems, Outcome.item?]
    | _ => exact ih owners analyses.tail

/-- A kept item is what the story file at its place gives. -/
theorem item_of_getElem?_outcomes {n : Nat} {f : StoryFile} {i : Item}
    (h : (outcomes settings owners stories analyses)[n]? = some (f, .kept i)) :
    stories[n]? = some f ∧ item settings f analyses[n]?.join = .ok (some i) := by
  induction stories generalizing owners analyses n with
  | nil => simp [outcomes] at h
  | cons g rest ih =>
    rw [outcomes] at h
    cases n with
    | zero =>
      obtain ⟨rfl, hresult⟩ : g = f ∧ outcome settings owners g analyses.head?.join = .kept i := by
        simpa using h
      rw [List.head?_eq_getElem?] at hresult
      exact ⟨rfl, (eq_kept_iff.1 hresult).1⟩
    | succ n =>
      have hmore {owners : Table String}
          (h : (outcomes settings owners rest analyses.tail)[n]? = some (f, .kept i)) :
          (g :: rest)[n + 1]? = some f ∧ item settings f analyses[n + 1]?.join = .ok (some i) := by
        obtain ⟨hstory, hitem⟩ := ih h
        rw [List.getElem?_tail] at hitem
        exact ⟨hstory, hitem⟩
      rw [List.getElem?_cons_succ] at h
      split at h
      · exact hmore h
      · simp at h
      · exact hmore h

/-- Whatever is kept is what some story file gives. -/
theorem exists_of_mem_keptItems {i : Item}
    (h : i ∈ keptItems (outcomes settings owners stories analyses)) :
    ∃ f, (f, .kept i) ∈ outcomes settings owners stories analyses := by
  obtain ⟨⟨f, result⟩, hmem, hitem⟩ := List.mem_filterMap.1 h
  cases result with
  | kept j =>
    cases hitem
    exact ⟨f, hmem⟩
  | _ => cases hitem

/-- Where each story file has its analysis, a kept item is what some story file gives with it. -/
theorem item_of_mem_outcomes {analyse : StoryFile → Option Analysis} {f : StoryFile} {i : Item}
    (h : (f, .kept i) ∈ outcomes settings owners stories (stories.map analyse)) :
    f ∈ stories ∧ item settings f (analyse f) = .ok (some i) := by
  obtain ⟨n, hn⟩ := List.mem_iff_getElem?.1 h
  obtain ⟨hstory, hitem⟩ := item_of_getElem?_outcomes hn
  rw [List.getElem?_map, hstory] at hitem
  exact ⟨List.mem_of_getElem? hstory, hitem⟩

/-! ## Registries -/

/-- A registry that is given up fails with the first cause. -/
theorem registry_of_broken {cause : Failure}
    (h : (outcomes settings [] stories analyses).findSome? (fun entry => entry.2.cause?) =
      some cause) : (registry settings stories analyses).2 = .error cause := by
  unfold registry
  dsimp only
  rw [h]

/-- What is kept is sound. -/
theorem isSound_of_mem_keptItems {i : Item}
    (h : i ∈ keptItems (outcomes settings owners stories analyses)) : i.IsSound := by
  obtain ⟨f, hf⟩ := exists_of_mem_keptItems h
  obtain ⟨n, hn⟩ := List.mem_iff_getElem?.1 hf
  exact isSound_of_item (item_of_getElem?_outcomes hn).2

/-- A registry that is not given up is read from the draft of what is kept. -/
theorem registry_of_unbroken
    (h : (outcomes settings [] stories analyses).findSome? (fun entry => entry.2.cause?) = none) :
    (registry settings stories analyses).2 = Registry.ofDocument
      (registryDraft settings (keptItems (outcomes settings [] stories analyses))) := by
  unfold registry keptItems
  dsimp only
  rw [h]

/-- A registry under a proper name that is not given up is that of the items that are kept. -/
theorem registry_eq_drafted (hfilled : settings.registryName ≠ "")
    (hwritable : Text.isWritable settings.registryName = true)
    (h : (outcomes settings [] stories analyses).findSome? (fun entry => entry.2.cause?) = none) :
    (registry settings stories analyses).2 =
      .ok (drafted settings (keptItems (outcomes settings [] stories analyses))) := by
  rw [registry_of_unbroken h]
  exact ofDocument_registryDraft hfilled hwritable (fun i hi => isSound_of_mem_keptItems hi)
    (names_keptItems settings [] stories analyses).1

/-- A registry is made of the items that are kept, and then no item kept it from being made. -/
theorem registry_ok {r : Registry} (h : (registry settings stories analyses).2 = .ok r) :
    r = drafted settings (keptItems (outcomes settings [] stories analyses)) ∧
      (outcomes settings [] stories analyses).findSome? (fun entry => entry.2.cause?) = none := by
  cases hcause : (outcomes settings [] stories analyses).findSome? fun entry => entry.2.cause? with
  | some cause =>
    rw [registry_of_broken hcause] at h
    cases h
  | none =>
    obtain ⟨hfilled, hwritable⟩ := name_of_ofDocument ((registry_of_unbroken hcause).symm.trans h)
    rw [registry_eq_drafted hfilled hwritable hcause] at h
    exact ⟨(Except.ok.inj h).symm, rfl⟩

/-- Each item of a registry has the document of an item that was kept. -/
theorem exists_owner {r : Registry} (h : (registry settings stories analyses).2 = .ok r) {i : Item}
    (hi : i ∈ r.items) : ∃ f j, (f, .kept j) ∈ outcomes settings [] stories analyses ∧
      j.name = i.name ∧ j.document = i.document := by
  rw [(registry_ok h).1] at hi
  obtain ⟨j, hj, rfl⟩ := List.mem_map.1 hi
  obtain ⟨f, hf⟩ := exists_of_mem_keptItems hj
  exact ⟨f, j, hf, rfl, j.document_written.symm⟩

/-- The names in a registry are distinct item names, none of them that of the registry document. -/
theorem names_of_registry {r : Registry} (h : (registry settings stories analyses).2 = .ok r) :
    (r.items.map Item.name).Nodup ∧
      ∀ i ∈ r.items, Schema.isItemName i.name = true ∧ i.name ≠ reservedName := by
  constructor
  · rw [(registry_ok h).1, names_drafted]
    exact (names_keptItems settings [] stories analyses).1
  · intro i hi
    obtain ⟨f, j, hmem, hname, -⟩ := exists_owner h hi
    obtain ⟨n, hn⟩ := List.mem_iff_getElem?.1 hmem
    obtain ⟨-, hitem⟩ := item_of_getElem?_outcomes hn
    have hfree := (itemEntries_of_item hitem).1
    rw [← name_of_item hitem] at hfree
    exact hname ▸ ⟨(isSound_of_item hitem).isItemName, hfree⟩

/-- A file that is left out takes no name: if every file that is kept is taken, the files that are
not make no difference. The induction is on the files; until one is kept the same names are free. -/
theorem keptItems_filter {α : Type} (file : α → StoryFile) (analyse : StoryFile → Option Analysis)
    (taken : α → Bool) {sources : List α}
    (hunbroken : (outcomes settings owners (sources.map file)
      ((sources.map file).map analyse)).findSome? (fun entry => entry.2.cause?) = none)
    (h : ∀ (n : Nat) a f i, sources[n]? = some a →
      (outcomes settings owners (sources.map file) ((sources.map file).map analyse))[n]? =
        some (f, .kept i) → taken a = true) :
    keptItems (outcomes settings owners ((sources.filter taken).map file)
        (((sources.filter taken).map file).map analyse)) =
      keptItems (outcomes settings owners (sources.map file) ((sources.map file).map analyse)) := by
  induction sources generalizing owners with
  | nil => rfl
  | cons a rest ih =>
    rw [List.map_cons, List.map_cons, outcomes] at hunbroken h ⊢
    have hlater (n : Nat) (b : α) (f : StoryFile) (i : Item) := h (n + 1) b f i
    simp only [List.head?_cons, Option.join_some, List.tail_cons, List.getElem?_cons_succ]
      at hunbroken h hlater ⊢
    -- a file that is not kept leaves the names as they are, with or without it
    by_cases htaken : taken a = true
    · rw [List.filter_cons_of_pos htaken, List.map_cons, List.map_cons, outcomes]
      simp only [List.head?_cons, Option.join_some, List.tail_cons]
      cases hresult : outcome settings owners (file a) (analyse (file a)) with
      | broken cause => rfl
      | kept i =>
        rw [hresult] at hunbroken hlater
        exact congrArg (i :: ·) (ih hunbroken hlater)
      | _ =>
        rw [hresult] at hunbroken hlater
        exact ih hunbroken hlater
    · rw [List.filter_cons_of_neg htaken]
      cases hresult : outcome settings owners (file a) (analyse (file a)) with
      | kept i =>
        rw [hresult] at h
        exact absurd (h 0 a (file a) i rfl rfl) htaken
      | broken cause =>
        rw [hresult] at hunbroken
        cases hunbroken
      | _ =>
        rw [hresult] at hunbroken hlater
        exact ih hunbroken hlater

/-! ## Files that are left out -/

/-- Where nothing is broken each story file comes to an outcome, and a name that was taken by then was
taken by a file that is kept. The induction is on the files, with the taken names growing by those of the
kept items. -/
theorem exists_outcome {analyse : StoryFile → Option Analysis}
    (h : (outcomes settings owners stories (stories.map analyse)).findSome?
      (fun entry => entry.2.cause?) = none) {f : StoryFile} (hf : f ∈ stories) :
    ∃ taken, (f, outcome settings taken f (analyse f)) ∈
        outcomes settings owners stories (stories.map analyse) ∧
      ∀ entry ∈ taken, entry ∈ owners ∨ ∃ g i, (g, Outcome.kept i) ∈
        outcomes settings owners stories (stories.map analyse) ∧ entry = (i.name, g.path) := by
  induction stories generalizing owners with
  | nil => cases hf
  | cons g rest ih =>
    rw [List.map_cons, outcomes] at h ⊢
    simp only [List.head?_cons, Option.join_some, List.tail_cons] at h ⊢
    rcases List.mem_cons.1 hf with rfl | hf
    · exact ⟨owners, List.mem_cons_self, fun _ hentry => .inl hentry⟩
    cases hresult : outcome settings owners g (analyse g) with
    | kept i =>
      rw [hresult] at h
      obtain ⟨taken, hmem, howners⟩ := @ih (owners ++ [(i.name, g.path)]) h hf
      refine ⟨taken, List.mem_cons_of_mem _ hmem, fun entry hentry => ?_⟩
      rcases howners entry hentry with hbefore | ⟨k, j, hkept, heq⟩
      · rcases List.mem_append.1 hbefore with hbefore | hnew
        · exact .inl hbefore
        · exact .inr ⟨g, i, List.mem_cons_self, List.mem_singleton.1 hnew⟩
      · exact .inr ⟨k, j, List.mem_cons_of_mem _ hkept, heq⟩
    | broken cause =>
      rw [hresult] at h
      cases h
    | _ =>
      rw [hresult] at h
      obtain ⟨taken, hmem, howners⟩ := ih h hf
      refine ⟨taken, List.mem_cons_of_mem _ hmem, fun entry hentry => ?_⟩
      refine (howners entry hentry).imp_right fun ⟨k, j, hkept, heq⟩ => ?_
      exact ⟨k, j, List.mem_cons_of_mem _ hkept, heq⟩

/-- A story file is left out if its item is refused by a verdict. -/
theorem outcome_of_verdict {f : StoryFile} {analysis : Option Analysis} {cause : Failure}
    (h : item settings f analysis = .error cause) (hverdict : cause.isVerdict = true) :
    outcome settings owners f analysis = .refused cause := by
  unfold outcome
  rw [h]
  exact if_pos hverdict

/-- It is given up with the registry if the item fails otherwise. -/
theorem outcome_of_failure {f : StoryFile} {analysis : Option Analysis} {cause : Failure}
    (h : item settings f analysis = .error cause) (hverdict : cause.isVerdict = false) :
    outcome settings owners f analysis = .broken cause := by
  unfold outcome
  rw [h]
  exact if_neg (by simp [hverdict])

/-- It is left out if the name of its item was taken. -/
theorem outcome_of_owner {f : StoryFile} {analysis : Option Analysis} {i : Item} {owner : String}
    (h : item settings f analysis = .ok (some i)) (howner : Table.get? i.name owners = some owner) :
    outcome settings owners f analysis = .taken i.name owner := by
  unfold outcome
  rw [h]
  simp only [howner]

/-- An item that is kept is in the registry as it is written. -/
theorem exists_item_of_kept {r : Registry} (h : (registry settings stories analyses).2 = .ok r)
    {f : StoryFile} {i : Item} (hkept : (f, .kept i) ∈ outcomes settings [] stories analyses) :
    ∃ j ∈ r.items, j.name = i.name ∧ j.document = i.document := by
  rw [(registry_ok h).1]
  have hmem : i ∈ keptItems (outcomes settings [] stories analyses) :=
    List.mem_filterMap.2 ⟨_, hkept, rfl⟩
  exact ⟨i.written, List.mem_map_of_mem hmem, rfl, i.document_written⟩

/-- What is told about an outcome is among the lines that go with the registry. -/
theorem mem_lines {f : StoryFile} {result : Outcome} {line : LogLine}
    (h : (f, result) ∈ outcomes settings [] stories analyses) (hline : result.line? f = some line) :
    line ∈ (registry settings stories analyses).1 :=
  List.mem_filterMap.2 ⟨_, h, hline⟩

/-- A verdict on the item of a story file carries the path of the file. -/
theorem file?_of_item {f : StoryFile} {analysis : Option Analysis} {cause : Failure}
    (h : item settings f analysis = .error cause) (hverdict : cause.isVerdict = true) :
    cause.file? = some f.path := by
  unfold item at h
  split at h
  · cases h
  dsimp only at h
  split at h
  · cases h
    rfl
  split at h
  · cases h
    cases hverdict
  · unfold Item.ofDocument at h
    cases hread : Schema.itemEntries (draft settings f analysis) with
    | value i =>
      rw [hread] at h
      cases h
    | refused found =>
      rw [hread] at h
      cases h
      rfl

/-- A story file that gives neither an item nor a verdict names no component. -/
theorem componentName_of_item {f : StoryFile} {analysis : Option Analysis}
    (h : item settings f analysis = .ok none) : f.componentName = "" := by
  unfold item at h
  split at h
  · rename_i hempty
    simpa using hempty
  dsimp only at h
  split at h
  · cases h
  split at h
  · cases h
  · cases hread : Item.ofDocument (draft settings f analysis) (some f.path) <;>
      (rw [hread] at h; cases h)

end Assembly

end StoryRegistry
