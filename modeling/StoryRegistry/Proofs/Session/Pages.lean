import StoryRegistry.Proofs.Registry.Ownership
import StoryRegistry.Proofs.Session.Writing

/-!
# Whose page is written

A page is written for every story file whose component has an item, one file after another. Where
several files claim one item, each page takes the place of the one before, so that the page of the
last claimant stays.
-/

set_option autoImplicit false

namespace StoryRegistry

/-- Where something in a list has a property, something is the last to have it. -/
theorem exists_last {α : Type} {P : α → Prop} {items : List α} (h : ∃ a ∈ items, P a) :
    ∃ before last after, items = before ++ last :: after ∧ P last ∧ ∀ a ∈ after, ¬P a := by
  induction items with
  | nil => exact absurd h (by simp)
  | cons first rest ih =>
    by_cases hrest : ∃ a ∈ rest, P a
    · obtain ⟨before, last, after, rfl, hlast, hafter⟩ := ih hrest
      exact ⟨first :: before, last, after, rfl, hlast, hafter⟩
    · obtain ⟨a, ha, hP⟩ := h
      rcases List.mem_cons.1 ha with rfl | ha
      · exact ⟨[], a, rest, rfl, hP, fun b hb hPb => hrest ⟨b, hb, hPb⟩⟩
      · exact absurd ⟨a, ha, hP⟩ hrest

namespace Output

/-- The files of an item's page hold the page that a story file gives. -/
def Documents (t : FileTree) (folder : Path) (i : Item) (f : StoryFile) : Prop :=
  ∃ page, Docs.Page.ofItem f i.entries = .ok page ∧ t.Holds (pageFile folder i) page.text ∧
    t.Holds (examplesFile folder i) (jsonText page.document)

/-- Two story files give an item the same page, as text and as data. -/
def SamePage (i : Item) (f g : StoryFile) : Prop :=
  ∃ page page', Docs.Page.ofItem f i.entries = .ok page ∧ Docs.Page.ofItem g i.entries = .ok page' ∧
    page.text = page'.text ∧ jsonText page.document = jsonText page'.document

instance (i : Item) (f g : StoryFile) : Decidable (SamePage i f g) :=
  match hf : Docs.Page.ofItem f i.entries, hg : Docs.Page.ofItem g i.entries with
  | .ok page, .ok page' =>
    decidable_of_iff
      (page.text = page'.text ∧ jsonText page.document = jsonText page'.document) <| by
        simp [SamePage, hf, hg]
  | .ok _, .error _ => isFalse (by simp [SamePage, hg])
  | .error _, _ => isFalse (by simp [SamePage, hf])

/-- Where there is the page that one story file gives, there is the page that another one gives
exactly if they are the same. -/
theorem Documents.iff_samePage {t : FileTree} {folder : Path} {i : Item} {f : StoryFile}
    (h : Documents t folder i f) (g : StoryFile) :
    Documents t folder i g ↔ SamePage i g f := by
  obtain ⟨page, hpage, htext, hdata⟩ := h
  constructor
  · rintro ⟨other, hother, htext', hdata'⟩
    exact ⟨other, page, hother, hpage, htext'.unique htext, hdata'.unique hdata⟩
  · rintro ⟨other, page', hother, hpage', hsametext, hsamedata⟩
    rw [hpage] at hpage'
    cases hpage'
    refine ⟨other, hother, ?_, ?_⟩
    · rw [hsametext]
      exact htext
    · rw [hsamedata]
      exact hdata

/-! ## Different items have different pages -/

/-- The files of the pages of differently named items are different. -/
theorem place_ne_of_isPageOf {folder p q : Path} {i j : Item} (hp : IsPageOf folder i p)
    (hq : IsPageOf folder j q) (hi : Schema.isItemName i.name = true)
    (hj : Schema.isItemName j.name = true) (hne : i.name ≠ j.name) (t : FileTree) :
    t.placeOf p ≠ t.placeOf q := by
  have hmd {k : Item} (hk : Schema.isItemName k.name = true) : Path.IsPlain (k.name ++ ".md") :=
    Schema.isPlain_of_isItemName hk (by decide)
  have hjson {k : Item} (hk : Schema.isItemName k.name = true) :
      Path.IsPlain (k.name ++ ".examples.json") :=
    Schema.isPlain_of_isItemName hk (by decide)
  have hends (name other : String) : name ++ ".md" ≠ other ++ ".examples.json" := by
    intro heq
    have hlast := congrArg (fun s => s.toList.getLast?) heq
    simp at hlast
  intro hplace
  rcases hp with rfl | rfl <;> rcases hq with rfl | rfl
  · have heq := FileTree.placeOf_child_injective (hmd hi) (hmd hj) hplace
    exact hne ((String.append_left_inj _).1 heq)
  · exact hends _ _ (FileTree.placeOf_child_injective (hmd hi) (hjson hj) hplace)
  · exact hends _ _ (FileTree.placeOf_child_injective (hjson hi) (hmd hj) hplace).symm
  · have heq := FileTree.placeOf_child_injective (hjson hi) (hjson hj) hplace
    exact hne ((String.append_left_inj _).1 heq)

/-- The two files of a page are different. -/
theorem place_pageFile_ne {i : Item} (hi : Schema.isItemName i.name = true) (t : FileTree)
    (folder : Path) : t.placeOf (examplesFile folder i) ≠ t.placeOf (pageFile folder i) := by
  intro hplace
  have heq := FileTree.placeOf_child_injective
    (Schema.isPlain_of_isItemName hi (by decide)) (Schema.isPlain_of_isItemName hi (by decide))
    hplace
  exact absurd ((String.append_right_inj _).1 heq) (by decide)

/-- A page stays while no files but those of pages of other items are written. -/
theorem Documents.mono {files : Path → Prop} {folder : Path} {i : Item} {f : StoryFile}
    {s s' : Session} (h : Documents s.tree folder i f) (hwrote : WroteAt files s s')
    (hother : ∀ p q, files p → IsPageOf folder i q → s.tree.placeOf p ≠ s.tree.placeOf q) :
    Documents s'.tree folder i f := by
  obtain ⟨page, hpage, htext, hdata⟩ := h
  exact ⟨page, hpage, hwrote.holds htext fun p hp => hother p _ hp (Or.inl rfl),
    hwrote.holds hdata fun p hp => hother p _ hp (Or.inr rfl)⟩

/-! ## Writing pages -/

/-- A page that was written is that of the story file. -/
theorem documents_writePage {folder : Path} {f : StoryFile} {i : Item} {s s' : Session}
    (hname : Schema.isItemName i.name = true)
    (h : ends (writePage folder f i) s = (.ok (), s')) : Documents s'.tree folder i f := by
  obtain ⟨page, s₁, hpage, h⟩ := ends.of_bind h
  obtain ⟨⟨⟩, s₂, -, h⟩ := ends.of_bind h
  obtain ⟨⟨⟩, s₃, htext, hdata⟩ := ends.of_bind h
  have hwrote := leaves_writeJson (examplesFile folder i) page.document s₃
  rw [hdata] at hwrote
  refine ⟨page, Run.eq_ok_of_ofExcept hpage, ?_, holds_writeJson hdata⟩
  refine hwrote.holds (Run.holds_writeText htext) ?_
  rintro q rfl
  exact place_pageFile_ne hname s₃.tree folder

/-- Among items with distinct names, the item of a story file is the one whose name it claims. -/
theorem itemOf?_eq_some_iff {items : List Item} (hnames : (items.map Item.name).Nodup)
    {f : StoryFile} {i : Item} : itemOf? items f = some i ↔ i ∈ items ∧ f.Claims i.name := by
  unfold itemOf? StoryFile.Claims
  by_cases hempty : f.componentName = ""
  · simp [hempty]
  · rw [if_neg (by simpa using hempty)]
    constructor
    · intro h
      have hname := List.find?_some h
      exact ⟨List.mem_of_find?_eq_some h, hempty, (by simpa using hname : i.name = _).symm⟩
    · rintro ⟨hi, -, hname⟩
      cases hfind : items.find? fun j => j.name == Naming.kebab f.componentName with
      | none =>
        have hnot := List.find?_eq_none.1 hfind i hi
        simp [hname] at hnot
      | some j =>
        have hj := List.mem_of_find?_eq_some hfind
        have hjname : j.name = Naming.kebab f.componentName := by
          simpa using List.find?_some hfind
        rw [List.inj_on_of_nodup_map hnames hj hi (hjname.trans hname)]

/-- Of several story files that claim an item, the last one's page stays. -/
theorem documents_writePages {folder : Path} {items : List Item}
    (hnames : (items.map Item.name).Nodup)
    (hproper : ∀ i ∈ items, Schema.isItemName i.name = true) {before after : List StoryFile}
    {last : StoryFile} {i : Item} (hi : i ∈ items) (hlast : last.Claims i.name)
    (hafter : ∀ f ∈ after, ¬f.Claims i.name) {s s' : Session}
    (h : ends (writePages folder (before ++ last :: after) items) s = (.ok (), s')) :
    Documents s'.tree (folder.child pagesFolder) i last := by
  have hitem : itemOf? items last = some i := (itemOf?_eq_some_iff hnames).2 ⟨hi, hlast⟩
  have hdescribed : described (before ++ last :: after) items =
      described before items ++ (last, i) :: described after items := by
    simp [described, hitem]
  obtain ⟨⟨⟩, t, hall, h⟩ := ends.of_bind h
  rw [hdescribed] at hall
  obtain ⟨s₁, s₂, -, hpage, hmore⟩ := ends.of_forM hall
  -- what is written after it are pages of other items
  have hothers : ∀ f ∈ after, ∀ j, itemOf? items f = some j → j ∈ items ∧ j.name ≠ i.name := by
    intro f hf j hj
    obtain ⟨hmem, hclaims⟩ := (itemOf?_eq_some_iff hnames).1 hj
    exact ⟨hmem, fun heq => hafter f hf (heq ▸ hclaims)⟩
  have hwrote := leaves_described (folder.child pagesFolder) hothers s₂
  rw [hmore] at hwrote
  have hstays := (documents_writePage (hproper i hi) hpage).mono hwrote
    fun p q ⟨j, ⟨hj, hne⟩, hp⟩ hq =>
      place_ne_of_isPageOf hp hq (hproper j hj) (hproper i hi) hne s₂.tree
  cases h
  exact hstays

end Output

end StoryRegistry
