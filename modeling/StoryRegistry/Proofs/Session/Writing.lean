import StoryRegistry.Proofs.FileTree.Names
import StoryRegistry.Proofs.Session.Steady
import StoryRegistry.Proofs.Text.Utf8
import StoryRegistry.Session.Output

/-!
# What is written

A step that writes files changes no others, whatever it comes to. If it succeeds, each of them holds
what was written into it last.
-/

set_option autoImplicit false

namespace StoryRegistry

namespace FileTree

/-- The file to which a path leads holds a text. -/
def Holds (t : FileTree) (p : Path) (text : String) : Prop :=
  ∃ content, t.file p = .ok content ∧ Text.Utf8.encode? text = some content.bytes

/-- A file holds one text. -/
theorem Holds.unique {t : FileTree} {p : Path} {text other : String} (h : t.Holds p text)
    (hother : t.Holds p other) : text = other := by
  obtain ⟨content, hfile, hbytes⟩ := h
  obtain ⟨content', hfile', hbytes'⟩ := hother
  rw [hfile] at hfile'
  cases hfile'
  exact Text.Utf8.encode?_injective hbytes hbytes'

end FileTree

/-- Between the sessions no files were written but those to which the given paths lead, and the
report says the same of the registry. -/
structure WroteAt (files : Path → Prop) (s s' : Session) : Prop where
  grown : FileTree.Grown (fun place => ∃ p, files p ∧ s.tree.placeOf p = place) s.tree s'.tree
  outcome : s'.report.outcome = s.report.outcome

namespace WroteAt

variable {files more : Path → Prop} {s s' : Session}

instance (files : Path → Prop) : Std.Refl (WroteAt files) where
  refl s := ⟨refl_of _ s.tree, rfl⟩

instance (files : Path → Prop) : IsTrans Session (WroteAt files) where
  trans s s' s'' h h' := by
    refine ⟨trans_of _ h.grown (h'.grown.mono fun place hplace => ?_), h'.outcome.trans h.outcome⟩
    obtain ⟨p, hp, rfl⟩ := hplace
    exact ⟨p, hp, (h.grown.placeOf_eq p).symm⟩

/-- Fewer files are written than may be. -/
theorem mono (h : WroteAt files s s') (hsub : ∀ p, files p → more p) : WroteAt more s s' :=
  ⟨h.grown.mono fun _ ⟨p, hp, hplace⟩ => ⟨p, hsub p hp, hplace⟩, h.outcome⟩

/-- Where the file tree is the same nothing was written. -/
theorem of_sameReported (h : SameReported s s') : WroteAt files s s' := by
  obtain ⟨htree, houtcome⟩ := h
  refine ⟨?_, houtcome⟩
  rw [htree]
  exact refl_of _ s.tree

/-- A file that is not written holds what it held. -/
theorem holds (h : WroteAt files s s') {p : Path} {text : String} (htext : s.tree.Holds p text)
    (hother : ∀ q, files q → s.tree.placeOf q ≠ s.tree.placeOf p) : s'.tree.Holds p text := by
  obtain ⟨content, hfile, hbytes⟩ := htext
  exact ⟨content, h.grown.file hfile fun ⟨q, hq, hplace⟩ => hother q hq hplace, hbytes⟩

end WroteAt

/-- A steady step writes nothing. -/
theorem Steady.leaves_wroteAt {α : Type} {x : Run α} (h : Steady SameReported x)
    (files : Path → Prop) : Leaves (WroteAt files) x :=
  h.leaves.mono fun _ _ => WroteAt.of_sameReported

/-! ## Changes of the file tree -/

namespace Run

/-- A change of the file tree comes to what the change does to the tree. -/
theorem ends_change {α : Type} (c : Change α) (s : Session) :
    ends (change c) s =
      ((ends c s.tree).1.mapError Failure.file, { s with tree := (ends c s.tree).2 }) := by
  unfold change
  rw [ends.bind_of_ok (ends.get_eq s)]
  have hrun : c.run.run s.tree = ends c s.tree := rfl
  rw [hrun]
  cases ends c s.tree with
  | mk r t => cases r <;> rfl

/-- Making folders writes no file. -/
theorem leaves_folders (files : Path → Prop) (p : Path) :
    Leaves (WroteAt files) (change (Change.folders p)) := by
  intro s
  rw [ends_change]
  exact ⟨(Change.grown_folders p s.tree).mono fun _ h => h.elim, rfl⟩

/-- Writing a text writes one file. -/
theorem leaves_writeText (p : Path) (text : String) :
    Leaves (WroteAt (· = p)) (change (Change.writeText p text)) := by
  intro s
  rw [ends_change]
  exact ⟨(Change.ends_writeText p text s.tree).1.mono fun _ h => ⟨p, rfl, h.symm⟩, rfl⟩

/-- A text that was written is in the file. -/
theorem holds_writeText {p : Path} {text : String} {s s' : Session}
    (h : ends (change (Change.writeText p text)) s = (.ok (), s')) : s'.tree.Holds p text := by
  rw [ends_change] at h
  obtain ⟨-, hwritten⟩ := Change.ends_writeText p text s.tree
  cases hend : ends (Change.writeText p text) s.tree with
  | mk r t =>
    rw [hend] at h hwritten
    cases r with
    | error e => cases h
    | ok u =>
      cases h
      obtain ⟨bytes, hbytes, hfile⟩ := hwritten rfl
      exact ⟨_, hfile, hbytes⟩

end Run

/-! ## What depends on the file tree alone -/

/-- What the step comes to, and the file tree that it leaves, depend on the file tree alone. -/
def DependsOnTree {α : Type} (x : Run α) : Prop :=
  ∀ s t : Session, t.tree = s.tree →
    (ends x t).1 = (ends x s).1 ∧ (ends x t).2.tree = (ends x s).2.tree

namespace DependsOnTree

variable {α β : Type}

/-- A step that looks at nothing but the file tree depends on nothing else. -/
theorem of_steady {x : Run α} (h : Steady SameTree x) : DependsOnTree x := by
  intro s t htree
  have hs : (ends x s).2.tree = s.tree := h.leaves s
  have ht : (ends x t).2.tree = t.tree := h.leaves t
  exact ⟨h.agrees htree, by rw [hs, ht, htree]⟩

/-- A change of the file tree depends on nothing else. -/
theorem change (c : Change α) : DependsOnTree (Run.change c) := by
  intro s t htree
  rw [Run.ends_change, Run.ends_change, htree]
  exact ⟨rfl, rfl⟩

/-- Two steps in a row depend on no more than both do. -/
theorem bind {x : Run α} {f : α → Run β} (hx : DependsOnTree x) (hf : ∀ a, DependsOnTree (f a)) :
    DependsOnTree (x >>= f) := by
  intro s t htree
  obtain ⟨hsame, hleft⟩ := hx _ _ htree
  rw [ends.bind_eq, ends.bind_eq]
  cases hs : ends x s with
  | mk r s' =>
    cases ht : ends x t with
    | mk r' t' =>
      rw [hs, ht] at hsame hleft
      cases hsame
      cases r with
      | error e => exact ⟨rfl, hleft⟩
      | ok a => exact hf a _ _ hleft

/-- Steps for the items of a list depend on no more than each does. -/
theorem forM {f : α → Run PUnit} {items : List α} (h : ∀ a, DependsOnTree (f a)) :
    DependsOnTree (items.forM f) := by
  induction items with
  | nil => exact of_steady (.pure PUnit.unit)
  | cons a rest ih => exact (h a).bind fun _ => ih

/-- A step that may be asked for depends on no more than it does. -/
theorem when {x : Run Unit} (asked : Bool) (hx : DependsOnTree x) :
    DependsOnTree (Run.when asked x) := by
  cases asked with
  | false => exact of_steady (.pure ())
  | true => exact hx

/-- A step that succeeds in a session succeeds in one with the same file tree, and leaves the same
tree. -/
theorem exists_ok {x : Run α} (hx : DependsOnTree x) {s s' t : Session} {a : α}
    (h : ends x s = (.ok a, s')) (htree : t.tree = s.tree) :
    ∃ t', ends x t = (.ok a, t') ∧ t'.tree = s'.tree := by
  obtain ⟨hsame, hleft⟩ := hx _ _ htree
  rw [h] at hsame hleft
  exact ⟨(ends x t).2, Prod.ext hsame rfl, hleft⟩

end DependsOnTree

/-! ## Files of a registry -/

namespace Output

/-- Writing a value writes one file. -/
theorem leaves_writeJson (p : Path) (v : Value) : Leaves (WroteAt (· = p)) (writeJson p v) := by
  refine (Run.leaves_folders _ _).bind fun _ => ?_
  exact (Leaves.when _ (Leaves.throw _)).bind fun _ => Run.leaves_writeText p _

/-- A value that was written is in the file. -/
theorem holds_writeJson {p : Path} {v : Value} {s s' : Session}
    (h : ends (writeJson p v) s = (.ok (), s')) : s'.tree.Holds p (jsonText v) := by
  obtain ⟨-, t, -, h⟩ := ends.of_bind h
  obtain ⟨-, t', -, h⟩ := ends.of_bind h
  exact Run.holds_writeText h

theorem dependsOnTree_writeJson (p : Path) (v : Value) : DependsOnTree (writeJson p v) :=
  (DependsOnTree.change _).bind fun _ =>
    (DependsOnTree.when _ (.of_steady (.throw _))).bind fun _ => .change _

/-- Writing the registry writes its file. -/
theorem leaves_writeRegistry (folder : Path) (r : Registry) :
    Leaves (WroteAt (· = registryFile folder)) (writeRegistry folder r) :=
  (leaves_writeJson _ _).bind fun _ => (Steady.tell _ _).leaves_wroteAt _

/-- A registry that was written is in its file. -/
theorem holds_writeRegistry {folder : Path} {r : Registry} {s s' : Session}
    (h : ends (writeRegistry folder r) s = (.ok (), s')) :
    s'.tree.Holds (registryFile folder) (jsonText r.document) := by
  obtain ⟨⟨⟩, t, hwritten, h⟩ := ends.of_bind h
  cases h
  have hheld := holds_writeJson hwritten
  exact hheld

theorem dependsOnTree_writeRegistry (folder : Path) (r : Registry) :
    DependsOnTree (writeRegistry folder r) :=
  (dependsOnTree_writeJson _ _).bind fun _ => .of_steady (.tell _ _)

theorem dependsOnTree_writeItems (folder : Path) (items : List Item) :
    DependsOnTree (writeItems folder items) :=
  (DependsOnTree.forM fun _ => dependsOnTree_writeJson _ _).bind fun _ => .of_steady (.tell _ _)

/-- Writing the items writes the files of the items. -/
theorem leaves_writeItems (folder : Path) (items : List Item) :
    Leaves (WroteAt fun p => ∃ i ∈ items, p = itemFile folder i) (writeItems folder items) := by
  refine Leaves.bind (Leaves.forM fun i hi => ?_) fun _ =>
    (Steady.tell _ _).leaves_wroteAt _
  exact (leaves_writeJson _ _).mono fun _ _ h => h.mono fun p hp => ⟨i, hi, hp⟩

/-- Checking what was written is steady. -/
theorem steady_checkWritten {R : Session → Session → Prop} [IsView R] (folder : Path) :
    Steady R (checkWritten folder) := by
  refine (Steady.text _).bind fun text => ?_
  cases Value.ofJson text with
  | ok document => exact (Steady.ofExcept _).bind fun _ => .tell _ _
  | error problem => exact .throw _

/-- The item of a story file is among the items. -/
theorem mem_of_itemOf? {items : List Item} {f : StoryFile} {i : Item}
    (h : itemOf? items f = some i) : i ∈ items := by
  unfold itemOf? at h
  split at h
  · cases h
  · exact List.mem_of_find?_eq_some h

/-- The files of an item's page. -/
def IsPageOf (folder : Path) (i : Item) (p : Path) : Prop :=
  p = pageFile folder i ∨ p = examplesFile folder i

/-- Writing a page writes the files of the page. -/
theorem leaves_writePage (folder : Path) (f : StoryFile) (i : Item) :
    Leaves (WroteAt (IsPageOf folder i)) (writePage folder f i) := by
  refine ((Steady.ofExcept _).leaves_wroteAt _).bind fun page => ?_
  refine (Run.leaves_folders _ _).bind fun _ => ?_
  refine Leaves.bind ?_ fun _ => ?_
  · exact (Run.leaves_writeText _ _).mono fun _ _ h => h.mono fun p hp => Or.inl hp
  · exact (leaves_writeJson _ _).mono fun _ _ h => h.mono fun p hp => Or.inr hp

/-- Writing the pages of story files writes the files of the pages of their items. -/
theorem leaves_described {stories : List StoryFile} {items : List Item} (folder : Path)
    {shown : Item → Prop} (h : ∀ f ∈ stories, ∀ i, itemOf? items f = some i → shown i) :
    Leaves (WroteAt fun p => ∃ i, shown i ∧ IsPageOf folder i p)
      ((described stories items).forM fun (f, i) => writePage folder f i) := by
  refine Leaves.forM fun entry hentry => ?_
  obtain ⟨f, hf, hsome⟩ := List.mem_filterMap.1 hentry
  obtain ⟨i, hi, rfl⟩ := Option.map_eq_some_iff.1 hsome
  exact (leaves_writePage folder f i).mono fun _ _ h' => h'.mono fun p hp => ⟨i, h f hf i hi, hp⟩

theorem dependsOnTree_writePages (folder : Path) (stories : List StoryFile) (items : List Item) :
    DependsOnTree (writePages folder stories items) := by
  refine DependsOnTree.bind (DependsOnTree.forM fun entry => ?_) fun _ => .of_steady (.tell _ _)
  exact (DependsOnTree.of_steady (.ofExcept _)).bind fun _ => (DependsOnTree.change _).bind fun _ =>
    (DependsOnTree.change _).bind fun _ => dependsOnTree_writeJson _ _

/-- Writing pages writes the files of the pages. -/
theorem leaves_writePages (folder : Path) (stories : List StoryFile) (items : List Item) :
    Leaves (WroteAt fun p => ∃ i ∈ items, IsPageOf (folder.child pagesFolder) i p)
      (writePages folder stories items) :=
  (leaves_described _ fun _ _ _ => mem_of_itemOf?).bind fun _ =>
    (Steady.tell _ _).leaves_wroteAt _

end Output

end StoryRegistry
