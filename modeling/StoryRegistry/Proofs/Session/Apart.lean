import StoryRegistry.Proofs.Glob.Following
import StoryRegistry.Proofs.Import.Targets
import StoryRegistry.Proofs.Session.Pipeline

/-!
# What a pipeline looks at

A pipeline enumerates the entries that its patterns fit, reads the story files, and for each of them
tries the paths at which its source, its imports and its packages may be. If all these paths are
clear of what was written to some folders, it comes to the registry that it came to before.
-/

set_option autoImplicit false

namespace StoryRegistry

open FileTree (FilledIn)

/-! ## The paths -/

namespace Discovery

/-- The paths that a plain pattern tries below a folder. -/
def tried (t : FileTree) (folder : Path) (pattern : String) : List Path :=
  match Glob.Pattern.ofString pattern with
  | .ok pattern => Glob.visited t pattern.folderOnly pattern.steps folder
  | .error _ => []

/-- The paths that are looked at to find the story files of a project. -/
def looked (settings : Settings) (t : FileTree) : List Path :=
  settings.storybookPath ::
    if (t.isFolder settings.storybookPath).toOption.getD false then
      (settings.storiesPatterns.flatMap Glob.expand).flatMap (tried t settings.storybookPath)
    else []

end Discovery

namespace Import

/-- The paths that are tried for a relative specifier. -/
def tried (t : FileTree) (specifier importer : String) : List Path :=
  t.tried ((candidates (target specifier importer)).map Path.ofString)

/-- The paths that are looked at for the dependency that a specifier makes. -/
def looked (settings : Settings) (t : FileTree) (importer specifier : String) : List Path :=
  if Specifier.isFramework specifier then []
  else
    match Specifier.kind specifier with
    | .internal => tried t specifier importer
    | .npm => t.tried (manifests settings.root (Specifier.package specifier))
    | .registryExternal => []

end Import

namespace Analysis

/-- The path that a component's import leads to, whether or not there is a file. -/
def imported (t : FileTree) (f : StoryFile) : Except FileError String :=
  if Specifier.isRelative f.componentPath then Import.resolve t f.componentPath f.path
  else .ok f.componentPath

/-- The file that a component's import leads to. -/
def named? (t : FileTree) (f : StoryFile) : Except FileError (Option String) :=
  if f.componentPath.isEmpty then .ok none
  else do Import.firstFile? t [← imported t f]

/-- The paths that are tried for a component's import. -/
def namedTried (t : FileTree) (f : StoryFile) : List Path :=
  if f.componentPath.isEmpty then []
  else
    (if Specifier.isRelative f.componentPath then Import.tried t f.componentPath f.path else []) ++
      (imported t f).toOption.toList.map Path.ofString

/-- The paths that are tried for the source file of a component. -/
def sourceTried (settings : Settings) (t : FileTree) (f : StoryFile) : List Path :=
  namedTried t f ++
    match named? t f with
    | .ok none => t.tried ((Discovery.componentCandidates f.path (some settings.componentsPath)
        [f.componentName]).map Path.ofString)
    | _ => []

/-- The paths that are looked at for the analysis of a story file. -/
def looked (settings : Settings) (t : FileTree) (f : StoryFile) : List Path :=
  Path.ofString f.path ::
    (sourceTried settings t f ++ f.dependencies.flatMap (Import.looked settings t f.path))

end Analysis

/-- The paths that are looked at to make the registry of a project. What is followed to search for
cycles is not among them: it does not go into the registry. -/
def Pipeline.looked (settings : Settings) (s : Session) : List Path :=
  let paths := (ends (Discovery.storyFiles settings) s).1.toOption.getD []
  Discovery.looked settings s.tree ++ paths.map (Stories.place s.tree) ++
    (Stories.allInSession s paths).flatMap (Analysis.looked settings s.tree)

/-! ## Finding story files -/

namespace Discovery

variable {outputs : List Path} {t t' : FileTree} {folder : Path}

/-- A plain pattern selects the files among the paths that it leads to. -/
theorem selected_eq_ok_iff {pattern : String} {files : List String} :
    selected t folder pattern = .ok files ↔ ∃ way found kept, Glob.Pattern.ofString pattern = .ok way ∧
      Glob.follow t way.folderOnly way.steps folder = .ok found ∧ found.filterM t.isFile = .ok kept ∧
        files = kept.map fun p => Path.normalize ((Path.mk 1 t.here).resolve p).toText := by
  unfold selected Glob.select
  cases hway : Glob.Pattern.ofString pattern with
  | error e => exact ⟨nofun, nofun⟩
  | ok way =>
    dsimp only [bind, Except.bind]
    cases hfound : Glob.follow t way.folderOnly way.steps folder with
    | error e => simp [hfound]
    | ok found =>
      dsimp only
      cases hkept : found.filterM t.isFile with
      | error e => simp [hfound, hkept]
      | ok kept => simp [hfound, hkept, eq_comm]

/-- A plain pattern that tries only clear paths selects the files that it selected; from a folder that
is new it selects none. -/
theorem selected_of_filledIn (h : FilledIn outputs t t') (hproper : t.IsProper)
    (hfolder : t.Clear outputs folder) {pattern : String}
    (hclear : ∀ q ∈ tried t' folder pattern, t.Clear outputs q) {files : List String}
    (hselected : selected t' folder pattern = .ok files) :
    (t.isVacant folder = false → selected t folder pattern = .ok files) ∧
      (t.isVacant folder = true → t'.isVacant folder = false → files = []) := by
  obtain ⟨way, found, kept, hway, hfound, hkept, rfl⟩ := selected_eq_ok_iff.1 hselected
  unfold tried at hclear
  rw [hway] at hclear
  have hsame : ∀ q ∈ found, t'.isFile q = t.isFile q := fun q hq =>
    h.isFile_of_clear ((Glob.mem_visited_of_follow hfound hq).elim (fun heq => heq ▸ hfolder)
      fun hq => hclear q hq)
  obtain ⟨hok, rfl⟩ := filterM_eq_ok_iff.1 hkept
  have hnone {q : Path} (hq : q ∈ found) (hvacant : t.isVacant q = true) :
      (t'.isFile q).toOption.getD false = false := by
    obtain ⟨there, hthere⟩ := hok q hq
    cases there with
    | false => rw [hthere]; rfl
    | true =>
      rw [FileTree.isVacant_of_test (fun _ => rfl) ((hsame q hq).symm.trans hthere)] at hvacant
      cases hvacant
  constructor
  · intro hthere
    refine selected_eq_ok_iff.2 ⟨way, _, _, hway,
      Glob.follow_of_filledIn h hproper hfolder hthere hclear hfound,
      filterM_eq_ok_iff.2 ⟨fun q hq => ?_, rfl⟩, ?_⟩
    · have hmem := List.mem_of_mem_filter hq
      rw [← hsame q hmem]
      exact hok q hmem
    · rw [h.here, List.filter_filter]
      refine congrArg _ (List.filter_congr fun q hq => ?_)
      rw [← hsame q hq]
      cases hvacant : t.isVacant q with
      | true => rw [hnone hq hvacant]; rfl
      | false => simp
  · intro hvacant hthere
    have hstays := Glob.eq_of_mem_follow h (h.reserved_of_new hfolder hvacant hthere) hclear hfound
    rw [List.filter_eq_nil_iff.2 fun q hq => by
      rw [hnone hq (hstays q hq ▸ hvacant)]
      decide]
    rfl

/-- All patterns select what each of them selects. -/
theorem allSelected_eq_ok_iff {patterns paths : List String} :
    allSelected t folder patterns = .ok paths ↔ ∃ found,
      List.Forall₂ (fun pattern files => selected t folder pattern = .ok files)
        (patterns.flatMap Glob.expand) found ∧
          paths = Text.sorted (Glob.distinct found.flatten) := by
  unfold allSelected
  rw [bind_eq_ok_iff]
  refine exists_congr fun found => and_congr mapM_eq_ok_iff ?_
  exact ⟨fun h => (Except.ok.inj h).symm, fun h => congrArg Except.ok h.symm⟩

/-- The story files are those that the patterns select and that are not excluded, if there is the
folder. -/
theorem storyFiles_eq_ok_iff {settings : Settings} {s : Session} {paths : List String} :
    (ends (storyFiles settings) s).1 = .ok paths ↔
      (s.tree.isFolder settings.storybookPath = .ok false ∧ paths = []) ∨
        (s.tree.isFolder settings.storybookPath = .ok true ∧ ∃ found,
          allSelected s.tree settings.storybookPath settings.storiesPatterns = .ok found ∧
            paths = found.filter fun path => !isExcluded settings.excludePatterns path) := by
  unfold storyFiles
  cases hfolder : s.tree.isFolder settings.storybookPath with
  | error e =>
    rw [ends.bind_of_error (by rw [ends.look_eq, hfolder]; rfl)]
    simp
  | ok there =>
    rw [ends.bind_of_ok (by rw [ends.look_eq, hfolder]; rfl)]
    cases there with
    | false =>
      show (Except.ok [] : Except Failure (List String)) = .ok paths ↔ _
      simp [eq_comm]
    | true =>
      have htree : ends Run.tree s = (.ok s.tree, s) := rfl
      rw [if_pos rfl, ends.bind_of_ok htree]
      cases hall : allSelected s.tree settings.storybookPath settings.storiesPatterns with
      | error e =>
        show (Except.error e : Except Failure (List String)) = .ok paths ↔ _
        simp
      | ok found =>
        show (Except.ok _ : Except Failure (List String)) = .ok paths ↔ _
        simp [eq_comm]

/-- Where all that is looked at is clear, the story files that are found are those that were found. -/
theorem storyFiles_of_filledIn {settings : Settings} {s s' : Session}
    (h : FilledIn outputs s.tree s'.tree) (hproper : s.tree.IsProper)
    (hclear : ∀ p ∈ looked settings s'.tree, s.tree.Clear outputs p) {paths : List String}
    (hfound : (ends (storyFiles settings) s').1 = .ok paths) :
    (ends (storyFiles settings) s).1 = .ok paths := by
  have hfolder := hclear settings.storybookPath List.mem_cons_self
  rw [storyFiles_eq_ok_iff] at hfound ⊢
  rcases hfound with ⟨hnone, rfl⟩ | ⟨hthere, found, hall, rfl⟩
  · refine .inl ⟨?_, rfl⟩
    exact h.test_of_clear hfolder (fun _ => rfl) hnone
  have hpatterns : ∀ pattern ∈ settings.storiesPatterns.flatMap Glob.expand,
      ∀ q ∈ tried s'.tree settings.storybookPath pattern, s.tree.Clear outputs q := by
    intro pattern hpattern q hq
    refine hclear q (List.mem_cons_of_mem _ ?_)
    rw [hthere]
    exact List.mem_flatMap.2 ⟨pattern, hpattern, hq⟩
  have hwas := h.test_of_clear hfolder (fun _ => rfl) hthere
  obtain ⟨lists, hlists, rfl⟩ := allSelected_eq_ok_iff.1 hall
  cases hvacant : s.tree.isVacant settings.storybookPath with
  | false =>
    rw [hvacant] at hwas
    refine .inr ⟨hwas, _, allSelected_eq_ok_iff.2 ⟨lists, ?_, rfl⟩, rfl⟩
    refine ((List.forall₂_and_left _ _).2 ⟨hpatterns, hlists⟩).imp fun pattern files hfiles => ?_
    exact (selected_of_filledIn h hproper hfolder hfiles.1 hfiles.2).1 hvacant
  | true =>
    rw [hvacant] at hwas
    refine .inl ⟨hwas, ?_⟩
    have hnew := FileTree.isVacant_of_isFolder hthere
    have hnone : lists.flatten = [] := by
      refine List.flatten_eq_nil_iff.2 fun files hfiles => ?_
      obtain ⟨pattern, hpattern, hselected⟩ := exists_of_forall₂ hlists hfiles
      exact (selected_of_filledIn h hproper hfolder (hpatterns pattern hpattern) hselected).2 hvacant
        hnew
    rw [hnone]
    rfl

end Discovery

/-! ## Steps that come to the same -/

/-- The step comes to the same in both sessions. -/
def Run.Same {α : Type} (s s' : Session) (x : Run α) : Prop := (ends x s').1 = (ends x s).1

namespace Run.Same

variable {α β : Type} {s s' : Session}

/-- Two steady steps in a row come to the same if the first one does, and the second one with what the
first one comes to. -/
theorem bind {R : Session → Session → Prop} [IsView R] {x : Run α} {f : α → Run β}
    (hx : Steady R x) (hf : ∀ a, Steady R (f a)) (h : Same s s' x)
    (hnext : ∀ a, (ends x s).1 = .ok a → Same s s' (f a)) : Same s s' (x >>= f) := by
  unfold Same at h ⊢
  rw [hx.fst_bind hf, hx.fst_bind hf, h]
  exact bind_congr_ok hnext

/-- Steady steps for the items of a list come to the same if each of them does. -/
theorem mapM {R : Session → Session → Prop} [IsView R] {f : α → Run β} (hf : ∀ a, Steady R (f a))
    {items : List α} (h : ∀ a ∈ items, Same s s' (f a)) : Same s s' (items.mapM f) := by
  induction items with
  | nil => rfl
  | cons a rest ih =>
    rw [List.mapM_cons]
    refine bind (hf a) (fun b => (Steady.mapM hf).bind fun more => .pure _) (h a List.mem_cons_self)
      fun b _ => bind (Steady.mapM hf) (fun more => .pure _)
        (ih fun c hc => h c (List.mem_cons_of_mem _ hc)) fun more _ => rfl

/-- Looking something up comes to the same where both trees say the same. -/
theorem look {f : FileTree → Except FileError α} (h : f s'.tree = f s.tree) :
    Same s s' (Run.look f) := by
  unfold Same
  rw [ends.look_eq, ends.look_eq, h]

/-- An outcome is the same in any session. -/
theorem ofExcept (outcome : Except Failure α) : Same s s' (Run.ofExcept outcome) := by
  cases outcome <;> rfl

variable {outputs : List Path} {p : Path}

/-- What is made of the text at a clear path comes to the same, if it does not matter why a file cannot
be read. -/
theorem attempt_text (h : FilledIn outputs s.tree s'.tree) (hp : s.tree.Clear outputs p)
    {f : Except Failure String → Run β} (hf : ∀ outcome, Same s s' (f outcome))
    (hfault : ∀ kind kind' text, (ends (f (.error (.file (.fault kind' text)))) s').1 =
      (ends (f (.error (.file (.fault kind text)))) s).1) :
    Same s s' (Run.attempt (Run.text p) >>= f) := by
  unfold Same Run.text
  rw [ends.bind_of_ok (ends.attempt_eq _ s), ends.bind_of_ok (ends.attempt_eq _ s'), ends.look_eq,
    ends.look_eq]
  rcases h.readText_of_clear hp with hsame | ⟨kind, kind', hmissing, hmissing'⟩
  · rw [hsame]
    exact hf _
  · rw [hmissing, hmissing']
    exact hfault kind kind' _

end Run.Same

/-! ## Reading story files -/

namespace Stories

variable {outputs : List Path} {s s' : Session}

/-- The story file at a path that is read is that which was read. -/
theorem inSession?_eq_some_iff {path : String} {f : StoryFile} :
    inSession? s path = some f ↔ (ends (read path) s).1 = .ok f := by
  unfold inSession?
  cases (ends (read path) s).1 <;> simp [Except.toOption]

/-- Where clear paths are read the same story files are. -/
theorem inSession?_of_filledIn (h : FilledIn outputs s.tree s'.tree) {path : String}
    (hp : s.tree.Clear outputs (place s'.tree path)) : inSession? s' path = inSession? s path := by
  have hplace : place s'.tree path = place s.tree path := by
    unfold place
    rw [h.here]
  refine Option.ext fun f => ?_
  rw [inSession?_eq_some_iff, inSession?_eq_some_iff, read_eq_ok_iff, read_eq_ok_iff, ← hplace]
  rcases h.readText_of_clear hp with hsame | ⟨kind, kind', hmissing, hmissing'⟩
  · rw [hsame]
  · rw [hmissing, hmissing']
    exact ⟨nofun, nofun⟩

theorem allInSession_of_filledIn (h : FilledIn outputs s.tree s'.tree) {paths : List String}
    (hpaths : ∀ path ∈ paths, s.tree.Clear outputs (place s'.tree path)) :
    allInSession s' paths = allInSession s paths :=
  List.filterMap_congr fun path hpath => inSession?_of_filledIn h (hpaths path hpath)

end Stories

/-! ## Imports -/

namespace Import

variable {outputs : List Path} {t t' : FileTree}

/-- Among clear paths the first file is that which was the first. -/
theorem firstFile?_of_filledIn (h : FilledIn outputs t t') {paths : List String}
    (hclear : ∀ p ∈ t'.tried (paths.map Path.ofString), t.Clear outputs p) :
    firstFile? t' paths = firstFile? t paths := by
  induction paths with
  | nil => rfl
  | cons path rest ih =>
    have hsame := h.isFile_of_clear (hclear (Path.ofString path) List.mem_cons_self)
    unfold firstFile?
    rw [hsame]
    cases hfile : t.isFile (Path.ofString path) with
    | error e => rfl
    | ok there =>
      cases there with
      | true => rfl
      | false =>
        refine ih fun p hp => hclear p (List.mem_cons_of_mem _ ?_)
        rw [hsame, hfile]
        exact hp

/-- Among clear paths the first manifest is that which was the first. -/
theorem firstManifest?_of_filledIn (h : FilledIn outputs t t') {paths : List Path}
    (hclear : ∀ p ∈ t'.tried paths, t.Clear outputs p) :
    firstManifest? t' paths = firstManifest? t paths := by
  induction paths with
  | nil => rfl
  | cons path rest ih =>
    have hsame := h.isFile_of_clear (hclear path List.mem_cons_self)
    unfold firstManifest?
    rw [hsame]
    cases hfile : t.isFile path with
    | error e => rfl
    | ok there =>
      cases there with
      | true => rfl
      | false =>
        refine ih fun p hp => hclear p (List.mem_cons_of_mem _ ?_)
        rw [hsame, hfile]
        exact hp

/-- The manifest that is found was tried. -/
theorem mem_tried_of_firstManifest? {paths : List Path} {p : Path}
    (h : firstManifest? t paths = .ok (some p)) : p ∈ t.tried paths := by
  induction paths with
  | nil => cases h
  | cons path rest ih =>
    unfold firstManifest? at h
    unfold FileTree.tried
    cases hfile : t.isFile path with
    | error e =>
      rw [hfile] at h
      cases h
    | ok there =>
      rw [hfile] at h
      cases there with
      | true =>
        cases h
        exact List.mem_cons_self
      | false => exact List.mem_cons_of_mem _ (ih h)

/-- The first file was tried. -/
theorem mem_tried_of_firstFile? {paths : List String} {path : String}
    (h : firstFile? t paths = .ok (some path)) :
    Path.ofString path ∈ t.tried (paths.map Path.ofString) := by
  apply mem_tried_of_firstManifest?
  rw [firstManifest?_map, h]
  rfl

/-- A relative specifier for which clear paths are tried refers to what it referred to. -/
theorem resolve_of_filledIn (h : FilledIn outputs t t') {specifier importer : String}
    (hclear : ∀ p ∈ tried t' specifier importer, t.Clear outputs p) :
    resolve t' specifier importer = resolve t specifier importer := by
  unfold resolve
  dsimp only
  rw [firstFile?_of_filledIn h hclear]

variable {settings : Settings} {s s' : Session}

/-- Reading a clear manifest comes to the same version. -/
theorem same_readVersion (h : FilledIn outputs s.tree s'.tree) {p : Path}
    (hp : s.tree.Clear outputs p) : Run.Same s s' (readVersion p) := by
  refine Run.Same.attempt_text h hp (fun outcome => ?_) fun kind kind' text => rfl
  cases outcome with
  | ok text =>
    dsimp only
    cases Value.ofJson text <;> rfl
  | error e =>
    dsimp only
    cases e.unread? <;> rfl

/-- Where clear paths are tried for the manifest of a package the same version is found. -/
theorem same_installed (h : FilledIn outputs s.tree s'.tree) {package : String}
    (hclear : ∀ p ∈ s'.tree.tried (manifests settings.root package), s.tree.Clear outputs p) :
    Run.Same s s' (installed settings package) := by
  have hsame := firstManifest?_of_filledIn h hclear
  refine Run.Same.bind (R := SameTree) (Steady.look _) (fun found => ?_) (Run.Same.look hsame)
    fun found hfound => ?_
  · cases found with
    | none => exact .pure _
    | some p => exact steady_readVersion p
  · cases found with
    | none => rfl
    | some p =>
      refine same_readVersion h (hclear p (mem_tried_of_firstManifest? ?_))
      rw [hsame]
      rw [ends.look_eq] at hfound
      cases hfirst : firstManifest? s.tree (manifests settings.root package) with
      | error e =>
        rw [hfirst] at hfound
        cases hfound
      | ok other =>
        rw [hfirst] at hfound
        cases hfound
        rfl

end Import

/-- The one session has come out of the other by writing to the outputs and by looking up packages: what
it knows of packages whose manifests are clear of the outputs is what was known. -/
structure Onward (settings : Settings) (outputs : List Path) (s s' : Session) : Prop where
  filled : FilledIn outputs s.tree s'.tree
  known : ∀ package, (∀ p ∈ s.tree.tried (Import.manifests settings.root package),
    s.tree.Clear outputs p) → Import.known settings s' package = Import.known settings s package

namespace Onward

variable {settings : Settings} {outputs : List Path} {s s' : Session}

instance : Std.Refl (Onward settings outputs) where
  refl _ := ⟨refl_of _ _, fun _ _ => rfl⟩

instance : IsTrans Session (Onward settings outputs) where
  trans s s' s'' h h' := by
    refine ⟨trans_of _ h.filled h'.filled, fun package hclear => ?_⟩
    rw [← h.known package hclear]
    refine h'.known package fun p hp => ?_
    rw [FileTree.tried_congr fun q hq => h.filled.isFile_of_clear (hclear q hq)] at hp
    exact h.filled.clear (hclear p hp)

/-- Looking things up goes onward. -/
theorem of_sameLookups (h : Import.SameLookups settings s s') : Onward settings outputs s s' := by
  refine ⟨?_, fun package _ => h.2 package⟩
  rw [h.1]
  exact refl_of _ s.tree

/-- Writing to the outputs goes onward. -/
theorem of_filledIn (h : FilledIn outputs s.tree s'.tree) (hmemo : s'.versions = s.versions) :
    Onward settings outputs s s' := by
  refine ⟨h, fun package hclear => ?_⟩
  unfold Import.known
  rw [hmemo]
  cases Table.get? package s.versions with
  | some version => rfl
  | none =>
    refine Import.same_installed h fun p hp => ?_
    rw [FileTree.tried_congr fun q hq => h.isFile_of_clear (hclear q hq)] at hp
    exact hclear p hp

end Onward

/-! ## Analyses -/

variable {settings : Settings} {outputs : List Path} {s s' : Session}

namespace Import

/-- Where clear paths are looked at, a specifier makes the dependency that it made. -/
theorem same_dependency? (h : Onward settings outputs s s') {importer specifier : String}
    (hclear : ∀ p ∈ looked settings s'.tree importer specifier, s.tree.Clear outputs p) :
    Run.Same s s' (dependency? settings importer specifier) := by
  unfold looked at hclear
  unfold dependency?
  split
  · rfl
  · rename_i hframework
    rw [if_neg hframework] at hclear
    cases hkind : Specifier.kind specifier with
    | internal =>
      rw [hkind] at hclear
      exact Run.Same.bind (R := SameTree) (Steady.look _) (fun _ => .pure _)
        (Run.Same.look (resolve_of_filledIn h.filled hclear)) fun _ _ => rfl
    | npm =>
      rw [hkind] at hclear
      refine Run.Same.bind (R := SameLookups settings) (IsLookup.steady_version specifier)
        (fun _ => .pure _) ?_ fun _ _ => rfl
      unfold Run.Same
      rw [(ends_version settings specifier s).1, (ends_version settings specifier s').1]
      refine h.known _ fun p hp => ?_
      rw [FileTree.tried_congr fun q hq => (h.filled.isFile_of_clear (hclear q hq)).symm] at hp
      exact hclear p hp
    | registryExternal => rfl

/-- Where clear paths are looked at, specifiers make the dependencies that they made. -/
theorem same_dependencies (h : Onward settings outputs s s') {importer : String}
    {specifiers : List String}
    (hclear : ∀ p ∈ specifiers.flatMap (looked settings s'.tree importer),
      s.tree.Clear outputs p) :
    Run.Same s s' (dependencies settings importer specifiers) := by
  have hsteady : ∀ specifier, Steady (SameLookups settings)
      (dependency? settings importer specifier) := steady_dependency? importer
  refine Run.Same.bind (Steady.mapM hsteady) (fun _ => .pure _)
    (Run.Same.mapM hsteady fun specifier hspecifier => ?_) fun _ _ => rfl
  exact same_dependency? h fun p hp => hclear p (List.mem_flatMap.2 ⟨specifier, hspecifier, hp⟩)

end Import

/-- A file of a component without its size. -/
def ComponentFile.withoutSize (file : ComponentFile) : ComponentFile := { file with size := 0 }

namespace Analysis

variable {t t' : FileTree} {f : StoryFile}

/-- The source file of a component is what its import leads to, or else the first file at one of the
usual paths. -/
theorem sourceFile?_eq (t : FileTree) (settings : Settings) (f : StoryFile) :
    sourceFile? t settings f = (do
      match ← named? t f with
      | some path => return some path
      | none => Discovery.component? t f.path (some settings.componentsPath) [f.componentName]) := by
  unfold sourceFile? named? imported
  -- the usual paths are of no interest here
  generalize Discovery.component? t f.path (some settings.componentsPath) [f.componentName] = other
  dsimp only
  cases f.componentPath.isEmpty with
  | true => rfl
  | false =>
    cases Specifier.isRelative f.componentPath with
    | true => cases Import.resolve t f.componentPath f.path <;> rfl
    | false => rfl

/-- The file that a component's import leads to was tried. -/
theorem mem_namedTried {path : String} (h : named? t f = .ok (some path)) :
    Path.ofString path ∈ namedTried t f := by
  unfold named? at h
  unfold namedTried
  split at h
  · cases h
  · rename_i hempty
    rw [if_neg hempty]
    obtain ⟨target, htarget, hfile⟩ := bind_eq_ok_iff.1 h
    have htried := Import.mem_tried_of_firstFile? hfile
    rw [List.map_singleton, FileTree.tried_singleton] at htried
    rw [htarget]
    exact List.mem_append_right _ htried

/-- A component's import for which clear paths are tried leads to the file that it led to. -/
theorem named?_of_filledIn (h : FilledIn outputs t t')
    (hclear : ∀ p ∈ namedTried t' f, t.Clear outputs p) : named? t' f = named? t f := by
  unfold namedTried at hclear
  unfold named?
  split
  · rfl
  · rename_i hempty
    rw [if_neg hempty] at hclear
    have himported : imported t' f = imported t f := by
      unfold imported
      split
      · rename_i hrelative
        refine Import.resolve_of_filledIn h fun p hp => hclear p (List.mem_append_left _ ?_)
        rw [if_pos hrelative]
        exact hp
      · rfl
    rw [himported] at hclear ⊢
    refine bind_congr_ok fun target htarget => Import.firstFile?_of_filledIn h fun p hp => ?_
    rw [List.map_singleton, FileTree.tried_singleton] at hp
    refine hclear p (List.mem_append_right _ ?_)
    rw [htarget]
    exact hp

/-- Where clear paths are tried the source file of a component is what it was. -/
theorem sourceFile?_of_filledIn (h : FilledIn outputs t t')
    (hclear : ∀ p ∈ sourceTried settings t' f, t.Clear outputs p) :
    sourceFile? t' settings f = sourceFile? t settings f := by
  unfold sourceTried at hclear
  have hnamed := named?_of_filledIn h fun p hp => hclear p (List.mem_append_left _ hp)
  rw [hnamed] at hclear
  rw [sourceFile?_eq, sourceFile?_eq, hnamed]
  cases hfile : named? t f with
  | error e => dsimp only [bind, Except.bind]
  | ok file =>
    cases file with
    | some path => dsimp only [bind, Except.bind]
    | none =>
      rw [hfile] at hclear
      dsimp only [bind, Except.bind] at hclear ⊢
      unfold Discovery.component?
      exact Import.firstFile?_of_filledIn h fun p hp => hclear p (List.mem_append_right _ hp)

/-- The source file of a component was tried. -/
theorem mem_sourceTried {path : String} (h : sourceFile? t settings f = .ok (some path)) :
    Path.ofString path ∈ sourceTried settings t f := by
  rw [sourceFile?_eq] at h
  unfold sourceTried
  cases hfile : named? t f with
  | error e =>
    rw [hfile] at h
    cases h
  | ok file =>
    rw [hfile] at h
    dsimp only [bind, Except.bind] at h
    cases file with
    | some other =>
      cases h
      exact List.mem_append_left _ (mem_namedTried hfile)
    | none =>
      unfold Discovery.component? at h
      exact List.mem_append_right _ (Import.mem_tried_of_firstFile? h)

/-- Counting the lines of a story file at a clear path comes to the same. -/
theorem same_storyLines (h : FilledIn outputs s.tree s'.tree)
    (hp : s.tree.Clear outputs (Path.ofString f.path)) : Run.Same s s' (storyLines Run.text f) := by
  refine Run.Same.attempt_text h hp (fun outcome => ?_) fun kind kind' text => rfl
  cases outcome with
  | ok text => rfl
  | error e =>
    dsimp only
    cases e.unread?.isSome <;> rfl

/-- Measuring a source file at a clear path comes to the same. -/
theorem same_sourceSize? (h : FilledIn outputs s.tree s'.tree) {source : Option String}
    (hsource : ∀ path, source = some path → s.tree.Clear outputs (Path.ofString path)) :
    Run.Same s s' (sourceSize? Run.text source) := by
  cases source with
  | none => rfl
  | some path =>
    refine Run.Same.attempt_text h (hsource path rfl) (fun outcome => ?_) fun kind kind' text => rfl
    cases outcome with
    | ok text => rfl
    | error e =>
      dsimp only
      cases e.unread? <;> rfl

/-- Measuring a component whose files are at clear paths comes to the same. -/
theorem same_measured (h : FilledIn outputs s.tree s'.tree) {source : Option String}
    (hp : s.tree.Clear outputs (Path.ofString f.path))
    (hsource : ∀ path, source = some path → s.tree.Clear outputs (Path.ofString path)) :
    Run.Same s s' (measured Run.text f source) := by
  refine Run.Same.bind (R := SameTree) (steady_storyLines Steady.text f) (fun lines => ?_)
    (same_storyLines h hp) fun lines _ => ?_
  · refine (steady_sourceSize? Steady.text source).bind fun size => ?_
    cases size <;> exact .pure _
  · refine Run.Same.bind (R := SameTree) (steady_sourceSize? Steady.text source) (fun size => ?_)
      (same_sourceSize? h hsource) fun size _ => ?_
    · cases size <;> exact .pure _
    · cases size <;> rfl

/-- The analysis without the sizes of the files. -/
def withoutSizes (a : Analysis) : Analysis :=
  { a with files := a.files.map ComponentFile.withoutSize }

/-- The files of a component at clear paths are what they were, but for their sizes. -/
theorem filesOf_of_filledIn (h : FilledIn outputs t t') {source : Option String}
    (hp : t.Clear outputs (Path.ofString f.path))
    (hsource : ∀ path, source = some path → t.Clear outputs (Path.ofString path)) :
    (filesOf t' f source).map (List.map ComponentFile.withoutSize) =
      (filesOf t f source).map (List.map ComponentFile.withoutSize) := by
  unfold filesOf
  rcases h.size_of_clear hp with hstory | ⟨size, size', hstory, hstory'⟩
  · rw [hstory]
    cases source with
    | none => rfl
    | some path =>
      dsimp only
      rcases h.size_of_clear (hsource path rfl) with hfile | ⟨size, size', hfile, hfile'⟩
      · rw [hfile]
      · rw [hfile, hfile']
        cases t.size (Path.ofString f.path) <;> rfl
  · rw [hstory, hstory']
    cases source with
    | none => rfl
    | some path =>
      dsimp only
      rcases h.size_of_clear (hsource path rfl) with hfile | ⟨size, size', hfile, hfile'⟩
      · rw [hfile]
        cases t.size (Path.ofString path) <;> rfl
      · rw [hfile, hfile']
        rfl

/-- An analysis for which clear paths are looked at comes to the same, but for the sizes of files. -/
theorem same_ofStory (h : Onward settings outputs s s')
    (hclear : ∀ p ∈ looked settings s'.tree f, s.tree.Clear outputs p) :
    Run.Same s s' (withoutSizes <$> ofStory settings Run.text f) := by
  have hstory := hclear _ List.mem_cons_self
  have hsourceTried : ∀ p ∈ sourceTried settings s'.tree f, s.tree.Clear outputs p :=
    fun p hp => hclear p (List.mem_cons_of_mem _ (List.mem_append_left _ hp))
  have hdependencies : ∀ p ∈ f.dependencies.flatMap (Import.looked settings s'.tree f.path),
      s.tree.Clear outputs p :=
    fun p hp => hclear p (List.mem_cons_of_mem _ (List.mem_append_right _ hp))
  have hsame := sourceFile?_of_filledIn h.filled hsourceTried
  unfold ofStory
  simp only [map_bind]
  refine Run.Same.bind (R := Import.SameLookups settings) (Steady.look _) (fun source => ?_)
    (Run.Same.look hsame) fun source hsource => ?_
  · refine (steady_measured Steady.text f source).bind fun counts =>
      (Steady.ofExcept _).bind fun score => (Import.steady_dependencies f.path _).bind fun dependencies =>
        (Steady.look _).bind fun files => ?_
    exact Steady.map _ (.pure _)
  have hclearSource : ∀ path, source = some path → s.tree.Clear outputs (Path.ofString path) := by
    rintro path rfl
    refine hsourceTried _ (mem_sourceTried (hsame.trans ?_))
    rw [ends.look_eq] at hsource
    exact eq_ok_of_mapError hsource
  refine Run.Same.bind (R := Import.SameLookups settings) (steady_measured Steady.text f source)
    (fun counts => ?_) (same_measured h.filled hstory hclearSource) fun counts _ => ?_
  · refine (Steady.ofExcept _).bind fun score =>
      (Import.steady_dependencies f.path _).bind fun dependencies => (Steady.look _).bind fun files => ?_
    exact Steady.map _ (.pure _)
  refine Run.Same.bind (R := Import.SameLookups settings) (Steady.ofExcept _) (fun score => ?_)
    (Run.Same.ofExcept counts.score) fun score _ => ?_
  · refine (Import.steady_dependencies f.path _).bind fun dependencies =>
      (Steady.look _).bind fun files => ?_
    exact Steady.map _ (.pure _)
  refine Run.Same.bind (R := Import.SameLookups settings) (Import.steady_dependencies f.path _)
    (fun dependencies => ?_) (Import.same_dependencies h hdependencies) fun dependencies _ => ?_
  · exact (Steady.look _).bind fun files => Steady.map _ (.pure _)
  have hfiles := filesOf_of_filledIn h.filled hstory hclearSource
  unfold Run.Same
  rw [ends.bind_eq, ends.bind_eq, ends.look_eq, ends.look_eq]
  cases hnow : filesOf s'.tree f source with
  | error e =>
    cases hbefore : filesOf s.tree f source with
    | error e' =>
      rw [hnow, hbefore] at hfiles
      cases hfiles
      rfl
    | ok files' =>
      rw [hnow, hbefore] at hfiles
      cases hfiles
  | ok files =>
    cases hbefore : filesOf s.tree f source with
    | error e' =>
      rw [hnow, hbefore] at hfiles
      cases hfiles
    | ok files' =>
      rw [hnow, hbefore] at hfiles
      have hsizes : files.map ComponentFile.withoutSize = files'.map ComponentFile.withoutSize :=
        Except.ok.inj hfiles
      have hpaths (root : String) : files.map (fun file => Path.below root file.path) =
          files'.map fun file => Path.below root file.path := by
        have hmapped := congrArg (List.map fun file => Path.below root file.path) hsizes
        rwa [List.map_map, List.map_map] at hmapped
      simp only [Except.mapError, map_pure, ends.pure_eq, withoutSizes, hpaths, hsizes]

/-- A story file for which clear paths are looked at gets the analysis that it got, but for the sizes of
files. -/
theorem inSession_of_onward (h : Onward settings outputs s s')
    (hclear : ∀ p ∈ looked settings s'.tree f, s.tree.Clear outputs p) :
    (inSession settings s' f).withoutSizes = (inSession settings s f).withoutSizes := by
  have hsame := same_ofStory h hclear
  unfold Run.Same at hsame
  rw [ends.map_eq, ends.map_eq] at hsame
  unfold inSession
  cases hnow : (ends (ofStory settings Run.text f) s').1 with
  | error e =>
    cases hbefore : (ends (ofStory settings Run.text f) s).1 with
    | error e' => rfl
    | ok analysis =>
      rw [hnow, hbefore] at hsame
      cases hsame
  | ok analysis =>
    cases hbefore : (ends (ofStory settings Run.text f) s).1 with
    | error e' =>
      rw [hnow, hbefore] at hsame
      cases hsame
    | ok other =>
      rw [hnow, hbefore] at hsame
      exact Except.ok.inj hsame

end Analysis

/-! ## What does not depend on the sizes of files -/

theorem Measure.size_withoutSizes (m : Measure) (f : StoryFile) (analysis : Option Analysis) :
    m.size f (analysis.map Analysis.withoutSizes) = m.size f analysis := by
  cases analysis with
  | none => rfl
  | some a => cases m <;> simp [size, Analysis.withoutSizes]

/-- The type of an item does not depend on the sizes of files. -/
theorem Settings.itemType_withoutSizes (settings : Settings) (f : StoryFile)
    (analysis : Option Analysis) :
    settings.itemType f (analysis.map Analysis.withoutSizes) = settings.itemType f analysis := by
  have happlies (r : TypeRule) (path : String) :
      r.applies path f (analysis.map Analysis.withoutSizes) = r.applies path f analysis := by
    unfold TypeRule.applies TypeRule.isMet
    simp only [Measure.size_withoutSizes]
  unfold itemType
  simp only [happlies]
  cases analysis <;> rfl

namespace Assembly

/-- What becomes of a story file does not depend on the sizes of files. -/
theorem outcome_withoutSizes (settings : Settings) (owners : Table String) (f : StoryFile)
    (analysis : Option Analysis) :
    outcome settings owners f (analysis.map Analysis.withoutSizes) =
      outcome settings owners f analysis := by
  unfold outcome item draft
  rw [Settings.itemType_withoutSizes]

/-- What becomes of story files does not depend on the sizes of files. -/
theorem outcomes_withoutSizes (settings : Settings) (owners : Table String)
    (stories : List StoryFile) (analyses : List (Option Analysis)) :
    outcomes settings owners stories (analyses.map (Option.map Analysis.withoutSizes)) =
      outcomes settings owners stories analyses := by
  induction stories generalizing owners analyses with
  | nil => rfl
  | cons f rest ih =>
    have hhead : (analyses.map (Option.map Analysis.withoutSizes)).head?.join =
        analyses.head?.join.map Analysis.withoutSizes := by
      cases analyses with
      | nil => rfl
      | cons first more => cases first <;> rfl
    unfold outcomes
    rw [hhead, outcome_withoutSizes, ← List.map_tail]
    simp only [ih]

/-- The registry does not depend on the sizes of files. -/
theorem registry_withoutSizes (settings : Settings) (stories : List StoryFile)
    (analyses : List (Option Analysis)) :
    registry settings stories (analyses.map (Option.map Analysis.withoutSizes)) =
      registry settings stories analyses := by
  unfold registry
  rw [outcomes_withoutSizes]

end Assembly

/-! ## The registry -/

/-- Where clear paths are looked at, the story files that are found and the registry of them are those
that were found and made. -/
theorem Pipeline.registryIn_of_onward (h : Onward settings outputs s s') (hproper : s.tree.IsProper)
    (hclear : ∀ p ∈ looked settings s', s.tree.Clear outputs p) {paths : List String}
    (hpaths : (ends (Discovery.storyFiles settings) s').1 = .ok paths) :
    (ends (Discovery.storyFiles settings) s).1 = .ok paths ∧
      registryIn settings s' (Stories.allInSession s' paths) =
        registryIn settings s (Stories.allInSession s paths) := by
  unfold looked at hclear
  rw [hpaths] at hclear
  have hdiscovery : ∀ p ∈ Discovery.looked settings s'.tree, s.tree.Clear outputs p :=
    fun p hp => hclear p (List.mem_append_left _ (List.mem_append_left _ hp))
  have hread : ∀ path ∈ paths, s.tree.Clear outputs (Stories.place s'.tree path) :=
    fun path hpath => hclear _ (List.mem_append_left _ (List.mem_append_right _
      (List.mem_map_of_mem hpath)))
  have hanalyses : ∀ f ∈ Stories.allInSession s' paths, ∀ p ∈ Analysis.looked settings s'.tree f,
      s.tree.Clear outputs p :=
    fun f hf p hp => hclear p (List.mem_append_right _ (List.mem_flatMap.2 ⟨f, hf, hp⟩))
  refine ⟨Discovery.storyFiles_of_filledIn h.filled hproper hdiscovery hpaths, ?_⟩
  rw [← Stories.allInSession_of_filledIn h.filled hread]
  unfold registryIn
  rw [← Assembly.registry_withoutSizes, ← Assembly.registry_withoutSizes settings _
    (Analysis.allInSession settings s _)]
  unfold Analysis.allInSession
  rw [List.map_map, List.map_map]
  have hsame : (Stories.allInSession s' paths).map
      (Option.map Analysis.withoutSizes ∘ fun f => some (Analysis.inSession settings s' f)) =
      (Stories.allInSession s' paths).map
        (Option.map Analysis.withoutSizes ∘ fun f => some (Analysis.inSession settings s f)) :=
    List.map_congr_left fun f hf =>
      congrArg some (Analysis.inSession_of_onward h (hanalyses f hf))
  rw [hsame]

end StoryRegistry
