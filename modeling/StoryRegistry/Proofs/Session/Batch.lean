import StoryRegistry.Proofs.Session.Apart
import StoryRegistry.Proofs.Story.Outline
import StoryRegistry.Proofs.Text.Order

/-!
# Story files that are read in a batch

A story file is found at a path in normal form, and that path is what failures and the log call it by
(`Stories.place_normalize`). A batch keeps the failure of each file that cannot be read, which carries
the path of the file (`Stories.failures_readAll`).
-/

set_option autoImplicit false

namespace StoryRegistry

/-! ## Paths of story files -/

/-- A story file is found at a path in normal form. -/
theorem Discovery.normalize_of_mem_storyFiles {settings : Settings} {s : Session}
    {paths : List String} (h : (ends (storyFiles settings) s).1 = .ok paths) {path : String}
    (hpath : path ∈ paths) : ∃ p, path = Path.normalize ((Path.mk 1 s.tree.here).resolve p).toText := by
  rcases storyFiles_eq_ok_iff.1 h with ⟨-, rfl⟩ | ⟨-, found, hall, rfl⟩
  · cases hpath
  obtain ⟨lists, hlists, rfl⟩ := allSelected_eq_ok_iff.1 hall
  have hmem := Glob.mem_distinct.1 (Text.mem_sorted.1 (List.mem_of_mem_filter hpath))
  obtain ⟨files, hfiles, hpath⟩ := List.mem_flatten.1 hmem
  obtain ⟨pattern, -, hselected⟩ := exists_of_forall₂ hlists hfiles
  obtain ⟨-, -, kept, -, -, -, rfl⟩ := selected_eq_ok_iff.1 hselected
  obtain ⟨p, -, rfl⟩ := List.mem_map.1 hpath
  exact ⟨p, rfl⟩

namespace Stories

/-- The path by which the file at a path goes in failures and in the log: two slashes in front are
read as one. -/
def shownPath (t : FileTree) (path : String) : String := (place t path).toText

variable {t : FileTree} {p : Path}

/-- A path in normal form leads to itself, with one slash in front. -/
theorem place_toText (hp : p.IsNormal) (habsolute : p.isAbsolute = true) :
    place t p.toText = { p with slashes := 1 } ∧ Path.IsNormal { p with slashes := 1 } := by
  have hclimbs := hp.climbs
  rw [habsolute] at hclimbs
  refine ⟨?_, Nat.le_succ 1, hp.whole, hp.noBackslash, hclimbs⟩
  unfold place Path.resolve Path.join
  rw [hp.ofString_toText, if_pos habsolute, hp.normal_eq]

/-- With one slash in front instead of two a path is shorter by a slash. -/
theorem toText_cases (hp : p.IsNormal) (habsolute : p.isAbsolute = true) :
    p.toText = Path.toText { p with slashes := 1 } ∨
      p.toText = "/" ++ Path.toText { p with slashes := 1 } := by
  have hle := hp.slashes_le
  obtain ⟨slashes, segments⟩ := p
  have hne : slashes ≠ 0 := by simpa [Path.isAbsolute] using habsolute
  obtain rfl | rfl : slashes = 1 ∨ slashes = 2 := by
    dsimp only at hle
    omega
  · exact .inl rfl
  · right
    rw [← String.toList_inj, String.toList_append]
    simp [Path.toText]

/-- A path in normal form is the one by which the file goes, but for a second slash in front. -/
theorem place_normalize {path : String}
    (h : path = Path.normalize ((Path.mk 1 t.here).resolve p).toText) :
    (place t path).IsNormal ∧ (path = shownPath t path ∨ path = "/" ++ shownPath t path) := by
  have hslash := Path.head?_toText_of_isAbsolute
    (show ((Path.mk 1 t.here).resolve p).isAbsolute = true from rfl)
  have hne : ((Path.mk 1 t.here).resolve p).toText ≠ "" := by
    intro hempty
    rw [hempty] at hslash
    cases hslash
  obtain ⟨q, hq, htext, habsolute⟩ := Path.exists_isNormal hne
  obtain rfl : path = q.toText := h.trans htext
  obtain ⟨hplace, hnormal⟩ := @place_toText t q hq (habsolute hslash)
  rw [shownPath, hplace]
  exact ⟨hnormal, toText_cases hq (habsolute hslash)⟩

/-! ## Files that cannot be read -/

/-- The failure of reading the file at a path, with the path. -/
def failure? (s : Session) (path : String) : Option (String × Failure) :=
  match (ends (read path) s).1 with
  | .ok _ => none
  | .error e => some (path, e)

variable {s s' : Session} {path : String} {paths : List String}

/-- A failure that does not keep others from being read carries the path of its file. -/
theorem file?_of_read {e : Failure} (h : (ends (read path) s).1 = .error e) (hown : isOwn e = true) :
    e.file? = some (shownPath s.tree path) := by
  have htree : ends Run.tree s = (.ok s.tree, s) := rfl
  unfold read at h
  rw [ends.bind_of_ok htree, ends.bind_of_ok (ends.attempt_eq _ s)] at h
  split at h
  · have hsource := Run.eq_error_of_ofExcept h
    unfold StoryFile.ofSource StoryFile.ofOutline at hsource
    dsimp only at hsource
    split at hsource
    · cases hsource
      rfl
    · split at hsource
      · cases hsource
        cases hown
      · cases hsource
  · rename_i cause hcause
    split at h
    · cases h
      rfl
    · cases h
      rw [Run.text, ends.look_eq] at hcause
      unfold Except.mapError at hcause
      split at hcause
      · cases hcause
        cases hown
      · cases hcause

/-- A file that cannot be read adds its failure to the batch, one of its own. -/
theorem failures_readInto {batch next : Batch}
    (h : ends (readInto batch path) s = (.ok next, s')) :
    next.failures = batch.failures ++ (failure? s path).toList ∧
      ∀ e, (ends (read path) s).1 = .error e → isOwn e = true := by
  unfold readInto at h
  rw [ends.bind_of_ok (ends.attempt_eq _ s)] at h
  unfold failure?
  cases hread : (ends (read path) s).1 with
  | ok f =>
    rw [hread] at h
    cases h
    exact ⟨(List.append_nil _).symm, nofun⟩
  | error e =>
    rw [hread] at h
    dsimp only at h
    split at h
    · rename_i hown
      obtain ⟨-, t, -, hlast⟩ := ends.of_bind h
      cases hlast
      refine ⟨rfl, fun cause hcause => ?_⟩
      cases hcause
      exact hown
    · cases h

/-- The induction is on the paths; reading one leaves the file tree as it is. -/
theorem failures_foldlM_readInto {batch final : Batch}
    (h : ends (paths.foldlM readInto batch) s = (.ok final, s')) :
    final.failures = batch.failures ++ paths.filterMap (failure? s) ∧
      ∀ path ∈ paths, ∀ e, (ends (read path) s).1 = .error e → isOwn e = true := by
  induction paths generalizing batch s with
  | nil =>
    cases h
    exact ⟨(List.append_nil _).symm, nofun⟩
  | cons path rest ih =>
    rw [List.foldlM_cons] at h
    obtain ⟨next, t, hfirst, hlike, hrest⟩ := (@steady_readInto SameTree _ batch path).of_bind h
    obtain ⟨hadded, hown⟩ := failures_readInto hfirst
    obtain ⟨hmore, howns⟩ := ih hrest
    have hsame (other : String) : (ends (read other) t).1 = (ends (read other) s).1 :=
      (@steady_read SameTree _ other).agrees hlike
    have hfailure : failure? t = failure? s := by
      funext other
      unfold failure?
      rw [hsame]
    refine ⟨?_, fun other hother => ?_⟩
    · rw [hmore, hadded, hfailure, List.append_assoc, List.filterMap_cons]
      cases failure? s path <;> rfl
    · rcases List.mem_cons.1 hother with rfl | hother
      · exact hown
      · rw [← hsame other]
        exact howns other hother

/-- If story files can be read at all, the failures of those that cannot be are kept. -/
theorem failures_readAll {batch : Batch} (h : ends (readAll paths) s = (.ok batch, s')) :
    batch.failures = paths.filterMap (failure? s) ∧
      ∀ path ∈ paths, ∀ e, (ends (read path) s).1 = .error e → isOwn e = true := by
  obtain ⟨final, t, hfold, hrest⟩ := ends.of_bind h
  have hfailures := failures_foldlM_readInto hfold
  dsimp only at hrest
  split at hrest
  · cases hrest
  · cases hrest
    exact hfailures

/-- A story file that was read has the path by which it goes. -/
theorem path_of_read {f : StoryFile} (hnormal : (place s.tree path).IsNormal)
    (h : (ends (read path) s).1 = .ok f) : f.path = shownPath s.tree path := by
  obtain ⟨source, -, hsource⟩ := read_eq_ok_iff.1 h
  rw [(StoryFile.parts_of_ofOutline hsource).1, hnormal.normalize_toText]
  rfl

/-- A story file names no component exactly if its meta has no reference to one. -/
theorem componentName_of_read {f : StoryFile} (h : (ends (read path) s).1 = .ok f) :
    f.componentName = "" ↔ f.metadata.component.isNull = true := by
  obtain ⟨source, -, hsource⟩ := read_eq_ok_iff.1 h
  obtain ⟨hnull, hnone⟩ | ⟨hreferred, hname⟩ := StoryFile.componentName_cases hsource
  · exact iff_of_true hnone hnull
  · refine iff_of_false (fun hnone => hname.ne_nil ?_) (Bool.eq_false_iff.1 hreferred)
    rw [hnone]
    rfl

end Stories

end StoryRegistry
