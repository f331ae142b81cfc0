import StoryRegistry.Proofs.FileTree.Apart
import StoryRegistry.Session.Discovery

/-!
# What a pattern tries

On its way through folders a pattern tries the entries whose names fit. If all that it tries is
clear of what was written to some folders, it selects what it selected before, and at most new
folders besides.
-/

set_option autoImplicit false

namespace StoryRegistry.Glob

/-- The paths that a step tries from a folder. -/
def Step.tries (t : FileTree) (p : Path) : Step → List Path
  | folders =>
    match t.find p with
    | .ok (.folder place) =>
      (t.foldersBelow place).map fun way => { p with segments := p.segments ++ way }
    | _ => []
  | names pieces =>
    match t.list p with
    | .ok found => (found.filter (fits pieces)).map (entry p)
    | .error _ => []
  | name text => [entry p text]

/-- The paths that the steps of a pattern try below a folder, one step after another. -/
def visited (t : FileTree) (folderOnly : Bool) : List Step → Path → List Path
  | [], _ => []
  | step :: rest, p =>
    let next := (step.next t (folderOnly || !rest.isEmpty) p).toOption.getD []
    step.tries t p ++ next.flatMap (visited t folderOnly rest)

/-! ## One step -/

section

variable {t : FileTree} {asksFolder : Bool} {p q : Path} {next : List Path}

/-- `**` leads to all that it tries, if the path leads anywhere. -/
theorem Step.next_folders_ok :
    folders.next t asksFolder p = .ok next ↔
      (∃ spot, t.find p = .ok spot) ∧ next = folders.tries t p := by
  unfold Step.next Step.tries
  cases t.find p with
  | error e => exact ⟨nofun, fun h => nomatch h.1.choose_spec⟩
  | ok spot =>
    cases spot <;>
      exact ⟨fun h => ⟨⟨_, rfl⟩, (Except.ok.inj h).symm⟩, fun h => congrArg Except.ok h.2.symm⟩

/-- A pattern for names leads to the entries whose names fit, or to the folders among them. -/
theorem Step.next_names_ok {pieces : List Wildcard} :
    (names pieces).next t asksFolder p = .ok next ↔ ∃ found, t.list p = .ok found ∧
      (if asksFolder then ((found.filter (fits pieces)).map (entry p)).filterM t.isFolder
        else .ok ((found.filter (fits pieces)).map (entry p))) = .ok next := by
  unfold Step.next
  rw [bind_eq_ok_iff]

/-- A name leads to the entry of that name if there is one, or a folder. -/
theorem Step.next_name_ok {text : String} :
    (name text).next t asksFolder p = .ok next ↔ ∃ found,
      (if asksFolder then t.isFolder (entry p text) else t.isThere (entry p text)) = .ok found ∧
        next = if found then [entry p text] else [] := by
  unfold Step.next
  cases asksFolder <;>
    exact bind_eq_ok_iff.trans (exists_congr fun found => and_congr_right fun _ =>
      ⟨fun h => (Except.ok.inj h).symm, fun h => congrArg Except.ok h.symm⟩)

/-- A step leads to some of the paths that it tries. -/
theorem Step.mem_tries {step : Step} (h : step.next t asksFolder p = .ok next) (hq : q ∈ next) :
    q ∈ step.tries t p := by
  cases step with
  | folders =>
    obtain ⟨-, rfl⟩ := next_folders_ok.1 h
    exact hq
  | names pieces =>
    obtain ⟨found, hlist, hnext⟩ := next_names_ok.1 h
    have hmem : q ∈ (found.filter (fits pieces)).map (entry p) := by
      cases asksFolder with
      | false =>
        cases hnext
        exact hq
      | true =>
        rw [(filterM_eq_ok_iff.1 hnext).2] at hq
        exact List.mem_of_mem_filter hq
    simp only [Step.tries, hlist]
    exact hmem
  | name text =>
    obtain ⟨found, -, rfl⟩ := next_name_ok.1 h
    cases found with
    | false => cases hq
    | true => exact hq

/-- What a step tries from a folder is the folder itself or is reached through it. -/
theorem Step.through_of_mem_tries {step : Step} (hq : q ∈ step.tries t p) :
    q = p ∨ t.placeOf p ∈ t.passed q := by
  cases step with
  | folders =>
    rw [Step.tries] at hq
    split at hq
    · obtain ⟨way, -, rfl⟩ := List.mem_map.1 hq
      cases way with
      | nil => exact .inl (by rw [List.append_nil])
      | cons segment rest => exact .inr (t.mem_passed_append p segment rest)
    · cases hq
  | names pieces =>
    rw [Step.tries] at hq
    split at hq
    · obtain ⟨name, -, rfl⟩ := List.mem_map.1 hq
      exact .inr (t.mem_passed_append p name [])
    · cases hq
  | name text =>
    rw [Step.tries, List.mem_singleton] at hq
    exact .inr (hq ▸ t.mem_passed_append p text [])

end

/-! ## The way of a pattern -/

/-- The rest of a pattern is followed from each path to which its first step leads. -/
theorem follow_cons_ok {t : FileTree} {folderOnly : Bool} {step : Step} {rest : List Step} {p : Path}
    {found : List Path} :
    follow t folderOnly (step :: rest) p = .ok found ↔ ∃ next lists,
      step.next t (folderOnly || !rest.isEmpty) p = .ok next ∧
        List.Forall₂ (fun q list => follow t folderOnly rest q = .ok list) next lists ∧
          found = lists.flatten := by
  rw [follow, bind_eq_ok_iff]
  refine exists_congr fun next => ?_
  rw [bind_eq_ok_iff]
  simp only [mapM_eq_ok_iff]
  constructor
  · rintro ⟨hnext, lists, hlists, h⟩
    exact ⟨lists, hnext, hlists, (Except.ok.inj h).symm⟩
  · rintro ⟨lists, hnext, hlists, h⟩
    exact ⟨hnext, lists, hlists, congrArg Except.ok h.symm⟩

/-- What is tried at the first step is tried. -/
theorem mem_visited_of_tries {t : FileTree} {folderOnly : Bool} {step : Step} {rest : List Step}
    {p q : Path} (h : q ∈ step.tries t p) : q ∈ visited t folderOnly (step :: rest) p :=
  List.mem_append_left _ h

/-- What is tried on the way from where the first step leads is tried. -/
theorem mem_visited_of_next {t : FileTree} {folderOnly : Bool} {step : Step} {rest : List Step}
    {p q r : Path} {next : List Path} (hnext : step.next t (folderOnly || !rest.isEmpty) p = .ok next)
    (hq : q ∈ next) (hr : r ∈ visited t folderOnly rest q) :
    r ∈ visited t folderOnly (step :: rest) p := by
  unfold visited
  rw [hnext]
  exact List.mem_append_right _ (List.mem_flatMap.2 ⟨q, hq, hr⟩)

/-- What a pattern leads to was tried, unless it is where the pattern starts. -/
theorem mem_visited_of_follow {t : FileTree} {folderOnly : Bool} {steps : List Step} {p q : Path}
    {found : List Path} (h : follow t folderOnly steps p = .ok found) (hq : q ∈ found) :
    q = p ∨ q ∈ visited t folderOnly steps p := by
  induction steps generalizing p found with
  | nil =>
    cases h
    exact .inl (List.mem_singleton.1 hq)
  | cons step rest ih =>
    obtain ⟨next, lists, hnext, hlists, rfl⟩ := follow_cons_ok.1 h
    obtain ⟨list, hlist, hq⟩ := List.mem_flatten.1 hq
    obtain ⟨r, hr, hfollow⟩ := exists_of_forall₂ hlists hlist
    rcases ih hfollow hq with rfl | hvisited
    · exact .inr (mem_visited_of_tries (Step.mem_tries hnext hr))
    · exact .inr (mem_visited_of_next hnext hr hvisited)

/-! ## Filled folders -/

section

variable {outputs : List Path} {t t' : FileTree} {folderOnly : Bool} {p : Path}

open FileTree (FilledIn)

/-- From a folder that had to be made, a pattern that tries only clear paths leads nowhere but to the
folder itself. The induction is on the steps; each of them would lead through the folder. -/
theorem eq_of_mem_follow (h : FilledIn outputs t t') (hp : t.Reserved outputs (t.placeOf p))
    {steps : List Step} (hclear : ∀ q ∈ visited t' folderOnly steps p, t.Clear outputs q)
    {found : List Path} (hfound : follow t' folderOnly steps p = .ok found) :
    ∀ q ∈ found, q = p := by
  induction steps generalizing found with
  | nil =>
    cases hfound
    exact fun q hq => List.mem_singleton.1 hq
  | cons step rest ih =>
    obtain ⟨next, lists, hnext, hlists, rfl⟩ := follow_cons_ok.1 hfound
    have hstays : ∀ q ∈ next, q = p := by
      intro q hq
      have htried := Step.mem_tries hnext hq
      refine (Step.through_of_mem_tries htried).resolve_right fun hthrough => ?_
      rw [h.placeOf_eq, h.passed_eq] at hthrough
      exact (hclear q (mem_visited_of_tries htried)).passed _ hthrough hp
    intro q hq
    obtain ⟨list, hlist, hq⟩ := List.mem_flatten.1 hq
    obtain ⟨r, hr, hfollow⟩ := exists_of_forall₂ hlists hlist
    obtain rfl := hstays r hr
    exact ih (fun r' hr' => hclear r' (mem_visited_of_next hnext hr hr')) hfollow q hq

/-- Below a folder that was there, the folders that were there and the new ones are found. -/
theorem foldersBelow_of_filledIn (h : FilledIn outputs t t') (hproper : t.IsProper)
    (hthere : t.isVacant p = false) :
    (t'.foldersBelow (t.placeOf p)).filter
      (fun way => !t.isVacant { p with segments := p.segments ++ way }) =
        t.foldersBelow (t.placeOf p) := by
  have hplace {place : Place} {way : List String} (hway : FileTree.below? (t.placeOf p) place = some way)
      (hplain : ".." ∉ place) :
      t.placeOf { p with segments := p.segments ++ way } = place := by
    unfold FileTree.below? at hway
    split at hway
    · rename_i hprefix
      cases hway
      obtain ⟨way, rfl⟩ := List.isPrefixOf_iff_prefix.1 hprefix
      rw [List.drop_left, t.placeOf_append, Place.along_eq_append fun hmem => hplain
        (List.mem_append_right _ hmem)]
    · cases hway
  obtain ⟨more, hfolders, hmore⟩ := h.made
  unfold FileTree.foldersBelow
  rw [hfolders, List.filterMap_append, List.filter_append, List.filter_cons_of_pos (by simpa using hthere),
    List.filter_append]
  have hold : ∀ way ∈ (t.folders.filterMap (FileTree.below? (t.placeOf p))).filter (!·.isEmpty),
      (!t.isVacant { p with segments := p.segments ++ way }) = true := by
    intro way hway
    obtain ⟨place, hmem, hbelow⟩ := List.mem_filterMap.1 (List.mem_of_mem_filter hway)
    rw [Bool.not_eq_true', Bool.eq_false_iff]
    intro hvacant
    rw [FileTree.isVacant_iff, hplace hbelow (hproper.folders _ hmem)] at hvacant
    exact (FileTree.spot_eq_free_iff.1 hvacant).2.2 hmem
  have hnew : ∀ way ∈ (more.filterMap (FileTree.below? (t.placeOf p))).filter (!·.isEmpty),
      ¬(!t.isVacant { p with segments := p.segments ++ way }) = true := by
    intro way hway
    obtain ⟨place, hmem, hbelow⟩ := List.mem_filterMap.1 (List.mem_of_mem_filter hway)
    obtain ⟨-, hfree, hplain⟩ := hmore place hmem
    have hvacant : t.isVacant { p with segments := p.segments ++ way } = true := by
      rw [FileTree.isVacant_iff, hplace hbelow fun hup => hproper.here (hplain hup)]
      exact hfree
    rw [hvacant]
    decide
  rw [List.filter_eq_self.2 hold, List.filter_eq_nil_iff.2 hnew, List.append_nil]

/-- The entries whose names fit, of those of the places that are directly in a folder. -/
def fitting (pieces : List Wildcard) (p : Path) (folder : Place) (places : List Place) : List Path :=
  ((places.filterMap fun place =>
    if !place.isEmpty && place.dropLast == folder then place.getLast? else none).filter
      (fits pieces)).map (entry p)

theorem fitting_append (pieces : List Wildcard) (p : Path) (folder : Place)
    (places more : List Place) : fitting pieces p folder (places ++ more) =
      fitting pieces p folder places ++ fitting pieces p folder more := by
  simp only [fitting, List.filterMap_append, List.filter_append, List.map_append]

/-- An entry that fits leads to its place. -/
theorem exists_of_mem_fitting {pieces : List Wildcard} {places : List Place} {q : Path}
    (hplain : ∀ place ∈ places, ".." ∉ place)
    (hq : q ∈ fitting pieces p (t.placeOf p) places) : t.placeOf q ∈ places := by
  obtain ⟨name, hname, rfl⟩ := List.mem_map.1 hq
  obtain ⟨place, hmem, hlast⟩ := List.mem_filterMap.1 (List.mem_of_mem_filter hname)
  split at hlast
  · rename_i hin
    obtain ⟨-, hfolder⟩ := Bool.and_eq_true_iff.1 hin
    have hplace : place = t.placeOf p ++ [name] := by
      rw [← beq_iff_eq.1 hfolder, List.dropLast_append_getLast? name hlast]
    have hname : ".." ∉ [name] := fun hup =>
      hplain place hmem (hplace ▸ List.mem_append_right _ hup)
    rw [entry, t.placeOf_append, Place.along_eq_append hname, ← hplace]
    exact hmem
  · cases hlast

/-- The entries of a folder whose names fit. -/
theorem fitting_eq (t' : FileTree) (pieces : List Wildcard) (p : Path) (folder : Place) :
    ((t'.names folder).filter (fits pieces)).map (entry p) =
      fitting pieces p folder (Table.names t'.files) ++ fitting pieces p folder t'.folders :=
  fitting_append pieces p folder _ _

/-- In a folder that was there, the entries whose names fit are those that were there and new folders,
if none of them is inside the outputs. -/
theorem entries_of_filledIn (h : FilledIn outputs t t') (hproper : t.IsProper)
    {pieces : List Wildcard}
    (hclear : ∀ q ∈ ((t'.names (t.placeOf p)).filter (fits pieces)).map (entry p),
      t.Clear outputs q) :
    (((t'.names (t.placeOf p)).filter (fits pieces)).map (entry p)).filter (fun q => !t.isVacant q) =
      ((t.names (t.placeOf p)).filter (fits pieces)).map (entry p) := by
  obtain ⟨files, hnames, hfiles⟩ := h.names
  obtain ⟨folders, hfolders, hfree⟩ := h.made
  have hplain {place : Place} (hplace : t.Plain place) : ".." ∉ place :=
    fun hup => hproper.here (hplace hup)
  -- files and folders that were there are found
  have hold (places : List Place) (hproper : ∀ place ∈ places, ".." ∉ place)
      (hthere : ∀ place ∈ places, t.spot place ≠ .free place) :
      (fitting pieces p (t.placeOf p) places).filter (fun q => !t.isVacant q) =
        fitting pieces p (t.placeOf p) places := by
    refine List.filter_eq_self.2 fun q hq => ?_
    rw [Bool.not_eq_true', Bool.eq_false_iff]
    exact fun hvacant => hthere _ (exists_of_mem_fitting hproper hq) (FileTree.isVacant_iff.1 hvacant)
  -- no new file can be among the entries, since all of them are clear
  have hnone : fitting pieces p (t.placeOf p) files = [] := by
    refine List.eq_nil_iff_forall_not_mem.2 fun q hq => ?_
    have hmem := exists_of_mem_fitting (fun place hplace => hplain (hfiles place hplace).2) hq
    refine (hclear q ?_).outside (hfiles _ hmem).1
    rw [fitting_eq, hnames, fitting_append]
    exact List.mem_append_left _ (List.mem_append_right _ hq)
  have hnew : (fitting pieces p (t.placeOf p) folders).filter (fun q => !t.isVacant q) = [] := by
    refine List.filter_eq_nil_iff.2 fun q hq => ?_
    have hmem := exists_of_mem_fitting (fun place hplace => hplain (hfree place hplace).2.2) hq
    rw [FileTree.isVacant_iff.2 (hfree _ hmem).2.1]
    decide
  rw [fitting_eq, fitting_eq, hnames, hfolders, fitting_append, fitting_append, hnone,
    List.append_nil, List.filter_append, List.filter_append, hnew, List.append_nil,
    hold _ hproper.files fun place hplace hfree => (FileTree.spot_eq_free_iff.1 hfree).1 hplace,
    hold _ hproper.folders fun place hplace hfree => (FileTree.spot_eq_free_iff.1 hfree).2.2 hplace]

/-- From a folder that was there, a step that tries only clear paths leads where it led, and at most
to new folders besides. -/
theorem Step.next_of_filledIn (h : FilledIn outputs t t') (hproper : t.IsProper)
    (hp : t.Clear outputs p) (hthere : t.isVacant p = false) {step : Step} {asksFolder : Bool}
    {next : List Path} (hclear : ∀ q ∈ step.tries t' p, t.Clear outputs q)
    (hnext : step.next t' asksFolder p = .ok next) :
    step.next t asksFolder p = .ok (next.filter fun q => !t.isVacant q) := by
  have hfind := h.find_eq hp hthere
  cases step with
  | folders =>
    obtain ⟨⟨spot, hspot⟩, rfl⟩ := Step.next_folders_ok.1 hnext
    rw [hfind] at hspot
    refine Step.next_folders_ok.2 ⟨⟨spot, hspot⟩, ?_⟩
    rw [Step.tries, Step.tries, hfind, hspot]
    have hplace := FileTree.spot_of_find hspot
    cases spot with
    | folder place =>
      obtain ⟨rfl, -⟩ := FileTree.spot_eq_folder hplace.symm
      dsimp only
      rw [List.filter_map]
      exact congrArg _ (foldersBelow_of_filledIn h hproper hthere)
    | file place content => rfl
    | free place => rfl
  | names pieces =>
    obtain ⟨found, hlist, hnext⟩ := Step.next_names_ok.1 hnext
    obtain ⟨hplace, rfl⟩ := FileTree.find_of_list hlist
    rw [h.placeOf_eq] at hplace hlist hnext
    rw [Step.tries, hlist] at hclear
    have hentries := entries_of_filledIn h hproper hclear
    refine Step.next_names_ok.2 ⟨t.names (t.placeOf p), ?_, ?_⟩
    · unfold FileTree.list
      rw [← hfind, hplace]
      rfl
    · rw [← hentries]
      cases asksFolder with
      | false =>
        cases hnext
        rfl
      | true =>
        obtain ⟨hok, rfl⟩ := filterM_eq_ok_iff.1 hnext
        have hsame : ∀ q ∈ ((t'.names (t.placeOf p)).filter (fits pieces)).map (entry p),
            t.isVacant q = false → t.isFolder q = t'.isFolder q := by
          intro q hq hthere
          unfold FileTree.isFolder FileTree.test
          rw [h.find_eq (hclear q hq) hthere]
        refine filterM_eq_ok_iff.2 ⟨fun q hq => ?_, ?_⟩
        · obtain ⟨hmem, hthere⟩ := List.mem_filter.1 hq
          rw [hsame q hmem (by simpa using hthere)]
          exact hok q hmem
        · rw [List.filter_filter, List.filter_filter]
          refine List.filter_congr fun q hq => ?_
          cases hthere : t.isVacant q with
          | true => rw [Bool.not_true, Bool.false_and, Bool.and_false]
          | false => rw [hsame q hq hthere, Bool.and_comm]
  | name text =>
    obtain ⟨found, htest, rfl⟩ := Step.next_name_ok.1 hnext
    have hq := hclear (entry p text) (by rw [Step.tries]; exact List.mem_cons_self)
    -- the entry is what it was, or a new folder
    have hsame : (if asksFolder then t.isFolder (entry p text) else t.isThere (entry p text)) =
        .ok (found && !t.isVacant (entry p text)) := by
      cases asksFolder with
      | false => exact h.test_of_clear hq (fun _ => rfl) htest
      | true => exact h.test_of_clear hq (fun _ => rfl) htest
    refine Step.next_name_ok.2 ⟨_, hsame, ?_⟩
    cases found <;> cases hvacant : t.isVacant (entry p text) <;> simp [hvacant]

/-- A step leads only to what is there. -/
theorem Step.there_of_mem_next {asksFolder : Bool} (hproper : t.IsProper)
    (hthere : t.isVacant p = false) {step : Step} {next : List Path}
    (hnext : step.next t asksFolder p = .ok next) {q : Path} (hq : q ∈ next) :
    t.isVacant q = false := by
  -- nothing is written to no folders at all, so that the step leads to no new ones
  have hold := Step.next_of_filledIn (refl_of (FilledIn []) t) hproper (t.clear_nil p) hthere
    (fun r _ => t.clear_nil r) hnext
  rw [hnext, Except.ok.injEq] at hold
  rw [hold] at hq
  simpa using (List.mem_filter.1 hq).2

/-- Where lists are found for items, and only what is kept of them is looked for, what is kept is found
if nothing is kept of what items that are dropped have. -/
theorem exists_kept {α : Type} {R R' : α → List α → Prop} (keep : α → Bool) {items : List α}
    {lists : List (List α)} (h : List.Forall₂ R' items lists)
    (hkeep : ∀ a ∈ items, keep a = true → ∀ list, R' a list → R a (list.filter keep))
    (hdrop : ∀ a ∈ items, keep a = false → ∀ list, R' a list → list.filter keep = []) :
    ∃ kept, List.Forall₂ R (items.filter keep) kept ∧ kept.flatten = lists.flatten.filter keep := by
  induction h with
  | nil => exact ⟨[], .nil, rfl⟩
  | @cons a list rest more hfirst _ ih =>
    obtain ⟨kept, hkept, hflatten⟩ := ih
      (fun b hb => hkeep b (List.mem_cons_of_mem _ hb)) fun b hb => hdrop b (List.mem_cons_of_mem _ hb)
    rw [List.flatten_cons, List.filter_append, ← hflatten]
    cases ha : keep a with
    | true =>
      rw [List.filter_cons_of_pos ha]
      exact ⟨_, .cons (hkeep a List.mem_cons_self ha list hfirst) hkept, rfl⟩
    | false =>
      rw [List.filter_cons_of_neg (by rw [ha]; decide), hdrop a List.mem_cons_self ha list hfirst]
      exact ⟨kept, hkept, rfl⟩

/-- From a folder that was there, a pattern that tries only clear paths leads where it led, and at
most to new folders besides. The induction is on the steps; from a new folder they lead nowhere else. -/
theorem follow_of_filledIn (h : FilledIn outputs t t') (hproper : t.IsProper)
    (hp : t.Clear outputs p) (hthere : t.isVacant p = false) {steps : List Step}
    (hclear : ∀ q ∈ visited t' folderOnly steps p, t.Clear outputs q) {found : List Path}
    (hfound : follow t' folderOnly steps p = .ok found) :
    follow t folderOnly steps p = .ok (found.filter fun q => !t.isVacant q) := by
  induction steps generalizing p found with
  | nil =>
    cases hfound
    rw [List.filter_cons_of_pos (by rw [hthere]; rfl)]
    rfl
  | cons step rest ih =>
    obtain ⟨next, lists, hnext, hlists, rfl⟩ := follow_cons_ok.1 hfound
    have htried : ∀ q ∈ next, t.Clear outputs q := fun q hq =>
      hclear q (mem_visited_of_tries (Step.mem_tries hnext hq))
    have hmore : ∀ q ∈ next, ∀ r ∈ visited t' folderOnly rest q, t.Clear outputs r :=
      fun q hq r hr => hclear r (mem_visited_of_next hnext hq hr)
    have hstep := Step.next_of_filledIn h hproper hp hthere
      (fun q hq => hclear q (mem_visited_of_tries hq)) hnext
    have hnew (q : Path) (hq : q ∈ next) (hvacant : t.isVacant q = true) (list : List Path)
        (hlist : follow t' folderOnly rest q = .ok list) :
        list.filter (fun q => !t.isVacant q) = [] := by
      have hthere' := Step.there_of_mem_next (h.isProper hproper) (h.isVacant_eq_false hthere) hnext hq
      have hstays := eq_of_mem_follow h (h.reserved_of_new (htried q hq) hvacant hthere') (hmore q hq)
        hlist
      exact List.filter_eq_nil_iff.2 fun r hr => by rw [hstays r hr, hvacant]; decide
    obtain ⟨kept, hkept, hflatten⟩ := exists_kept
      (R := fun q list => follow t folderOnly rest q = .ok list) (fun q => !t.isVacant q) hlists
      (fun q hq hold list hlist => ih (htried q hq) (by simpa using hold) (hmore q hq) hlist)
      fun q hq hold => hnew q hq (by simpa using hold)
    exact follow_cons_ok.2 ⟨_, kept, hstep, hkept, hflatten.symm⟩

end

end StoryRegistry.Glob
