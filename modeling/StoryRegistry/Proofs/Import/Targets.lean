import StoryRegistry.Import.Resolution
import StoryRegistry.Proofs.FileTree.Names
import StoryRegistry.Proofs.Path
import StoryRegistry.Proofs.Text.Utf8

/-!
# What a relative specifier is resolved to

The target of a specifier is the text of a normal path, and an ending, with or without an index file,
makes another such text of it. There are two exceptions: the index file in the folder that is written
`.`, and the one right below two slashes, which puts a third one there. Where the endings can be tried
at all, so can the target itself, which has the shorter name.
-/

set_option autoImplicit false

namespace StoryRegistry

/-! ## Texts of paths with one more segment or ending -/

namespace Path

open StoryRegistry.Text

theorem joinWith_concat_append (front : List (List Char)) (last more : List Char) :
    joinWith ['/'] (front ++ [last ++ more]) = joinWith ['/'] (front ++ [last]) ++ more := by
  induction front with
  | nil => rfl
  | cons first rest ih =>
    cases rest with
    | nil => simp [joinWith]
    | cons next others =>
      simp only [List.cons_append, joinWith] at ih ⊢
      rw [ih, List.append_assoc, List.append_assoc, List.append_assoc]

theorem joinWith_append {front back : List (List Char)} (hfront : front ≠ []) (hback : back ≠ []) :
    joinWith ['/'] (front ++ back) = joinWith ['/'] front ++ '/' :: joinWith ['/'] back := by
  induction front with
  | nil => exact absurd rfl hfront
  | cons first rest ih =>
    cases rest with
    | nil =>
      obtain ⟨next, more, rfl⟩ := List.exists_cons_of_ne_nil hback
      simp [joinWith]
    | cons next more =>
      have hmore := ih (List.cons_ne_nil _ _)
      simp only [List.cons_append, joinWith] at hmore ⊢
      rw [hmore]
      simp

/-- What is added to the text of a path is added to its last segment. -/
theorem toText_append (slashes : Nat) (front : List String) (last more : String) :
    toText ⟨slashes, front ++ [last]⟩ ++ more = toText ⟨slashes, front ++ [last ++ more]⟩ := by
  rw [← String.toList_inj, String.toList_append, toList_toText (by simp), toList_toText (by simp),
    List.append_assoc]
  simp only [List.map_append, List.map_singleton, String.toList_append, joinWith_concat_append]

/-- A text behind a slash becomes the last segment. -/
theorem toText_concat {p : Path} (h : p.segments ≠ []) (name : String) :
    p.toText ++ "/" ++ name = toText { p with segments := p.segments ++ [name] } := by
  rw [← String.toList_inj, String.toList_append, String.toList_append, toList_toText (Or.inr h),
    toList_toText (Or.inr (by simp))]
  have hmap : p.segments.map String.toList ≠ [] := by simpa using h
  rw [List.map_append, List.map_singleton, joinWith_append hmap (List.cons_ne_nil _ _), joinWith]
  simp

theorem isPlain_of_length {name : String} (hslash : '/' ∉ name.toList)
    (hlength : 3 ≤ name.toList.length) : IsPlain name := by
  refine ⟨hslash, ?_, ?_, ?_⟩ <;> rintro rfl <;> exact absurd hlength (by decide)

/-- A plain name at the end of a normal path, in place of the last segment or behind it, makes
another one. -/
theorem IsNormal.concat {p : Path} (h : IsNormal p) {front : List String}
    (hfront : front <+: p.segments) {name : String} (hname : IsPlain name)
    (hbackslash : '\\' ∉ name.toList) : IsNormal ⟨p.slashes, front ++ [name]⟩ where
  slashes_le := h.slashes_le
  whole segment hmem := by
    rcases List.mem_append.1 hmem with hmem | hmem
    · exact h.whole segment (hfront.subset hmem)
    · rw [List.mem_singleton.1 hmem]
      exact hname.isSegment
  noBackslash segment hmem := by
    rcases List.mem_append.1 hmem with hmem | hmem
    · exact h.noBackslash segment (hfront.subset hmem)
    · rwa [List.mem_singleton.1 hmem]
  climbs := by
    obtain ⟨height, plain, hsegments, hplain, habsolute⟩ := h.climbs
    obtain ⟨rest, hrest⟩ := hfront
    rw [hsegments] at hrest
    rcases List.append_eq_append_iff.1 hrest with ⟨up, hup, -⟩ | ⟨down, hdown, hmore⟩
    · -- the front is part of the climb
      have hall : front = List.replicate front.length ".." := by
        refine List.eq_replicate_iff.2 ⟨rfl, fun segment hmem => ?_⟩
        have hclimb : segment ∈ List.replicate height ".." := hup ▸ List.mem_append_left _ hmem
        exact (List.mem_replicate.1 hclimb).2
      refine ⟨front.length, [name], by rw [← hall], ?_, fun habs => ?_⟩
      · simpa using Ne.symm hname.notAbove
      · have hlength := congrArg List.length hup
        rw [List.length_replicate, List.length_append, habsolute habs] at hlength
        omega
    · refine ⟨height, down ++ [name], by rw [hdown, List.append_assoc], ?_, habsolute⟩
      rw [hmore] at hplain
      simp only [List.mem_append, not_or] at hplain ⊢
      exact ⟨hplain.1, by simpa using Ne.symm hname.notAbove⟩

end Path

/-! ## Tests along a path -/

namespace FileTree

/-- A walk along some segments goes on from the place to which they lead. -/
theorem walk_append (t : FileTree) (place : Place) (front rest : List String) :
    t.walk place (front ++ rest) =
      match t.walk place front with
      | .error kind => .error kind
      | .ok _ => t.walk (place.along front) rest := by
  induction front generalizing place with
  | nil => rfl
  | cons segment more ih =>
    rw [List.cons_append, walk, walk]
    cases hspot : t.spot place with
    | free other => rfl
    | file other content => rfl
    | folder other =>
      dsimp only
      by_cases hup : segment == ".."
      · rw [if_pos hup, if_pos hup, ih, Place.along, if_pos hup]
      · rw [if_neg hup, if_neg hup, Place.along, if_neg hup]
        by_cases hlong : longestName < segment.utf8ByteSize
        · rw [if_pos hlong, if_pos hlong]
        · rw [if_neg hlong, if_neg hlong, ih]

theorem walk_error {t : FileTree} {place : Place} {segments : List String} {kind : Fault}
    (h : t.walk place segments = .error kind) :
    kind = .missing ∨ kind = .notFolder ∨ kind = .nameTooLong := by
  induction segments generalizing place with
  | nil => cases h
  | cons segment rest ih =>
    rw [walk] at h
    cases hspot : t.spot place with
    | free other => rw [hspot] at h; cases h; exact Or.inl rfl
    | file other content => rw [hspot] at h; cases h; exact Or.inr (Or.inl rfl)
    | folder other =>
      rw [hspot] at h
      dsimp only at h
      split at h
      · exact ih h
      · split at h
        · cases h
          exact Or.inr (Or.inr rfl)
        · exact ih h

/-- Where a walk to a longer last segment finds no name too long, a walk to the shorter one does not
either. -/
theorem walk_concat_append {t : FileTree} {place : Place} {front : List String} {last more : String}
    (hplain : last ++ more ≠ "..")
    (h : t.walk place (front ++ [last ++ more]) ≠ .error .nameTooLong) :
    t.walk place (front ++ [last]) ≠ .error .nameTooLong := by
  rw [walk_append] at h ⊢
  cases hfront : t.walk place front with
  | error kind => rwa [hfront] at h
  | ok spot =>
    rw [hfront] at h
    dsimp only at h ⊢
    rw [walk] at h ⊢
    cases hspot : t.spot (place.along front) with
    | free other => simp
    | file other content => simp
    | folder other =>
      rw [hspot] at h
      dsimp only at h ⊢
      rw [if_neg (by simpa using hplain)] at h
      split
      · simp [walk]
      · rename_i hup
        split
        · rename_i hlong
          have hlonger : longestName < (last ++ more).utf8ByteSize := by
            rw [String.utf8ByteSize_append]
            omega
          rw [if_pos hlonger] at h
          exact absurd rfl h
        · simp [walk]

/-- A file can be tested for unless a name on the way, or the path, is too long. -/
theorem isFile_ok_iff {t : FileTree} {p : Path} :
    (∃ there, t.isFile p = .ok there) ↔
      (Text.isWritable p.toText = true → '\x00' ∉ p.toText.toList →
        p.toText.utf8ByteSize ≤ longestPath ∧
          t.walk (if p.isAbsolute then [] else t.here) p.segments ≠ .error .nameTooLong) := by
  have htest {e : FileError} (hfind : t.find p = .error e) :
      (∃ there, t.isFile p = .ok there) ↔ e.isAbsence = true := by
    unfold isFile test
    rw [hfind]
    dsimp only
    split <;> simp_all
  by_cases hwritable : Text.isWritable p.toText = true
  · by_cases hnull : '\x00' ∈ p.toText.toList
    · have hfind : t.find p = .error .nullInPath := by simp [find, hwritable, hnull]
      rw [htest hfind]
      simp [hnull, FileError.isAbsence]
    · by_cases hlong : longestPath < p.toText.utf8ByteSize
      · have hfind : t.find p = .error (.fault .nameTooLong p.toText) := by
          simp [find, hwritable, hnull, hlong]
        rw [htest hfind]
        simp only [FileError.isAbsence, hwritable, hnull, not_false_eq_true, forall_const]
        constructor
        · intro h
          cases h
        · intro h
          omega
      · have hshort : p.toText.utf8ByteSize ≤ longestPath := by omega
        simp only [hwritable, hnull, hshort, not_false_eq_true, forall_const, true_and]
        cases hwalk : t.walk (if p.isAbsolute then [] else t.here) p.segments with
        | ok spot =>
          have hfind : t.find p = .ok spot := by simp [find, hwritable, hnull, hlong, hwalk]
          simp [isFile, test, hfind]
        | error kind =>
          have hfind : t.find p = .error (.fault kind p.toText) := by
            simp [find, hwritable, hnull, hlong, hwalk]
          rw [htest hfind]
          rcases walk_error hwalk with rfl | rfl | rfl <;> simp [FileError.isAbsence]
  · have hfind : t.find p = .error .unwritable := by simp [find, hwritable]
    rw [htest hfind]
    simp [hwritable, FileError.isAbsence]

/-- What a path leads to is not found because the path is none, or because of a fault on the way. -/
theorem find_error {t : FileTree} {p : Path} {e : FileError} (h : t.find p = .error e) :
    e = .unwritable ∨ e = .nullInPath ∨ ∃ kind, e = .fault kind p.toText ∧
      (kind = .missing ∨ kind = .notFolder ∨ kind = .nameTooLong) := by
  unfold find at h
  dsimp only at h
  generalize (if p.isAbsolute then [] else t.here) = place at h
  split_ifs at h
  · cases h
    exact Or.inl rfl
  · cases h
    exact Or.inr (Or.inl rfl)
  · cases h
    exact Or.inr (Or.inr ⟨.nameTooLong, rfl, Or.inr (Or.inr rfl)⟩)
  · cases hwalk : t.walk place p.segments with
    | ok spot =>
      rw [hwalk] at h
      cases h
    | error kind =>
      rw [hwalk] at h
      cases h
      exact Or.inr (Or.inr ⟨kind, rfl, walk_error hwalk⟩)

/-- Testing for a file fails only where a name, or the path, is too long. -/
theorem isFile_error {t : FileTree} {p : Path} {e : FileError} (h : t.isFile p = .error e) :
    e = .fault .nameTooLong p.toText := by
  unfold isFile test at h
  cases hfind : t.find p with
  | ok spot =>
    rw [hfind] at h
    cases h
  | error cause =>
    rw [hfind] at h
    -- where nothing can be, there is no file
    rcases find_error hfind with rfl | rfl | ⟨kind, rfl, rfl | rfl | rfl⟩ <;> cases h
    rfl

end FileTree

/-! ## Candidates -/

namespace Import

open StoryRegistry.Path (IsNormal)

/-- What is tried below two slashes, with a third one before the index file. -/
def rootIndexes : List String := endings.map fun ending => "///index" ++ ending

/-- What is tried in the folder that is written as a dot, with that dot before the index file. -/
def hereIndexes : List String := endings.map fun ending => "./index" ++ ending

theorem ending_plain {ending : String} (h : ending ∈ endings) :
    '/' ∉ ending.toList ∧ '\\' ∉ ending.toList ∧ 3 ≤ ending.toList.length := by
  have hall : ∀ e ∈ endings, '/' ∉ e.toList ∧ '\\' ∉ e.toList ∧ 3 ≤ e.toList.length := by decide
  exact hall ending h

/-- An ending makes another normal path out of a target; its last segment is the longer one, if there
was a segment at all. -/
theorem exists_isNormal_append {p : Path} (h : IsNormal p) {ending : String}
    (hending : ending ∈ endings) :
    ∃ front last, IsNormal ⟨p.slashes, front ++ [last ++ ending]⟩ ∧ last ++ ending ≠ ".." ∧
      p.toText ++ ending = Path.toText ⟨p.slashes, front ++ [last ++ ending]⟩ ∧
      (p.segments = front ++ [last] ∨ p.segments = []) := by
  obtain ⟨hslash, hbackslash, hlength⟩ := ending_plain hending
  obtain ⟨slashes, segments⟩ := p
  have hplain {last : String} (hlast : '/' ∉ last.toList) : Path.IsPlain (last ++ ending) := by
    refine Path.isPlain_of_length ?_ ?_
    · simp [hlast, hslash]
    · rw [String.toList_append, List.length_append]
      omega
  rcases List.eq_nil_or_concat segments with rfl | ⟨front, last, rfl⟩
  · -- nothing but slashes, or the dot
    have hlast : '/' ∉ (if slashes = 0 then "." else "").toList := by split <;> decide
    refine ⟨[], if slashes = 0 then "." else "", h.concat (List.nil_prefix) (hplain hlast) ?_,
      (hplain hlast).notAbove, ?_, Or.inr rfl⟩
    · rw [String.toList_append, List.mem_append, not_or]
      exact ⟨by split <;> decide, hbackslash⟩
    · cases slashes with
      | zero => simp [Path.toText]
      | succ n => simp [Path.toText]
  · rw [List.concat_eq_append] at h ⊢
    have hmem : last ∈ front ++ [last] := by simp
    have hlast := h.whole last hmem
    refine ⟨front, last, h.concat (List.prefix_append _ _) (hplain hlast.noSlash) ?_,
      (hplain hlast.noSlash).notAbove, Path.toText_append _ _ _ _, Or.inl rfl⟩
    rw [String.toList_append, List.mem_append, not_or]
    exact ⟨h.noBackslash last hmem, hbackslash⟩

/-- An index file makes another normal path out of a target, but for the two exceptions. -/
theorem exists_isNormal_index {p : Path} (h : IsNormal p) {ending : String}
    (hending : ending ∈ endings) :
    (∃ q, IsNormal q ∧ q.isAbsolute = p.isAbsolute ∧ p.toText ++ "/index" ++ ending = q.toText) ∨
      (p = ⟨2, []⟩ ∧ p.toText ++ "/index" ++ ending ∈ rootIndexes) ∨
      (p.isAbsolute = false ∧ p.toText ++ "/index" ++ ending ∈ hereIndexes) := by
  obtain ⟨hslash, hbackslash, hlength⟩ := ending_plain hending
  obtain ⟨slashes, segments⟩ := p
  have hsplit (s : String) : s ++ "/index" ++ ending = s ++ "/" ++ ("index" ++ ending) := by
    rw [← String.toList_inj]
    simp
  have hplain : Path.IsPlain ("index" ++ ending) := by
    refine Path.isPlain_of_length ?_ ?_
    · simp [hslash]
    · rw [String.toList_append, List.length_append]
      omega
  have hindex : '\\' ∉ ("index" ++ ending).toList := by simp [hbackslash]
  by_cases hsegments : segments = []
  · subst hsegments
    have hle : slashes ≤ 2 := h.slashes_le
    obtain rfl | rfl | rfl : slashes = 0 ∨ slashes = 1 ∨ slashes = 2 := by omega
    · exact Or.inr (Or.inr ⟨rfl, List.mem_map.2 ⟨ending, hending, rfl⟩⟩)
    · -- one slash more makes two, which are kept apart
      refine Or.inl ⟨⟨2, ["index" ++ ending]⟩, ?_, rfl, rfl⟩
      have hroot : IsNormal ⟨2, []⟩ := ⟨Nat.le_refl _, by simp, by simp, ⟨0, [], by simp⟩⟩
      exact hroot.concat List.nil_prefix hplain hindex
    · exact Or.inr (Or.inl ⟨rfl, List.mem_map.2 ⟨ending, hending, rfl⟩⟩)
  · left
    refine ⟨⟨slashes, segments ++ ["index" ++ ending]⟩, h.concat (List.prefix_refl _) hplain hindex,
      rfl, ?_⟩
    rw [hsplit, Path.toText_concat hsegments]

/-- The target of a specifier is the text of a normal path, an absolute one for an importer at an
absolute path. -/
theorem exists_isNormal_target (specifier importer : String) :
    ∃ p, IsNormal p ∧ target specifier importer = p.toText ∧
      ((Path.ofString importer).isAbsolute = true → p.isAbsolute = true) := by
  have hwhole : ∀ segment ∈ ((Path.ofString importer).parent.child specifier).segments,
      Path.IsSegment segment := by
    intro segment hmem
    unfold Path.child Path.join at hmem
    split at hmem
    · exact Path.isSegment_of_mem_ofString hmem
    · rcases List.mem_append.1 hmem with hmem | hmem
      · exact Path.isSegment_of_mem_ofString (List.dropLast_subset _ hmem)
      · exact Path.isSegment_of_mem_ofString hmem
  obtain ⟨hne, hslash⟩ := Path.head?_toText hwhole
  obtain ⟨p, hp, htext, habsolute⟩ :=
    Path.exists_isNormal (fun hempty => hne (String.toList_eq_nil_iff.2 hempty))
  refine ⟨p, hp, htext, fun himporter => habsolute (hslash.2 ?_)⟩
  unfold Path.child Path.join
  split
  · assumption
  · exact himporter

/-- At none of the paths is there a file, and each can be tested for one. -/
def Absent (t : FileTree) (paths : List String) : Prop :=
  ∀ path ∈ paths, t.isFile (Path.ofString path) = .ok false

/-- Among the paths this is the first at which the test for a file has an outcome that counts: at those
before it there is no file. -/
def IsFirst (t : FileTree) (paths : List String) (path : String) (outcome : Except FileError Bool) :
    Prop :=
  ∃ before after, paths = before ++ path :: after ∧ Absent t before ∧
    t.isFile (Path.ofString path) = outcome

section First

variable {t : FileTree} {paths : List String} {path : String}

theorem firstFile?_append {before : List String} (h : Absent t before) (rest : List String) :
    firstFile? t (before ++ rest) = firstFile? t rest := by
  induction before with
  | nil => rfl
  | cons first more ih =>
    obtain ⟨hfirst, hmore⟩ := List.forall_mem_cons.1 h
    rw [List.cons_append, firstFile?, hfirst]
    exact ih hmore

theorem firstFile?_of_absent (h : Absent t paths) : firstFile? t paths = .ok none := by
  have hnil := firstFile?_append h []
  rwa [List.append_nil] at hnil

theorem firstFile?_of_isFirst (h : IsFirst t paths path (.ok true)) :
    firstFile? t paths = .ok (some path) := by
  obtain ⟨before, after, rfl, hbefore, hpath⟩ := h
  rw [firstFile?_append hbefore, firstFile?, hpath]
  rfl

theorem firstFile?_of_isFirst_error {e : FileError} (h : IsFirst t paths path (.error e)) :
    firstFile? t paths = .error e := by
  obtain ⟨before, after, rfl, hbefore, hpath⟩ := h
  rw [firstFile?_append hbefore, firstFile?, hpath]
  rfl

/-- Trying the paths ends at the first of them with a file, or that cannot be tested for one, or at
their end. -/
theorem absent_or_isFirst (t : FileTree) (paths : List String) :
    Absent t paths ∨ (∃ path, IsFirst t paths path (.ok true)) ∨
      ∃ path e, IsFirst t paths path (.error e) := by
  induction paths with
  | nil => exact Or.inl (List.forall_mem_nil _)
  | cons first rest ih =>
    have hnil : Absent t [] := List.forall_mem_nil _
    cases hfirst : t.isFile (Path.ofString first) with
    | error e => exact Or.inr (Or.inr ⟨first, e, [], rest, rfl, hnil, hfirst⟩)
    | ok there =>
      cases there with
      | true => exact Or.inr (Or.inl ⟨first, [], rest, rfl, hnil, hfirst⟩)
      | false =>
        have hcons {before : List String} (h : Absent t before) : Absent t (first :: before) :=
          List.forall_mem_cons.2 ⟨hfirst, h⟩
        rcases ih with habsent | ⟨path, before, after, rfl, hbefore, hpath⟩ |
          ⟨path, e, before, after, rfl, hbefore, hpath⟩
        · exact Or.inl (hcons habsent)
        · exact Or.inr (Or.inl ⟨path, first :: before, after, rfl, hcons hbefore, hpath⟩)
        · exact Or.inr (Or.inr ⟨path, e, first :: before, after, rfl, hcons hbefore, hpath⟩)

theorem firstFile?_eq_some_iff :
    firstFile? t paths = .ok (some path) ↔ IsFirst t paths path (.ok true) := by
  refine ⟨fun h => ?_, firstFile?_of_isFirst⟩
  rcases absent_or_isFirst t paths with habsent | ⟨file, hfile⟩ | ⟨tried, e, herror⟩
  · rw [firstFile?_of_absent habsent] at h
    cases h
  · rw [firstFile?_of_isFirst hfile] at h
    cases h
    exact hfile
  · rw [firstFile?_of_isFirst_error herror] at h
    cases h

/-- Of the paths in front there is no file if what is found stands behind them. -/
theorem absent_of_firstFile?_append {more : List String}
    (h : firstFile? t (paths ++ more) = .ok (some path)) (hnot : path ∉ paths) : Absent t paths := by
  obtain ⟨before, after, heq, habsent, -⟩ := firstFile?_eq_some_iff.1 h
  rcases List.append_eq_append_iff.1 heq with ⟨between, rfl, -⟩ | ⟨between, rfl, hrest⟩
  · exact fun tried htried => habsent tried (List.mem_append_left _ htried)
  · cases between with
    | nil => rwa [List.append_nil]
    | cons first between =>
      obtain rfl := (List.cons.inj hrest).1
      exact absurd (List.mem_append_right _ List.mem_cons_self) hnot

theorem firstFile?_eq_none_iff : firstFile? t paths = .ok none ↔ Absent t paths := by
  refine ⟨fun h => ?_, firstFile?_of_absent⟩
  rcases absent_or_isFirst t paths with habsent | ⟨file, hfile⟩ | ⟨tried, e, herror⟩
  · exact habsent
  · rw [firstFile?_of_isFirst hfile] at h
    cases h
  · rw [firstFile?_of_isFirst_error herror] at h
    cases h

theorem firstFile?_eq_error_iff {e : FileError} :
    firstFile? t paths = .error e ↔ ∃ tried, IsFirst t paths tried (.error e) := by
  refine ⟨fun h => ?_, fun ⟨tried, herror⟩ => firstFile?_of_isFirst_error herror⟩
  rcases absent_or_isFirst t paths with habsent | ⟨file, hfile⟩ | ⟨tried, e', herror⟩
  · rw [firstFile?_of_absent habsent] at h
    cases h
  · rw [firstFile?_of_isFirst hfile] at h
    cases h
  · rw [firstFile?_of_isFirst_error herror] at h
    cases h
    exact ⟨tried, herror⟩

/-- The two searches for the first file that is there agree. -/
theorem firstManifest?_map (t : FileTree) (paths : List String) :
    firstManifest? t (paths.map Path.ofString) =
      (firstFile? t paths).map (Option.map Path.ofString) := by
  induction paths with
  | nil => rfl
  | cons first rest ih =>
    rw [List.map_cons, firstManifest?, firstFile?]
    cases t.isFile (Path.ofString first) with
    | error e => rfl
    | ok there =>
      cases there with
      | true => rfl
      | false => exact ih

end First

section Resolved

variable {t : FileTree} {specifier importer path : String}

/-- A specifier is resolved to the first file among those that are tried, or else to the target. -/
theorem resolve_eq_ok_iff :
    resolve t specifier importer = .ok path ↔
      IsFirst t (candidates (target specifier importer)) path (.ok true) ∨
        Absent t (candidates (target specifier importer)) ∧ path = target specifier importer := by
  rw [← firstFile?_eq_some_iff, ← firstFile?_eq_none_iff]
  unfold resolve
  dsimp only [bind, Except.bind]
  cases firstFile? t (candidates (target specifier importer)) with
  | error e => exact ⟨nofun, by rintro (h | ⟨h, -⟩) <;> cases h⟩
  | ok found => cases found <;> simp [pure, Except.pure, eq_comm]

/-- Resolving a specifier fails where testing for a file does, before one is found. -/
theorem resolve_eq_error_iff {e : FileError} :
    resolve t specifier importer = .error e ↔
      ∃ tried, IsFirst t (candidates (target specifier importer)) tried (.error e) := by
  rw [← firstFile?_eq_error_iff]
  unfold resolve
  dsimp only [bind, Except.bind]
  cases firstFile? t (candidates (target specifier importer)) with
  | error cause => simp
  | ok found => exact ⟨nofun, nofun⟩

/-- What a specifier is resolved to is a file that was tried, or else the target. -/
theorem resolve_ok (h : resolve t specifier importer = .ok path) :
    (path ∈ candidates (target specifier importer) ∧ t.isFile (Path.ofString path) = .ok true) ∨
      (path = target specifier importer ∧ Absent t (candidates (target specifier importer))) := by
  rcases resolve_eq_ok_iff.1 h with ⟨before, after, hpaths, -, hpath⟩ | ⟨habsent, hpath⟩
  · exact Or.inl ⟨hpaths ▸ List.mem_append_right _ List.mem_cons_self, hpath⟩
  · exact Or.inr ⟨hpath, habsent⟩

/-- What a specifier is resolved to is the text of a normal path, but for the two exceptions. -/
theorem resolve_cases (h : resolve t specifier importer = .ok path) :
    (∃ p, IsNormal p ∧ path = p.toText ∧
        ((Path.ofString importer).isAbsolute = true → p.isAbsolute = true)) ∨
      path ∈ rootIndexes ∨ (Path.ofString importer).isAbsolute = false ∧ path ∈ hereIndexes := by
  obtain ⟨p, hp, htarget, habsolute⟩ := exists_isNormal_target specifier importer
  have hrelative (hno : p.isAbsolute = false) : (Path.ofString importer).isAbsolute = false :=
    Bool.eq_false_iff.2 fun himporter => by simp [habsolute himporter] at hno
  rcases resolve_ok h with ⟨hmem, -⟩ | ⟨rfl, -⟩
  · rw [htarget] at hmem
    rcases List.mem_append.1 hmem with hmem | hmem
    · obtain ⟨ending, hending, rfl⟩ := List.mem_map.1 hmem
      obtain ⟨front, last, hnormal, -, htext, -⟩ := exists_isNormal_append hp hending
      exact Or.inl ⟨_, hnormal, htext, habsolute⟩
    · obtain ⟨ending, hending, rfl⟩ := List.mem_map.1 hmem
      rcases exists_isNormal_index hp hending with
        ⟨q, hq, hqabs, htext⟩ | ⟨-, hroot⟩ | ⟨hno, hhere⟩
      · exact Or.inl ⟨q, hq, htext, fun himporter => hqabs.trans (habsolute himporter)⟩
      · exact Or.inr (Or.inl hroot)
      · exact Or.inr (Or.inr ⟨hrelative hno, hhere⟩)
  · exact Or.inl ⟨p, hp, htarget, habsolute⟩

/-- From a file at an absolute path one comes to absolute paths, and each of them is in normal form
but for the index files right below the root. -/
theorem normalize_resolve (himporter : (Path.ofString importer).isAbsolute = true)
    (h : resolve t specifier importer = .ok path) :
    (Path.ofString path).isAbsolute = true ∧
      (Path.normalize path = path ∨ path ∈ rootIndexes) := by
  rcases resolve_cases h with ⟨p, hp, rfl, habsolute⟩ | hroot | ⟨hno, -⟩
  · refine ⟨?_, Or.inl hp.normalize_toText⟩
    rw [hp.ofString_toText]
    exact habsolute himporter
  · have hall : ∀ path ∈ rootIndexes, (Path.ofString path).isAbsolute = true := by decide
    exact ⟨hall path hroot, Or.inr hroot⟩
  · rw [himporter] at hno
    cases hno

/-- A path that a specifier is resolved to is written in at most two bytes more than it needs. -/
theorem size_resolve (h : resolve t specifier importer = .ok path) :
    path.utf8ByteSize ≤ (Path.ofString path).toText.utf8ByteSize + 2 := by
  rcases resolve_cases h with ⟨p, hp, rfl, -⟩ | hroot | ⟨-, hhere⟩
  · rw [hp.ofString_toText]
    omega
  · have hall : ∀ path ∈ rootIndexes,
        path.utf8ByteSize ≤ (Path.ofString path).toText.utf8ByteSize + 2 := by decide
    exact hall path hroot
  · have hall : ∀ path ∈ hereIndexes,
        path.utf8ByteSize ≤ (Path.ofString path).toText.utf8ByteSize + 2 := by decide
    exact hall path hhere

/-- What a specifier is resolved to can be tested for: it was tried, or its name is shorter than
names that were. -/
theorem exists_isFile_resolve (h : resolve t specifier importer = .ok path) :
    ∃ there, t.isFile (Path.ofString path) = .ok there := by
  rcases resolve_ok h with ⟨-, hfile⟩ | ⟨rfl, hnone⟩
  · exact ⟨true, hfile⟩
  · obtain ⟨p, hp, htarget, -⟩ := exists_isNormal_target specifier importer
    have hending : ".ts" ∈ endings := by decide
    obtain ⟨front, last, hq, hplain, htext, hsegments⟩ := exists_isNormal_append hp hending
    -- the target with its first ending was tried
    have htried := hnone (target specifier importer ++ ".ts")
      (List.mem_append_left _ (List.mem_map.2 ⟨".ts", hending, rfl⟩))
    rw [htarget, htext, hq.ofString_toText] at htried
    have hlonger := FileTree.isFile_ok_iff.1 ⟨false, htried⟩
    rw [← htext] at hlonger
    rw [htarget, hp.ofString_toText]
    refine FileTree.isFile_ok_iff.2 fun hwritable hnull => ?_
    obtain ⟨hsize, hwalk⟩ := hlonger
      (by rw [Text.isWritable_append, hwritable]; decide) (by simp [hnull])
    rw [String.utf8ByteSize_append] at hsize
    refine ⟨by omega, ?_⟩
    rcases hsegments with hsegments | hsegments
    · rw [hsegments]
      exact FileTree.walk_concat_append hplain hwalk
    · rw [hsegments]
      simp [FileTree.walk]

end Resolved

end Import

end StoryRegistry
