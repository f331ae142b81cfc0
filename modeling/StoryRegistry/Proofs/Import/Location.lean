import StoryRegistry.Proofs.Import.Targets

/-!
# One location, one file

A specifier leads lexically from the directory of the file that imports it to a location. The target
is the text of that location (`target_of_denotes`), so that however it is spelled, and from wherever
it is imported, the same file is found, the first of those that are tried (`resolve_of_denotes`). Its
path is in normal form, but for an index file right below two slashes. Nothing is found where a name
is too long to be tested for (`resolve_of_longName`).
-/

set_option autoImplicit false

namespace StoryRegistry

/-! ## Lexical locations -/

namespace Path

/-- From the directory the segments lead to the other one: an empty segment and `.` stay, `..` goes
to the directory above, the root being above itself, and any other segment goes down. -/
inductive Leads : List String → List String → List String → Prop where
  | here (place : List String) : Leads place [] place
  | idle {place rest goal : List String} {segment : String} (hidle : segment = "" ∨ segment = ".")
      (hrest : Leads place rest goal) : Leads place (segment :: rest) goal
  | up {place rest goal : List String} (hrest : Leads place.dropLast rest goal) :
      Leads place (".." :: rest) goal
  | down {place rest goal : List String} {segment : String}
      (hname : segment ≠ "" ∧ segment ≠ "." ∧ segment ≠ "..")
      (hrest : Leads (place ++ [segment]) rest goal) : Leads place (segment :: rest) goal

theorem exists_leads (place segments : List String) : ∃ goal, Leads place segments goal := by
  induction segments generalizing place with
  | nil => exact ⟨place, .here place⟩
  | cons segment rest ih =>
    by_cases hidle : segment = "" ∨ segment = "."
    · obtain ⟨goal, hgoal⟩ := ih place
      exact ⟨goal, .idle hidle hgoal⟩
    · by_cases hup : segment = ".."
      · obtain ⟨goal, hgoal⟩ := ih place.dropLast
        exact ⟨goal, hup ▸ .up hgoal⟩
      · obtain ⟨goal, hgoal⟩ := ih (place ++ [segment])
        exact ⟨goal, .down ⟨fun h => hidle (Or.inl h), fun h => hidle (Or.inr h), hup⟩ hgoal⟩

/-- A place is made of segments of the directory and of names on the way to it. -/
theorem Leads.mem {place segments goal : List String} (h : Leads place segments goal)
    {segment : String} (hmem : segment ∈ goal) :
    segment ∈ place ∨ segment ∈ segments ∧ segment ≠ "" ∧ segment ≠ "." ∧ segment ≠ ".." := by
  induction h with
  | here place => exact Or.inl hmem
  | idle _ _ ih => exact (ih hmem).imp_right (And.imp_left (List.mem_cons_of_mem _))
  | up _ ih =>
    exact (ih hmem).imp (fun hmem => List.dropLast_subset _ hmem)
      (And.imp_left (List.mem_cons_of_mem _))
  | down hname _ ih =>
    rcases ih hmem with hmem | hmem
    · rcases List.mem_append.1 hmem with hmem | hmem
      · exact Or.inl hmem
      · obtain rfl := List.mem_singleton.1 hmem
        exact Or.inr ⟨List.mem_cons_self, hname⟩
    · exact Or.inr (hmem.imp_left (List.mem_cons_of_mem _))

/-- Where segments lead to is where the ones that count are put on the stack. -/
theorem Leads.foldl_pushSegment {place segments goal : List String} (h : Leads place segments goal)
    (hplace : ".." ∉ place) :
    (segments.filter fun segment => segment != "" && segment != ".").foldl (pushSegment true)
      place.reverse = goal.reverse := by
  induction h with
  | here place => rfl
  | @idle place rest goal segment hidle _ ih =>
    rw [List.filter_cons_of_neg (by rcases hidle with rfl | rfl <;> decide)]
    exact ih hplace
  | @up place rest goal _ ih =>
    rw [List.filter_cons_of_pos (by decide), List.foldl_cons]
    have hpush : pushSegment true place.reverse ".." = place.dropLast.reverse := by
      rcases List.eq_nil_or_concat place with rfl | ⟨front, last, rfl⟩
      · rfl
      · have hlast : last ≠ ".." := fun heq => hplace (by simp [heq])
        simp [pushSegment, hlast]
    rw [hpush]
    exact ih fun hmem => hplace (List.dropLast_subset _ hmem)
  | @down place rest goal segment hname _ ih =>
    obtain ⟨hfilled, hhere, hup⟩ := hname
    rw [List.filter_cons_of_pos (by simp [hfilled, hhere]), List.foldl_cons]
    have hpush : pushSegment true place.reverse segment = (place ++ [segment]).reverse := by
      simp [pushSegment, hup]
    rw [hpush]
    exact ih (by simp [hplace, Ne.symm hup])

/-- Segments lead to one place only, the one that is left on the stack. -/
theorem leads_iff {place segments goal : List String} (hplace : ".." ∉ place) :
    Leads place segments goal ↔
      (segments.filter fun segment => segment != "" && segment != ".").foldl (pushSegment true)
        place.reverse = goal.reverse := by
  refine ⟨fun h => h.foldl_pushSegment hplace, fun h => ?_⟩
  obtain ⟨other, hother⟩ := exists_leads place segments
  have heq := (hother.foldl_pushSegment hplace).symm.trans h
  rwa [List.reverse_injective heq] at hother

end Path

namespace Import

open StoryRegistry.Path (IsNormal Leads)

/-- The specifier leads to the location from the directory in which the importing file lies. The root
is the one with that many slashes; two slashes are a root of their own. -/
def Denotes (specifier importer : String) (root : Nat) (location : List String) : Prop :=
  root = Path.leadingSlashes importer.toList ∧
    ∃ file, Leads [] (Text.parts '/' importer) file ∧
      Leads file.dropLast (Text.parts '/' specifier) location

/-- The text is an absolute path in normal form. -/
structure IsAbsoluteNormal (path : String) : Prop where
  absolute : path.toList.head? = some '/'
  normal : Path.normalize path = path

/-- The specifier begins with no slash and has no backslashes. -/
structure IsPlainRelative (specifier : String) : Prop where
  relative : specifier.toList.head? ≠ some '/'
  noBackslash : '\\' ∉ specifier.toList

theorem IsAbsoluteNormal.exists_isNormal {path : String} (h : IsAbsoluteNormal path) :
    ∃ p, IsNormal p ∧ p.isAbsolute = true ∧ path = p.toText := by
  have hne : path ≠ "" := by
    rintro rfl
    exact absurd h.absolute (by decide)
  obtain ⟨p, hp, htext, habsolute⟩ := Path.exists_isNormal hne
  exact ⟨p, hp, habsolute h.absolute, h.normal.symm.trans htext⟩

section

variable {specifier importer : String} {root : Nat} {location : List String}

/-- Every specifier denotes a location. -/
theorem exists_denotes (specifier importer : String) :
    ∃ root location, Denotes specifier importer root location := by
  obtain ⟨file, hfile⟩ := Path.exists_leads [] (Text.parts '/' importer)
  obtain ⟨location, hlocation⟩ := Path.exists_leads file.dropLast (Text.parts '/' specifier)
  exact ⟨_, location, rfl, file, hfile, hlocation⟩

/-- What the text of an absolute path in normal form leads to is where its segments say. -/
theorem eq_segments_of_leads {p : Path} (hp : IsNormal p) (habsolute : p.isAbsolute = true)
    {file : List String} (h : Leads [] (Text.parts '/' p.toText) file) : p.segments = file := by
  have hread : (Path.ofString p.toText).segments = p.segments :=
    congrArg Path.segments hp.ofString_toText
  have hstack := h.foldl_pushSegment List.not_mem_nil
  rw [show (Text.parts '/' p.toText).filter (fun segment => segment != "" && segment != ".") =
      p.segments from hread, List.reverse_nil,
    Path.foldl_pushSegment_of_not_mem (hp.notAbove habsolute), List.append_nil] at hstack
  exact List.reverse_injective hstack

/-- A location that is denoted is an absolute path in normal form. -/
theorem isNormal_of_denotes (himporter : IsAbsoluteNormal importer)
    (hspecifier : IsPlainRelative specifier) (h : Denotes specifier importer root location) :
    IsNormal ⟨root, location⟩ ∧ Path.isAbsolute ⟨root, location⟩ = true := by
  obtain ⟨p, hp, habsolute, rfl⟩ := himporter.exists_isNormal
  obtain ⟨rfl, file, hfile, hlocation⟩ := h
  obtain rfl : p.segments = file := eq_segments_of_leads hp habsolute hfile
  have hslashes : Path.leadingSlashes p.toText.toList = p.slashes :=
    congrArg Path.slashes hp.ofString_toText
  rw [hslashes]
  have hcases {segment : String} (hmem : segment ∈ location) :
      segment ∈ p.segments ∨ segment ∈ (Path.ofString specifier).segments ∧ segment ≠ ".." := by
    rcases hlocation.mem hmem with hmem | ⟨hmem, hfilled, hhere, hup⟩
    · exact Or.inl (List.dropLast_subset _ hmem)
    · exact Or.inr ⟨List.mem_filter.2 ⟨hmem, by simp [hfilled, hhere]⟩, hup⟩
  refine ⟨⟨hp.slashes_le, fun segment hmem => ?_, fun segment hmem => ?_,
    ⟨0, location, rfl, fun hmem => ?_, fun _ => rfl⟩⟩, habsolute⟩
  · exact (hcases hmem).elim (hp.whole segment) fun h => Path.isSegment_of_mem_ofString h.1
  · exact (hcases hmem).elim (hp.noBackslash segment)
      fun h hc => hspecifier.noBackslash (Path.mem_of_mem_segment h.1 hc)
  · exact (hcases hmem).elim (hp.notAbove habsolute) fun h => h.2 rfl

/-- The target of a specifier is the text of the location that it denotes. -/
theorem target_of_denotes (himporter : IsAbsoluteNormal importer)
    (hspecifier : IsPlainRelative specifier) (h : Denotes specifier importer root location) :
    target specifier importer = Path.toText ⟨root, location⟩ := by
  obtain ⟨p, hp, habsolute, rfl⟩ := himporter.exists_isNormal
  obtain ⟨rfl, file, hfile, hlocation⟩ := h
  obtain rfl : p.segments = file := eq_segments_of_leads hp habsolute hfile
  have hread := hp.ofString_toText
  have hslashes : Path.leadingSlashes p.toText.toList = p.slashes := congrArg Path.slashes hread
  have hsub {segment : String} (hmem : segment ∈ p.segments.dropLast) : segment ∈ p.segments :=
    List.dropLast_subset _ hmem
  have hdirectory : ".." ∉ p.segments.dropLast := fun hmem => hp.notAbove habsolute (hsub hmem)
  have hrelative : (Path.ofString specifier).isAbsolute = false :=
    Bool.eq_false_iff.2 fun h => hspecifier.relative (Path.isAbsolute_ofString.1 h)
  have hchild : p.parent.child specifier =
      ⟨p.slashes, p.segments.dropLast ++ (Path.ofString specifier).segments⟩ := by
    rw [Path.child, Path.join, hrelative]
    rfl
  have hnormalize := Path.normalize_toText (p := p.parent.child specifier)
    (by rw [hchild]; exact hp.slashes_le)
    (by
      rw [hchild]
      exact List.forall_mem_append.2 ⟨fun segment hmem => hp.whole segment (hsub hmem),
        fun segment hmem => Path.isSegment_of_mem_ofString hmem⟩)
    (by
      rw [hchild]
      exact List.forall_mem_append.2 ⟨fun segment hmem => hp.noBackslash segment (hsub hmem),
        fun segment hmem hc => hspecifier.noBackslash (Path.mem_of_mem_segment hmem hc)⟩)
  -- the directory is put on the stack, and from there the specifier leads to the location
  have hend := hlocation.foldl_pushSegment hdirectory
  have hfold : ((p.segments.dropLast ++ (Path.ofString specifier).segments).foldl
      (Path.pushSegment true) []).reverse = location := by
    rw [List.foldl_append, Path.foldl_pushSegment_of_not_mem hdirectory, List.append_nil]
    exact (congrArg List.reverse hend).trans (List.reverse_reverse location)
  rw [target, hread, hnormalize, hchild, Path.normal,
    show Path.isAbsolute ⟨p.slashes, p.segments.dropLast ++ _⟩ = true from habsolute, hfold,
    hslashes]

/-- What is tried for an absolute base in normal form is in normal form, but for the index files
right below two slashes. -/
theorem normalize_candidate {p : Path} (hp : IsNormal p) (habsolute : p.isAbsolute = true)
    {tried : String} (h : tried ∈ candidates p.toText) :
    Path.normalize tried = tried ∨ p = ⟨2, []⟩ ∧ tried ∈ rootIndexes := by
  rcases List.mem_append.1 h with h | h
  · obtain ⟨ending, hending, rfl⟩ := List.mem_map.1 h
    obtain ⟨front, last, hnormal, -, htext, -⟩ := exists_isNormal_append hp hending
    rw [htext]
    exact Or.inl hnormal.normalize_toText
  · obtain ⟨ending, hending, rfl⟩ := List.mem_map.1 h
    rcases exists_isNormal_index hp hending with ⟨q, hq, -, htext⟩ | hroot | ⟨hrelative, -⟩
    · rw [htext]
      exact Or.inl hq.normalize_toText
    · exact Or.inr hroot
    · rw [habsolute] at hrelative
      cases hrelative

/-- However a location is spelled, and from wherever it is imported, it is resolved to the same file: to
the first of those that are tried for it, or else to its own path. That path is in normal form unless
it is the one of an index file right below two slashes. Resolving fails only where a name is too long
for a test, before any file is found. -/
theorem resolve_of_denotes (t : FileTree) {specifier specifier' importer importer' : String}
    {root : Nat} {location : List String}
    (himporter : IsAbsoluteNormal importer) (himporter' : IsAbsoluteNormal importer')
    (hspecifier : IsPlainRelative specifier) (hspecifier' : IsPlainRelative specifier')
    (h : Denotes specifier importer root location)
    (h' : Denotes specifier' importer' root location) :
    resolve t specifier importer = resolve t specifier' importer' ∧
      (∀ path, resolve t specifier importer = .ok path ↔
        IsFirst t (candidates (Path.toText ⟨root, location⟩)) path (.ok true) ∨
          Absent t (candidates (Path.toText ⟨root, location⟩)) ∧
            path = Path.toText ⟨root, location⟩) ∧
      (∀ path, resolve t specifier importer = .ok path →
        (Path.normalize path ≠ path ↔ root = 2 ∧ location = [] ∧ path ∈ rootIndexes)) ∧
      ∀ e, resolve t specifier importer = .error e ↔
        ∃ tried, IsFirst t (candidates (Path.toText ⟨root, location⟩)) tried (.error e) ∧
          e = .fault .nameTooLong (Path.ofString tried).toText := by
  have htarget := target_of_denotes himporter hspecifier h
  refine ⟨?_, fun path => htarget ▸ resolve_eq_ok_iff, fun path hpath => ?_, fun e => ?_⟩
  · unfold resolve
    rw [htarget, target_of_denotes himporter' hspecifier' h']
  · obtain ⟨hp, habsolute⟩ := isNormal_of_denotes himporter hspecifier h
    have hexceptions : ∀ index ∈ rootIndexes, Path.normalize index ≠ index := by decide +kernel
    have hcases : Path.normalize path = path ∨
        (⟨root, location⟩ : Path) = ⟨2, []⟩ ∧ path ∈ rootIndexes := by
      rcases resolve_ok hpath with ⟨htried, -⟩ | ⟨rfl, -⟩
      · exact normalize_candidate hp habsolute (htarget ▸ htried)
      · exact Or.inl (htarget ▸ hp.normalize_toText)
    rw [Path.mk.injEq, and_assoc] at hcases
    exact ⟨hcases.resolve_left, fun hindex => hexceptions path hindex.2.2⟩
  · rw [resolve_eq_error_iff, htarget]
    refine exists_congr fun tried => (and_iff_left_of_imp ?_).symm
    rintro ⟨_, _, _, _, herror⟩
    exact FileTree.isFile_error herror

/-- A specifier is not resolved where its name is too long for a file in a folder that is there. -/
theorem resolve_of_longName {t : FileTree} {folder : List String} {name : String} {place : Place}
    (himporter : IsAbsoluteNormal importer) (hspecifier : IsPlainRelative specifier)
    (h : Denotes specifier importer root (folder ++ [name]))
    (hfolder : t.find ⟨root, folder⟩ = .ok (.folder place))
    (hlong : FileTree.longestName < (name ++ ".ts").utf8ByteSize)
    (hwritable : Text.isWritable (Path.toText ⟨root, folder ++ [name]⟩) = true)
    (hnull : '\x00' ∉ (Path.toText ⟨root, folder ++ [name]⟩).toList) :
    resolve t specifier importer =
      .error (.fault .nameTooLong (Path.toText ⟨root, folder ++ [name ++ ".ts"]⟩)) := by
  obtain ⟨hp, hroot⟩ := isNormal_of_denotes himporter hspecifier h
  have habsolute (segments : List String) : Path.isAbsolute ⟨root, segments⟩ = true := hroot
  have hplain : Path.IsPlain (name ++ ".ts") := by
    refine Path.isPlain_of_length ?_ ?_
    · simpa using (hp.whole name (by simp)).noSlash
    · simp
  have hbackslash : '\\' ∉ (name ++ ".ts").toList := by simpa using hp.noBackslash name (by simp)
  have hq : IsNormal ⟨root, folder ++ [name ++ ".ts"]⟩ :=
    hp.concat (List.prefix_append folder [name]) hplain hbackslash
  have htext := Path.toText_append root folder name ".ts"
  -- the walk gets as far as the folder
  have hwalk : t.walk [] (folder ++ [name ++ ".ts"]) = .error .nameTooLong := by
    have hfound : t.walk [] folder = .ok (.folder place) := by
      unfold FileTree.find at hfolder
      dsimp only at hfolder
      rw [if_pos (habsolute folder)] at hfolder
      split_ifs at hfolder
      cases hwalk : t.walk [] folder with
      | ok spot =>
        rw [hwalk] at hfolder
        cases hfolder
        rfl
      | error kind =>
        rw [hwalk] at hfolder
        cases hfolder
    rw [FileTree.walk_append, hfound]
    dsimp only
    rw [FileTree.walk, ← FileTree.spot_of_walk hfound]
    dsimp only
    rw [if_neg (by simpa using hplain.notAbove), if_pos hlong]
  have htest : ¬∃ there, t.isFile ⟨root, folder ++ [name ++ ".ts"]⟩ = .ok there := by
    intro hthere
    have hends := FileTree.isFile_ok_iff.1 hthere
    rw [← htext, Text.isWritable_append, hwritable, String.toList_append, List.mem_append] at hends
    have hwalks := (hends (by decide) (by simp [hnull])).2
    rw [if_pos (habsolute _)] at hwalks
    exact hwalks hwalk
  cases hfile : t.isFile ⟨root, folder ++ [name ++ ".ts"]⟩ with
  | ok there => exact absurd ⟨there, hfile⟩ htest
  | error e =>
    obtain rfl := FileTree.isFile_error hfile
    have hcandidates : candidates (target specifier importer) =
        [] ++ Path.toText ⟨root, folder ++ [name ++ ".ts"]⟩ ::
          (candidates (target specifier importer)).tail := by
      rw [← htext, target_of_denotes himporter hspecifier h]
      rfl
    refine resolve_eq_error_iff.2 ⟨_, [], _, hcandidates, List.forall_mem_nil _, ?_⟩
    rw [hq.ofString_toText, hfile]

end

/-! ## Two spellings of one location -/

namespace TwoSpellings

/-- A component in a file of its own, beside a folder of the same name with an index file. -/
def tree : FileTree where
  here := ["p"]
  clock := 0
  folders := [[], ["p"], ["p", "lib"], ["p", "lib", "b"], ["p", "src"]]
  files := [(["p", "lib", "b.tsx"], ⟨[], 0⟩), (["p", "lib", "b", "index.ts"], ⟨[], 0⟩)]

theorem isAbsoluteNormal_first : IsAbsoluteNormal "/p/src/a.ts" :=
  ⟨by decide +kernel, by decide +kernel⟩

theorem isAbsoluteNormal_second : IsAbsoluteNormal "/p/lib/c/d.ts" :=
  ⟨by decide +kernel, by decide +kernel⟩

theorem denotes_first : Denotes "../lib/./b" "/p/src/a.ts" 1 ["p", "lib", "b"] :=
  ⟨by decide +kernel, ["p", "src", "a.ts"], (Path.leads_iff List.not_mem_nil).2 (by decide +kernel),
    (Path.leads_iff (by decide)).2 (by decide +kernel)⟩

theorem denotes_second : Denotes "..//b/" "/p/lib/c/d.ts" 1 ["p", "lib", "b"] :=
  ⟨by decide +kernel, ["p", "lib", "c", "d.ts"],
    (Path.leads_iff List.not_mem_nil).2 (by decide +kernel),
    (Path.leads_iff (by decide)).2 (by decide +kernel)⟩

theorem isFirst : IsFirst tree (candidates (Path.toText ⟨1, ["p", "lib", "b"]⟩)) "/p/lib/b.tsx"
    (.ok true) :=
  ⟨["/p/lib/b.ts"], (candidates "/p/lib/b").drop 2, by decide +kernel,
    List.forall_mem_singleton.2 (by decide +kernel), by decide +kernel⟩

end TwoSpellings

open TwoSpellings in
/-- Two files in different folders that import one component find it, although they spell it in
different ways. -/
theorem resolve_two_spellings :
    resolve tree "../lib/./b" "/p/src/a.ts" = .ok "/p/lib/b.tsx" ∧
      resolve tree "..//b/" "/p/lib/c/d.ts" = .ok "/p/lib/b.tsx" ∧
      Path.normalize "/p/lib/b.tsx" = "/p/lib/b.tsx" := by
  obtain ⟨hsame, hok, hnormal, -⟩ := resolve_of_denotes tree isAbsoluteNormal_first
    isAbsoluteNormal_second ⟨by decide +kernel, by decide +kernel⟩
    ⟨by decide +kernel, by decide +kernel⟩ denotes_first denotes_second
  have hfirst := (hok "/p/lib/b.tsx").2 (Or.inl isFirst)
  refine ⟨hfirst, hsame.symm.trans hfirst, ?_⟩
  by_contra hne
  exact absurd ((hnormal _ hfirst).1 hne).1 (by decide)

end Import

end StoryRegistry
