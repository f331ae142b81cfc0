import StoryRegistry.Proofs.Analysis.Measures
import StoryRegistry.Proofs.Import.Location
import StoryRegistry.Proofs.Registry.Acceptance
import StoryRegistry.Proofs.Story.Outline
import StoryRegistry.Proofs.Text.Order
import StoryRegistry.Session.Discovery

/-!
# Where the component of a story file is found

What is looked for are files with the name that the story file's name suggests, or the component's,
and an ending of component files. The mark `.stories.` in the story file's name keeps it from being one
of them. Without the mark the suggested name is the story file's own one, and so the story file is
found as its own component, unless it has another ending or another file goes first
(`component?_of_story`).
-/

set_option autoImplicit false

namespace StoryRegistry

/-! ## Last segments -/

namespace Path

open StoryRegistry.Text

/-- The text of a path that ends in a plain name: nothing or a slash stands before the name. -/
theorem toList_toText_concat (slashes : Nat) (segments : List String) (name : String) :
    ∃ before, (toText ⟨slashes, segments ++ [name]⟩).toList = before ++ name.toList ∧
      (before = [] ∨ ∃ front, before = front ++ ['/']) := by
  have htext : (toText ⟨slashes, segments ++ [name]⟩).toList = List.replicate slashes '/' ++
      joinWith ['/'] (segments.map String.toList ++ [name.toList]) := by
    rw [toList_toText (.inr (by simp)), List.map_append, List.map_singleton]
  rw [htext]
  by_cases hsegments : segments = []
  · refine ⟨List.replicate slashes '/', by simp [hsegments, joinWith], ?_⟩
    cases slashes with
    | zero => exact .inl rfl
    | succ n => exact .inr ⟨List.replicate n '/', List.replicate_succ'⟩
  · have hmap : segments.map String.toList ≠ [] := by simpa using hsegments
    refine ⟨List.replicate slashes '/' ++ joinWith ['/'] (segments.map String.toList) ++ ['/'], ?_,
      .inr ⟨_, rfl⟩⟩
    rw [joinWith_append hmap (List.cons_ne_nil _ _), joinWith]
    simp

/-- A path is read with the name as its last segment that stands at the end of its text. -/
theorem exists_segments_ofString {s name : String} {before : List Char} (hname : IsPlain name)
    (h : s.toList = before ++ name.toList) (hbefore : before = [] ∨ ∃ front, before = front ++ ['/']) :
    ∃ segments, (ofString s).segments = segments ++ [name] := by
  have hparts : ∃ others, splitOn '/' s.toList = others ++ [name.toList] := by
    rcases hbefore with rfl | ⟨front, rfl⟩
    · exact ⟨[], by rw [h, List.nil_append, splitOn_eq_singleton hname.noSlash, List.nil_append]⟩
    · refine ⟨splitOn '/' front, ?_⟩
      rw [h, List.append_assoc, List.singleton_append, splitOn_append_separator,
        splitOn_eq_singleton hname.noSlash]
  obtain ⟨others, hothers⟩ := hparts
  have hlast : [name].filter (fun segment => segment != "" && segment != ".") = [name] :=
    List.filter_cons_of_pos (by simp [hname.filled, hname.notHere])
  have hread : (ofString s).segments =
      (parts '/' s).filter fun segment => segment != "" && segment != "." := rfl
  rw [hread, parts, hothers, List.map_append, List.map_singleton, String.ofList_toList,
    List.filter_append, hlast]
  exact ⟨_, rfl⟩

/-- A plain last segment stays the last one in the normal form, where it is put on the stack last. -/
theorem name_normal {p : Path} {front : List String} {name : String} (hname : IsPlain name)
    (h : p.segments = front ++ [name]) : p.normal.name = name := by
  have hpush (stack : List String) : pushSegment p.isAbsolute stack name = name :: stack := by
    simp [pushSegment, hname.notAbove]
  rw [Path.name, normal, h, List.foldl_append, List.foldl_cons, List.foldl_nil, hpush,
    List.reverse_cons, List.getLastD_concat]

/-- The normal form of what is read is read again as it is. -/
theorem ofString_toText_normal (s : String) :
    ofString (ofString s).normal.toText = (ofString s).normal :=
  ofString_toText (leadingSlashes_le _) fun _ hmem =>
    isSegment_of_mem_ofString (mem_of_mem_normal hmem)

/-- What a plain name below a folder is normalised to ends in that name. -/
theorem name_normalize_child (folder : Path) {name : String} (hname : IsPlain name)
    (hbackslash : '\\' ∉ name.toList) :
    (ofString (normalize (folder.child name).toText)).name = name := by
  obtain ⟨before, htext, hbefore⟩ := toList_toText_concat folder.slashes folder.segments name
  rw [← child_of_isPlain hname] at htext
  have hfilled : (folder.child name).toText ≠ "" := by
    intro hempty
    rw [hempty] at htext
    have hnil := (List.append_eq_nil_iff.1 htext.symm).2
    exact hname.filled (String.toList_eq_nil_iff.1 hnil)
  rw [normalize, if_neg (by simpa using hfilled)]
  generalize hread : (folder.child name).toText.map (fun c => if c == '\\' then '/' else c) = s
  -- replacing the backslashes leaves the name as it is
  have hs : s.toList = before.map (fun c => if c == '\\' then '/' else c) ++ name.toList := by
    have hsame := congrArg String.toList (map_slash_of_not_mem hbackslash)
    rw [String.toList_map] at hsame
    rw [← hread, String.toList_map, htext, List.map_append, hsame]
  obtain ⟨segments, hsegments⟩ := exists_segments_ofString hname hs (by
    rcases hbefore with rfl | ⟨front, rfl⟩
    · exact .inl rfl
    · exact .inr ⟨_, List.map_append⟩)
  rw [ofString_toText_normal, name_normal hname hsegments]

/-- A name with an ending is cut into the two, if there is a dot only at the front of the ending. -/
theorem cutSuffix_append {stem ending : String} {letters : List Char} (hstem : stem ≠ "")
    (hending : ending.toList = '.' :: letters) (hletters : letters ≠ []) (hdot : '.' ∉ letters) :
    cutSuffix (stem ++ ending) = (stem, ending) := by
  have hreversed : (stem ++ ending).toList.reverse = letters.reverse ++ '.' :: stem.toList.reverse := by
    simp [hending]
  have hall : ∀ c ∈ letters.reverse, (c != '.') = true := fun c hc => by
    simpa using fun heq : c = '.' => hdot (heq ▸ List.mem_reverse.1 hc)
  have htake : (letters.reverse ++ '.' :: stem.toList.reverse).takeWhile (· != '.') =
      letters.reverse := by
    simp [List.takeWhile_append_of_pos hall]
  have hdrop : (letters.reverse ++ '.' :: stem.toList.reverse).dropWhile (· != '.') =
      '.' :: stem.toList.reverse := by
    simp [List.dropWhile_append_of_pos hall]
  unfold cutSuffix
  simp only [hreversed, htake, hdrop]
  rw [if_neg (by simp [hletters, hstem]), List.reverse_reverse, List.reverse_reverse, ← hending,
    String.ofList_toList, String.ofList_toList]

/-- What a plain name beside a normal path is normalised to is that name beside it. -/
theorem normalize_beside {p : Path} (hp : IsNormal p) {name : String} (hname : IsPlain name)
    (hbackslash : '\\' ∉ name.toList) :
    normalize (p.parent.child name).toText = (p.parent.child name).toText ∧
      ofString (p.parent.child name).toText = p.parent.child name := by
  have hnormal : IsNormal (p.parent.child name) := by
    rw [child_of_isPlain hname]
    exact hp.concat (List.dropLast_prefix p.segments) hname hbackslash
  exact ⟨hnormal.normalize_toText, hnormal.ofString_toText⟩

/-- A path with a plain name is that name in its folder. -/
theorem child_name {p : Path} (hname : IsPlain p.name) : p.parent.child p.name = p := by
  have hsegments : p.segments ≠ [] := fun hnil => hname.filled (by simp [name, hnil])
  rw [child_of_isPlain hname]
  obtain ⟨slashes, segments⟩ := p
  obtain ⟨front, last, rfl⟩ := (List.eq_nil_or_concat' segments).resolve_left hsegments
  simp [parent, name]

end Path

/-! ## Names of component files -/

namespace Discovery

open StoryRegistry.Path (IsNormal IsPlain)
open StoryRegistry.Import (IsAbsoluteNormal IsFirst Absent firstFile?)

/-- An ending of component files is a dot and two or three letters. -/
theorem ending_form {ending : String} (h : ending ∈ componentEndings) :
    ∃ letters, ending.toList = '.' :: letters ∧ letters ≠ [] ∧ letters.length ≤ 3 ∧
      ∀ c ∈ letters, c.isAlphanum = true := by
  have hall : ∀ e ∈ componentEndings, e.toList = '.' :: e.toList.tail ∧ e.toList.tail ≠ [] ∧
      e.toList.tail.length ≤ 3 ∧ e.toList.tail.all Char.isAlphanum = true := by decide
  obtain ⟨htext, hne, hlength, hletters⟩ := hall ending h
  exact ⟨_, htext, hne, hlength, List.all_eq_true.1 hletters⟩

/-- The text can be the name of a component file without its ending. -/
structure IsBaseName (name : String) : Prop where
  filled : name ≠ ""
  noSlash : '/' ∉ name.toList
  noBackslash : '\\' ∉ name.toList

theorem not_mem_of_isAlphanum {cs : List Char} (h : ∀ c ∈ cs, c.isAlphanum = true) {mark : Char}
    (hmark : mark.isAlphanum = false) : mark ∉ cs := fun hmem => by
  rw [h mark hmem] at hmark
  cases hmark

/-- A name with an ending is the name of a file. -/
theorem IsBaseName.isPlain_append {name ending : String} (h : IsBaseName name)
    (hending : ending ∈ componentEndings) :
    IsPlain (name ++ ending) ∧ '\\' ∉ (name ++ ending).toList := by
  obtain ⟨letters, htext, hne, -, hletters⟩ := ending_form hending
  have hno {mark : Char} (hmark : mark.isAlphanum = false) (hdot : mark ≠ '.')
      (hname : mark ∉ name.toList) : mark ∉ (name ++ ending).toList := by
    rw [String.toList_append, htext, List.mem_append, List.mem_cons, not_or, not_or]
    exact ⟨hname, hdot, not_mem_of_isAlphanum hletters hmark⟩
  refine ⟨Path.isPlain_of_length (hno (by decide) (by decide) h.noSlash) ?_,
    hno (by decide) (by decide) h.noBackslash⟩
  have hfilled : 0 < name.toList.length :=
    List.length_pos_iff.2 (mt String.toList_eq_nil_iff.1 h.filled)
  have hletter : 0 < letters.length := List.length_pos_iff.2 hne
  rw [String.toList_append, htext, List.length_append, List.length_cons]
  omega

/-- With an ending, a name stands beside a path in normal form as it is. -/
theorem IsBaseName.beside {p : Path} (hp : IsNormal p) {name ending : String} (h : IsBaseName name)
    (hending : ending ∈ componentEndings) :
    Path.normalize (p.parent.child (name ++ ending)).toText =
        (p.parent.child (name ++ ending)).toText ∧
      Path.ofString (p.parent.child (name ++ ending)).toText = p.parent.child (name ++ ending) ∧
      (p.parent.child (name ++ ending)).name = name ++ ending := by
  obtain ⟨hplain, hbackslash⟩ := h.isPlain_append hending
  obtain ⟨hnormalize, hread⟩ := Path.normalize_beside hp hplain hbackslash
  exact ⟨hnormalize, hread, by rw [Path.child_of_isPlain hplain, Path.name, List.getLastD_concat]⟩

theorem isBaseName_of_isComponentName {name : String} (h : IsComponentName name) :
    IsBaseName name where
  filled hempty := h.ne_nil (String.toList_eq_nil_iff.2 hempty)
  noSlash := not_mem_of_isAlphanum h.isAlphanum (by decide)
  noBackslash := not_mem_of_isAlphanum h.isAlphanum (by decide)

/-- What the name of a story file suggests is part of that name. -/
theorem mem_of_mem_suggestedName {p : Path} {c : Char} (h : c ∈ (suggestedName p).toList) :
    c ∈ p.name.toList := by
  unfold suggestedName at h
  split at h
  · rename_i before after hcut
    rw [String.toList_ofList] at h
    rw [Text.eq_append_of_cutAt? hcut]
    simp [h]
  · unfold Path.stem Path.cutSuffix at h
    dsimp only at h
    split at h
    · rename_i c' stem hdrop
      split at h
      · exact h
      · rw [String.toList_ofList, List.mem_reverse] at h
        have hmem : c ∈ p.name.toList.reverse.dropWhile (· != '.') := by
          rw [hdrop]
          exact List.mem_cons_of_mem _ h
        exact List.mem_reverse.1 ((List.dropWhile_sublist _).subset hmem)
    · exact h

theorem isBaseName_suggestedName {p : Path} (hp : IsNormal p) (h : suggestedName p ≠ "") :
    IsBaseName (suggestedName p) := by
  have hname {mark : Char} (hno : ∀ segment ∈ p.segments, mark ∉ segment.toList) :
      mark ∉ (suggestedName p).toList := by
    intro hmem
    have hmem := mem_of_mem_suggestedName hmem
    obtain ⟨slashes, segments⟩ := p
    rcases List.eq_nil_or_concat' segments with rfl | ⟨front, last, rfl⟩
    · cases hmem
    · rw [Path.name, List.getLastD_concat] at hmem
      exact hno last (by simp) hmem
  exact ⟨h, hname fun segment hs => (hp.whole segment hs).noSlash, hname hp.noBackslash⟩

/-! ## Story files that have the mark -/

/-- The name of a story file with the mark is that of no component file. -/
theorem ne_of_marked {p : Path} (hmarked : Text.occursIn ".stories." p.name = true)
    {name ending : String} (hname : name = suggestedName p ∨ IsComponentName name)
    (hending : ending ∈ componentEndings) : name ++ ending ≠ p.name := by
  obtain ⟨⟨before, after⟩, hcut⟩ := Option.isSome_iff_exists.1 hmarked
  have hparts := Text.eq_append_of_cutAt? hcut
  obtain ⟨letters, htext, -, hlength, hletters⟩ := ending_form hending
  intro heq
  rw [← heq, String.toList_append, htext] at hparts
  rcases hname with rfl | hcomponent
  · -- the ending would be as long as the mark
    have hsuggested : (suggestedName p).toList = before := by
      rw [suggestedName, hcut, String.toList_ofList]
    rw [hsuggested, List.append_assoc] at hparts
    have hlong := congrArg List.length (List.append_cancel_left hparts)
    have hmark : ".stories.".toList.length = 9 := by decide
    rw [List.length_cons, List.length_append, hmark] at hlong
    omega
  · -- there would be two dots in the name
    have hdot : Char.isAlphanum '.' = false := by decide
    have hcount := congrArg (List.count '.') hparts
    have hmark : ".stories.".toList.count '.' = 2 := by decide
    rw [List.count_append, List.count_append, List.count_append, hmark, List.count_cons_self,
      List.count_eq_zero.2 (not_mem_of_isAlphanum hcomponent.isAlphanum hdot),
      List.count_eq_zero.2 (not_mem_of_isAlphanum hletters hdot)] at hcount
    omega

/-- Without the mark, a name with an ending suggests itself. -/
theorem suggestedName_of_not_marked {p : Path} (h : Text.occursIn ".stories." p.name = false)
    {name ending : String} (hname : name ≠ "") (hending : ending ∈ componentEndings)
    (heq : p.name = name ++ ending) : suggestedName p = name := by
  obtain ⟨letters, htext, hne, -, hletters⟩ := ending_form hending
  have hcut : Text.cutAt? ".stories.".toList p.name.toList = none := by
    simpa [Text.occursIn] using h
  rw [suggestedName, hcut]
  dsimp only
  rw [Path.stem, heq, Path.cutSuffix_append hname htext hne
    (not_mem_of_isAlphanum hletters (by decide))]

/-! ## Candidates -/

section

variable {t : FileTree} {story path : String} {components : Option Path} {names : List String}

/-- Each candidate is a name with an ending in some folder. -/
theorem of_mem_componentCandidates (h : path ∈ componentCandidates story components names) :
    ∃ folder name ending, (name = suggestedName (Path.ofString story) ∨ name ∈ names) ∧ name ≠ "" ∧
      ending ∈ componentEndings ∧
      path = Path.normalize (Path.child folder (name ++ ending)).toText := by
  unfold componentCandidates at h
  obtain ⟨folder, -, h⟩ := List.mem_flatMap.1 h
  obtain ⟨name, hname, h⟩ := List.mem_flatMap.1 h
  obtain ⟨ending, hending, rfl⟩ := List.mem_map.1 h
  obtain ⟨hname, hfilled⟩ := List.mem_filter.1 (Glob.mem_distinct.1 hname)
  exact ⟨folder, name, ending, List.mem_cons.1 hname, by simpa using hfilled, hending, rfl⟩

/-- The first candidates are the suggested name with each ending beside the story file. -/
theorem componentCandidates_eq {p : Path} (hread : Path.ofString story = p)
    (h : suggestedName p ≠ "") (components : Option Path) (names : List String) :
    ∃ more, componentCandidates story components names =
      componentEndings.map (fun ending =>
        Path.normalize (p.parent.child (suggestedName p ++ ending)).toText) ++ more := by
  have hkept : (suggestedName p :: names).filter (!·.isEmpty) =
      suggestedName p :: names.filter (!·.isEmpty) := List.filter_cons_of_pos (by simpa using h)
  unfold componentCandidates
  dsimp only
  rw [hread, hkept, Glob.distinct, List.flatMap_cons, List.flatMap_cons, List.append_assoc]
  exact ⟨_, rfl⟩

/-! ## Story files that are found -/

/-- The story file is found as its own component: its name has no mark, but an ending of component files,
and with it there is a file beside which none has the same name with an earlier ending. -/
def IsOwnComponent (t : FileTree) (story : Path) : Prop :=
  Text.occursIn ".stories." story.name = false ∧ t.isFile story = .ok true ∧
    ∃ name earlier ending later, name ≠ "" ∧ story.name = name ++ ending ∧
      componentEndings = earlier ++ ending :: later ∧
      ∀ other ∈ earlier, t.isFile (story.parent.child (name ++ other)) = .ok false

/-- The names that are looked for are names of component files. -/
theorem name_of_mem_componentCandidates {p : Path} (hp : IsNormal p)
    (hnames : ∀ name ∈ names, name = "" ∨ IsComponentName name)
    (h : path ∈ componentCandidates p.toText components names) :
    ∃ name ending, (name = suggestedName p ∨ IsComponentName name) ∧ IsBaseName name ∧
      ending ∈ componentEndings ∧ (Path.ofString path).name = name ++ ending := by
  obtain ⟨folder, name, ending, hname, hfilled, hending, rfl⟩ := of_mem_componentCandidates h
  rw [hp.ofString_toText] at hname
  have hform : name = suggestedName p ∨ IsComponentName name :=
    hname.imp_right fun hmem => (hnames name hmem).resolve_left hfilled
  have hbase : IsBaseName name := by
    rcases hform with rfl | hcomponent
    · exact isBaseName_suggestedName hp hfilled
    · exact isBaseName_of_isComponentName hcomponent
  obtain ⟨hplain, hbackslash⟩ := hbase.isPlain_append hending
  exact ⟨name, ending, hform, hbase, hending, Path.name_normalize_child folder hplain hbackslash⟩

/-- The candidates are those with the story file's own name and an earlier ending, then the story file. -/
theorem componentCandidates_of_name {p : Path} (hp : IsNormal p) {name ending : String}
    {earlier later : List String} (hsuggested : suggestedName p = name) (hbase : IsBaseName name)
    (hname : p.name = name ++ ending) (hendings : componentEndings = earlier ++ ending :: later)
    (components : Option Path) (names : List String) :
    ∃ more, componentCandidates p.toText components names =
      earlier.map (fun other => (p.parent.child (name ++ other)).toText) ++ p.toText :: more := by
  obtain ⟨more, hmore⟩ := componentCandidates_eq hp.ofString_toText
    (hsuggested ▸ hbase.filled) components names
  have hown : p.parent.child (name ++ ending) = p := by
    have hending : ending ∈ componentEndings := by simp [hendings]
    have hplain := (hbase.isPlain_append hending).1
    rw [← hname] at hplain ⊢
    exact Path.child_name hplain
  have hbeside : componentEndings.map (fun other =>
      Path.normalize (p.parent.child (name ++ other)).toText) =
        earlier.map (fun other => (p.parent.child (name ++ other)).toText) ++
          p.toText :: later.map fun other => (p.parent.child (name ++ other)).toText := by
    rw [List.map_congr_left fun other h => (hbase.beside hp h).1, hendings, List.map_append, List.map_cons, hown]
  rw [hmore, hsuggested, hbeside, List.append_assoc, List.cons_append]
  exact ⟨_, rfl⟩

/-- A file with the name of the story file is the one beside it, if the story file is found. -/
theorem isOwnComponent_of_component? {p : Path} (hp : IsNormal p)
    (hnames : ∀ name ∈ names, name = "" ∨ IsComponentName name)
    (h : component? t p.toText components names = .ok (some p.toText)) : IsOwnComponent t p := by
  have hread := hp.ofString_toText
  obtain ⟨before, after, hpaths, -, hfile⟩ := Import.firstFile?_eq_some_iff.1 h
  obtain ⟨name, ending, hform, hbase, hending, hname⟩ :=
    name_of_mem_componentCandidates hp hnames (hpaths ▸ List.mem_append_right _ List.mem_cons_self)
  rw [hread] at hname hfile
  have hmark : Text.occursIn ".stories." p.name = false :=
    Bool.eq_false_iff.2 fun hmarked => ne_of_marked hmarked hform hending hname.symm
  have hsuggested := suggestedName_of_not_marked hmark hbase.filled hending hname
  obtain ⟨earlier, later, hendings⟩ := List.append_of_mem hending
  refine ⟨hmark, hfile, name, earlier, ending, later, hbase.filled, hname, hendings, ?_⟩
  obtain ⟨more, hcandidates⟩ :=
    componentCandidates_of_name hp hsuggested hbase hname hendings components names
  have hbeside {other : String} (hother : other ∈ earlier) :=
    (hbase.beside hp (by rw [hendings]; exact List.mem_append_left _ hother)).2
  have hdistinct : ending ∉ earlier := by
    have hnodup : componentEndings.Nodup := by decide
    rw [hendings, List.nodup_append] at hnodup
    exact fun hmem => hnodup.2.2 _ hmem _ List.mem_cons_self rfl
  -- the paths before the story file's own one have other names
  have hnot : p.toText ∉ earlier.map fun other => (p.parent.child (name ++ other)).toText := by
    intro hmem
    obtain ⟨other, hother, heq⟩ := List.mem_map.1 hmem
    have hsame : name ++ other = name ++ ending := by
      rw [← (hbeside hother).2, ← (hbeside hother).1, heq, hread, hname]
    have htexts := congrArg String.toList hsame
    rw [String.toList_append, String.toList_append] at htexts
    exact hdistinct (String.toList_inj.1 (List.append_cancel_left htexts) ▸ hother)
  rw [component?, hcandidates] at h
  have habsent := Import.absent_of_firstFile?_append h hnot
  intro other hother
  rw [← (hbeside hother).1]
  exact habsent _ (List.mem_map_of_mem hother)

theorem component?_of_isOwnComponent {p : Path} (hp : IsNormal p) (h : IsOwnComponent t p)
    (components : Option Path) (names : List String) :
    component? t p.toText components names = .ok (some p.toText) := by
  obtain ⟨hmark, hfile, name, earlier, ending, later, hfilled, hname, hendings, habsent⟩ := h
  have hending : ending ∈ componentEndings := by simp [hendings]
  have hsuggested := suggestedName_of_not_marked hmark hfilled hending hname
  have hbase : IsBaseName name := hsuggested ▸ isBaseName_suggestedName hp (hsuggested ▸ hfilled)
  obtain ⟨more, hcandidates⟩ :=
    componentCandidates_of_name hp hsuggested hbase hname hendings components names
  refine Import.firstFile?_eq_some_iff.2 ⟨_, more, hcandidates, ?_, hp.ofString_toText.symm ▸ hfile⟩
  intro tried htried
  obtain ⟨other, hother, rfl⟩ := List.mem_map.1 htried
  have hbeside := (hbase.beside hp (by rw [hendings]; exact List.mem_append_left _ hother)).2.1
  rw [hbeside]
  exact habsent other hother

/-- What is found as the component of a story file is a file. It is not the story file if the name of
that has the mark, and else it is exactly if the story file is the first of the files with its own name
and an ending of component files; then the analysis lists the story file twice. Nothing is said only
where a name is too long to be tested for. -/
theorem component?_of_story (t : FileTree) (hstory : IsAbsoluteNormal story)
    (components : Option Path) (hnames : ∀ name ∈ names, name = "" ∨ IsComponentName name) :
    (∀ path, component? t story components names = .ok (some path) →
      t.isFile (Path.ofString path) = .ok true ∧
        (Text.occursIn ".stories." (Path.ofString story).name = true →
          (Path.ofString path).name ≠ (Path.ofString story).name)) ∧
      (component? t story components names = .ok (some story) ↔
        IsOwnComponent t (Path.ofString story)) ∧
      (∀ e, component? t story components names = .error e →
        ∃ tried ∈ componentCandidates story components names,
          e = .fault .nameTooLong (Path.ofString tried).toText) ∧
      ∀ settings s source f a, StoryFile.ofSource story source = .ok f → s.tree = t →
        Analysis.sourceFile? t settings f =
          component? t f.path (some settings.componentsPath) [f.componentName] →
        (ends (Analysis.ofStory settings Run.text f) s).1 = .ok a →
        ((a.files.map (·.path)).Nodup ↔ ¬IsOwnComponent t (Path.ofString story)) := by
  have hsame := hstory.normal
  obtain ⟨p, hp, -, rfl⟩ := hstory.exists_isNormal
  have hread := hp.ofString_toText
  have hown (components : Option Path) {names : List String}
      (hnames : ∀ name ∈ names, name = "" ∨ IsComponentName name) :
      component? t p.toText components names = .ok (some p.toText) ↔ IsOwnComponent t p :=
    ⟨isOwnComponent_of_component? hp hnames, fun h =>
      component?_of_isOwnComponent hp h components names⟩
  rw [hread]
  refine ⟨fun path hfound => ?_, hown components hnames, fun e herror => ?_, ?_⟩
  · obtain ⟨before, after, hpaths, -, hfile⟩ := Import.firstFile?_eq_some_iff.1 hfound
    refine ⟨hfile, fun hmarked => ?_⟩
    obtain ⟨name, ending, hform, -, hending, hname⟩ :=
      name_of_mem_componentCandidates hp hnames (hpaths ▸ List.mem_append_right _ List.mem_cons_self)
    rw [hname]
    exact ne_of_marked hmarked hform hending
  · obtain ⟨tried, before, after, hpaths, -, hfails⟩ := Import.firstFile?_eq_error_iff.1 herror
    exact ⟨tried, hpaths ▸ List.mem_append_right _ List.mem_cons_self, FileTree.isFile_error hfails⟩
  · rintro settings s source f a hf rfl hlooked hmade
    have hpath : f.path = p.toText := (StoryFile.parts_of_ofOutline hf).1.trans hsame
    have hcomponent : ∀ name ∈ [f.componentName], name = "" ∨ IsComponentName name := by
      intro name hname
      obtain rfl := List.mem_singleton.1 hname
      exact or_iff_not_imp_left.2 (Assembly.isComponentName_of_ofSource hf)
    obtain ⟨located, hlocated, hmeasures⟩ := Analysis.measures_of_ofStory
      (fun _ => Analysis.not_isFramework_of_ofSource hf) hmade
    rw [hlooked, hpath] at hlocated
    have hpaths : a.files.map (·.path) = p.toText :: located.toList := by
      have hfirst := congrArg (List.map Prod.fst) hmeasures.contents
      rw [List.map_map, hpath] at hfirst
      exact hfirst.trans (by cases located <;> rfl)
    rw [← hown _ hcomponent, hlocated, hpaths]
    cases located with
    | none => simp
    | some path => simp [eq_comm]

end

/-! ## A story file that is named like its component -/

namespace OwnComponent

/-- The text of a story file. -/
def story : String := "export default\x7bcomponent:A\x7d;export const B=\x7b\x7d"

/-- A project with that story file under the name of a component file. -/
def session : Session where
  tree := .small [("A.js", .ofSource story 1)]

end OwnComponent

open OwnComponent in
/-- The story file is found as the component that it is about, and its analysis lists it twice. -/
theorem files_of_own_component : ∃ f a, StoryFile.ofSource "/p/A.js" story = .ok f ∧
    component? session.tree "/p/A.js" none ["A"] = .ok (some "/p/A.js") ∧
      (ends (Analysis.ofStory (.small false) Run.text f) session).1 = .ok a ∧
      ¬(a.files.map (·.path)).Nodup := by
  have hchecked : (StoryFile.ofSource "/p/A.js" story).toOption.any (fun f =>
      f.path == "/p/A.js" && f.componentName == "A" && f.componentPath == "" &&
        (ends (Analysis.ofStory (.small false) Run.text f) session).1.toOption.any
          (·.name == "A")) = true := by
    decide +kernel
  obtain ⟨f, hf, hpasses⟩ := exists_ok_of_any hchecked
  simp only [Bool.and_eq_true, beq_iff_eq] at hpasses
  obtain ⟨⟨⟨hpath, hcomponent⟩, hempty⟩, hmade⟩ := hpasses
  have hfound : component? session.tree "/p/A.js" none ["A"] = .ok (some "/p/A.js") := by
    have hchecked : (component? session.tree "/p/A.js" none ["A"]).toOption.any
        (· == some "/p/A.js") = true := by decide +kernel
    exact eq_ok_of_any hchecked
  have hlooked : Analysis.sourceFile? session.tree (.small false) f =
      component? session.tree f.path (some (Settings.small false).componentsPath)
        [f.componentName] := by
    have hnone : "".isEmpty = true := rfl
    simp only [Analysis.sourceFile?, hempty, hnone, if_true, bind, Except.bind]
  have hnames : ∀ name ∈ ["A"], name = "" ∨ IsComponentName name := by
    intro name hname
    obtain rfl := List.mem_singleton.1 hname
    exact .inr ⟨'A', [], rfl, rfl, nofun⟩
  have hstory : IsAbsoluteNormal "/p/A.js" := ⟨by decide, by decide +kernel⟩
  obtain ⟨-, hown, -, hlists⟩ := component?_of_story session.tree hstory none hnames
  obtain ⟨a, ha, -⟩ := exists_ok_of_any hmade
  exact ⟨f, a, hf, hfound, ha, fun hnodup =>
    (hlists _ _ _ f a hf rfl hlooked ha).1 hnodup (hown.1 hfound)⟩

end Discovery

end StoryRegistry
