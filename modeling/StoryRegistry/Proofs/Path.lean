import StoryRegistry.Path
import StoryRegistry.Proofs.Text.Split

/-!
# Normal paths

Segments of a path that is read from a text are whole: they are neither empty nor `.`, and hold no
slash. A path with whole segments is read again from its text. Resolving every `..` leaves them only
at the start of a relative path, where nothing is left to resolve, so that the normal form of a path
text stands for itself.
-/

set_option autoImplicit false

namespace StoryRegistry.Path

open StoryRegistry.Text

/-- The text is a segment that counts. -/
structure IsSegment (segment : String) : Prop where
  noSlash : '/' ∉ segment.toList
  filled : segment ≠ ""
  notHere : segment ≠ "."

/-- The segments climb first, and not from the root, and never again. -/
def Climbs (absolute : Bool) (segments : List String) : Prop :=
  ∃ height plain, segments = List.replicate height ".." ++ plain ∧ ".." ∉ plain ∧
    (absolute = true → height = 0)

/-- A path in normal form, whose text has no backslashes. -/
structure IsNormal (p : Path) : Prop where
  slashes_le : p.slashes ≤ 2
  whole : ∀ segment ∈ p.segments, IsSegment segment
  noBackslash : ∀ segment ∈ p.segments, '\\' ∉ segment.toList
  climbs : Climbs p.isAbsolute p.segments

/-! ## The directories above a path -/

/-- The directories above a path are the one that holds it and those above that one. -/
theorem ancestors_eq {p : Path} (h : p.segments ≠ []) :
    p.ancestors = p.parent :: p.parent.ancestors := by
  obtain ⟨slashes, segments⟩ := p
  obtain ⟨front, last, rfl⟩ := (List.eq_nil_or_concat' segments).resolve_left h
  have hparent : parent ⟨slashes, front ++ [last]⟩ = ⟨slashes, front⟩ := by simp [parent]
  rw [hparent]
  unfold ancestors
  rw [List.length_append, List.length_singleton, List.range_succ, List.reverse_append,
    List.reverse_singleton, List.singleton_append, List.map_cons, List.take_left]
  refine congrArg _ (List.map_congr_left fun n hn => ?_)
  have hle : n ≤ front.length := by
    have := List.mem_range.1 (List.mem_reverse.1 hn)
    omega
  rw [List.take_append_of_le_length hle]

/-- What is above the directory that holds a path is above the path. -/
theorem mem_of_mem_parent {p q : Path} (h : q ∈ p.parent :: p.parent.ancestors) :
    q ∈ p :: p.ancestors := by
  by_cases hroot : p.segments = []
  · have hparent : p.parent = p := by
      obtain ⟨slashes, segments⟩ := p
      cases hroot
      rfl
    rwa [hparent] at h
  · rw [ancestors_eq hroot]
    exact List.mem_cons_of_mem _ h

/-! ## Reading the text of a path -/

/-- No text begins with more slashes than count. -/
theorem leadingSlashes_le (s : List Char) : leadingSlashes s ≤ 2 := by
  unfold leadingSlashes
  split <;> omega

theorem isSegment_of_mem_ofString {s segment : String} (h : segment ∈ (ofString s).segments) :
    IsSegment segment := by
  obtain ⟨hmem, hkeep⟩ := List.mem_filter.1 h
  obtain ⟨part, hpart, rfl⟩ := List.mem_map.1 hmem
  have hcounts : String.ofList part ≠ "" ∧ String.ofList part ≠ "." := by simpa using hkeep
  refine ⟨fun hslash => ?_, hcounts.1, hcounts.2⟩
  rw [String.toList_ofList] at hslash
  exact (mem_of_mem_splitOn hpart hslash).2 rfl

theorem mem_of_mem_segment {s segment : String} {c : Char} (h : segment ∈ (ofString s).segments)
    (hc : c ∈ segment.toList) : c ∈ s.toList := by
  obtain ⟨hmem, -⟩ := List.mem_filter.1 h
  obtain ⟨part, hpart, rfl⟩ := List.mem_map.1 hmem
  rw [String.toList_ofList] at hc
  exact (mem_of_mem_splitOn hpart hc).1

theorem toList_intercalate (segments : List String) :
    ("/".intercalate segments).toList = joinWith ['/'] (segments.map String.toList) := by
  induction segments with
  | nil => rfl
  | cons first rest ih =>
    cases rest with
    | nil => simp [String.intercalate_singleton, joinWith]
    | cons next more =>
      rw [String.intercalate_cons_cons, String.toList_append, String.toList_append, ih]
      simp [joinWith]

/-- The text of a path that is not the empty relative one. -/
theorem toList_toText {p : Path} (h : p.slashes ≠ 0 ∨ p.segments ≠ []) :
    p.toText.toList =
      List.replicate p.slashes '/' ++ joinWith ['/'] (p.segments.map String.toList) := by
  have hno : ¬(p.slashes == 0 && p.segments.isEmpty) = true := by
    rcases h with h | h <;> simp [h]
  rw [toText, if_neg hno, String.toList_append, String.toList_ofList, toList_intercalate]

/-- What is put together from whole segments begins with no slash. -/
theorem head?_joinWith_ne {segments : List String} (h : ∀ segment ∈ segments, IsSegment segment) :
    (joinWith ['/'] (segments.map String.toList)).head? ≠ some '/' := by
  cases segments with
  | nil => simp [joinWith]
  | cons first rest =>
    have hfirst := h first List.mem_cons_self
    cases hchars : first.toList with
    | nil => exact absurd (String.toList_eq_nil_iff.1 hchars) hfirst.filled
    | cons c more =>
      have hc : c ≠ '/' := by
        rintro rfl
        exact hfirst.noSlash (hchars ▸ List.mem_cons_self)
      cases rest <;> simp [joinWith, hchars, hc]

theorem leadingSlashes_replicate {n : Nat} (hn : n ≤ 2) {rest : List Char}
    (h : rest.head? ≠ some '/') : leadingSlashes (List.replicate n '/' ++ rest) = n := by
  obtain rfl | rfl | rfl : n = 0 ∨ n = 1 ∨ n = 2 := by omega
  all_goals
    cases rest with
    | nil => rfl
    | cons c more =>
      have hc : c ≠ '/' := by simpa using h
      simp [leadingSlashes, hc, List.replicate_succ]

theorem splitOn_replicate (n : Nat) (rest : List Char) :
    splitOn '/' (List.replicate n '/' ++ rest) = List.replicate n [] ++ splitOn '/' rest := by
  induction n with
  | zero => rfl
  | succ n ih => rw [List.replicate_succ, List.cons_append, splitOn, if_pos rfl, ih]; rfl

/-- A path with whole segments is read again from its text. -/
theorem ofString_toText {p : Path} (hslashes : p.slashes ≤ 2)
    (h : ∀ segment ∈ p.segments, IsSegment segment) : ofString p.toText = p := by
  by_cases hempty : p.slashes = 0 ∧ p.segments = []
  · obtain ⟨slashes, segments⟩ := p
    obtain ⟨rfl, rfl⟩ := hempty
    decide
  · have htext := toList_toText (p := p) (by tauto)
    have hkept : p.segments.filter (fun segment => segment != "" && segment != ".") = p.segments :=
      List.filter_eq_self.2 fun segment hmem => by simp [(h segment hmem).filled,
        (h segment hmem).notHere]
    -- the parts before the first segment are empty, and the others are the segments
    have hparts : (parts '/' p.toText).filter (fun segment => segment != "" && segment != ".") =
        p.segments := by
      rw [parts, htext, splitOn_replicate, List.map_append, List.filter_append,
        List.map_replicate]
      have hfront : (List.replicate p.slashes (String.ofList [])).filter
          (fun segment => segment != "" && segment != ".") = [] := by
        simp
      rw [hfront, List.nil_append]
      cases hsegments : p.segments with
      | nil => decide
      | cons first rest =>
        rw [← hsegments, splitOn_joinWith (by simp [hsegments]), List.map_map]
        · simpa [Function.comp_def] using hkept
        · intro part hpart
          obtain ⟨segment, hmem, rfl⟩ := List.mem_map.1 hpart
          exact (h segment hmem).noSlash
    rw [ofString, hparts, htext, leadingSlashes_replicate hslashes (head?_joinWith_ne h)]

/-- A path has a text, and it begins with a slash exactly if the path is absolute. -/
theorem head?_toText {p : Path} (h : ∀ segment ∈ p.segments, IsSegment segment) :
    p.toText.toList ≠ [] ∧ (p.toText.toList.head? = some '/' ↔ p.isAbsolute = true) := by
  obtain ⟨slashes, segments⟩ := p
  have hjoin := head?_joinWith_ne h
  cases slashes with
  | succ n =>
    rw [toList_toText (Or.inl (Nat.succ_ne_zero n))]
    simp [List.replicate_succ, isAbsolute]
  | zero =>
    cases segments with
    | nil => decide
    | cons first rest =>
      rw [toList_toText (Or.inr (List.cons_ne_nil _ _))]
      refine ⟨fun hnil => ?_, ?_⟩
      · have hfirst := (h first List.mem_cons_self).filled
        cases rest <;> simp_all [joinWith]
      · simpa [isAbsolute] using hjoin

/-- The text of an absolute path begins with a slash. -/
theorem head?_toText_of_isAbsolute {p : Path} (h : p.isAbsolute = true) :
    p.toText.toList.head? = some '/' := by
  obtain ⟨n, hn⟩ := Nat.exists_eq_succ_of_ne_zero (show p.slashes ≠ 0 by simpa [isAbsolute] using h)
  rw [toList_toText (Or.inl (by simp [hn])), hn]
  rfl

theorem isAbsolute_ofString {s : String} :
    (ofString s).isAbsolute = true ↔ s.toList.head? = some '/' := by
  unfold ofString isAbsolute
  cases s.toList with
  | nil => simp [leadingSlashes]
  | cons c rest =>
    unfold leadingSlashes
    split <;> simp_all

/-- The text of a path holds nothing but slashes, a dot and what is in the segments. -/
theorem mem_toText {p : Path} {c : Char} (h : c ∈ p.toText.toList) :
    c = '/' ∨ c = '.' ∨ ∃ segment ∈ p.segments, c ∈ segment.toList := by
  by_cases hempty : p.slashes ≠ 0 ∨ p.segments ≠ []
  · rw [toList_toText hempty] at h
    rcases List.mem_append.1 h with h | h
    · exact Or.inl (List.mem_replicate.1 h).2
    · rcases mem_joinWith h with heq | ⟨part, hpart, h⟩
      · exact Or.inl heq
      · obtain ⟨segment, hsegment, rfl⟩ := List.mem_map.1 hpart
        exact Or.inr (Or.inr ⟨segment, hsegment, h⟩)
  · have htext : p.toText = "." := by
      obtain ⟨slashes, segments⟩ := p
      obtain ⟨rfl, rfl⟩ : slashes = 0 ∧ segments = [] := by simpa using hempty
      rfl
    rw [htext] at h
    exact Or.inr (Or.inl (by simpa using h))

/-! ## Resolving every `..` -/

/-- Taking a segment into account keeps the stack, read from its bottom, in the form in which it
climbs first. -/
theorem climbs_pushSegment {absolute : Bool} {stack : List String} (segment : String)
    (h : Climbs absolute stack.reverse) :
    Climbs absolute (pushSegment absolute stack segment).reverse := by
  obtain ⟨height, plain, hstack, hplain, habsolute⟩ := h
  unfold pushSegment
  by_cases hup : segment = ".."
  · subst hup
    simp only [bne_self_eq_false, Bool.false_eq_true, if_false]
    cases stack with
    | nil =>
      cases absolute with
      | true => exact ⟨0, [], by simp⟩
      | false => exact ⟨1, [], by simp⟩
    | cons top rest =>
      rw [List.reverse_cons] at hstack
      rcases List.eq_nil_or_concat plain with rfl | ⟨front, last, rfl⟩
      · -- only `..` so far, and so one more of them, away from the root
        have htop : top = ".." := by
          have hmem : top ∈ List.replicate height ".." := by
            rw [List.append_nil] at hstack
            rw [← hstack]
            simp
          exact (List.mem_replicate.1 hmem).2
        have hheight : height ≠ 0 := by
          rintro rfl
          simp at hstack
        refine ⟨height + 1, [], ?_, List.not_mem_nil, fun habs => absurd (habsolute habs) hheight⟩
        simp only [htop, beq_self_eq_true, if_true, List.reverse_cons]
        rw [htop] at hstack
        rw [hstack, List.append_nil, List.append_nil, ← List.replicate_succ']
      · rw [List.concat_eq_append] at hplain
        rw [List.concat_eq_append, ← List.append_assoc] at hstack
        obtain ⟨hrest, hlast⟩ := List.append_inj' hstack rfl
        have htop : top = last := by simpa using hlast
        have hne : (top == "..") = false := by
          rw [beq_eq_false_iff_ne, htop]
          rintro rfl
          exact hplain (by simp)
        simp only [hne, Bool.false_eq_true, if_false]
        refine ⟨height, front, hrest, fun hmem => hplain (by simp [hmem]), habsolute⟩
  · rw [if_pos (by simpa using hup), List.reverse_cons, hstack]
    refine ⟨height, plain ++ [segment], by simp, ?_, habsolute⟩
    simp [hplain, Ne.symm hup]

theorem climbs_foldl {absolute : Bool} (segments stack : List String)
    (h : Climbs absolute stack.reverse) :
    Climbs absolute (segments.foldl (pushSegment absolute) stack).reverse := by
  induction segments generalizing stack with
  | nil => exact h
  | cons segment rest ih => exact ih _ (climbs_pushSegment segment h)

/-- Segments that do not climb are put on the stack. -/
theorem foldl_pushSegment_of_not_mem {absolute : Bool} {plain : List String} (h : ".." ∉ plain)
    (stack : List String) :
    plain.foldl (pushSegment absolute) stack = plain.reverse ++ stack := by
  induction plain generalizing stack with
  | nil => rfl
  | cons segment rest ih =>
    have hne : segment ≠ ".." := fun heq => h (heq ▸ List.mem_cons_self)
    have hpush : pushSegment absolute stack segment = segment :: stack := by
      simp [pushSegment, hne]
    rw [List.foldl_cons, hpush, ih fun hmem => h (List.mem_cons_of_mem _ hmem)]
    simp

/-- Segments that climb first are kept. -/
theorem foldl_pushSegment {absolute : Bool} {segments : List String}
    (h : Climbs absolute segments) :
    segments.foldl (pushSegment absolute) [] = segments.reverse := by
  obtain ⟨height, plain, rfl, hplain, habsolute⟩ := h
  have hfirst : (List.replicate height "..").foldl (pushSegment absolute) [] =
      List.replicate height ".." := by
    cases absolute with
    | true => rw [habsolute rfl]; rfl
    | false =>
      have hclimb (n m : Nat) : (List.replicate n "..").foldl (pushSegment false)
          (List.replicate m "..") = List.replicate (m + n) ".." := by
        induction n generalizing m with
        | zero => rfl
        | succ n ih =>
          have hpush : pushSegment false (List.replicate m "..") ".." =
              List.replicate (m + 1) ".." := by cases m <;> rfl
          rw [List.replicate_succ, List.foldl_cons, hpush, ih]
          congr 1
          omega
      simpa using hclimb height 0
  rw [List.foldl_append, hfirst, foldl_pushSegment_of_not_mem hplain, List.reverse_append,
    List.reverse_replicate]

theorem mem_of_mem_foldl {absolute : Bool} {segments stack : List String} {segment : String}
    (h : segment ∈ segments.foldl (pushSegment absolute) stack) :
    segment ∈ segments ∨ segment ∈ stack := by
  induction segments generalizing stack with
  | nil => exact Or.inr h
  | cons first rest ih =>
    rcases ih h with hmem | hmem
    · exact Or.inl (List.mem_cons_of_mem _ hmem)
    · have hpush : segment = first ∨ segment ∈ stack := by
        unfold pushSegment at hmem
        split at hmem
        · exact List.mem_cons.1 hmem
        · split at hmem
          · split at hmem <;> simp_all
          · split at hmem
            · exact List.mem_cons.1 hmem
            · exact Or.inr (List.mem_cons_of_mem _ hmem)
      rcases hpush with rfl | hmem
      · exact Or.inl List.mem_cons_self
      · exact Or.inr hmem

/-! ## Normal forms -/

theorem mem_of_mem_normal {p : Path} {segment : String} (h : segment ∈ p.normal.segments) :
    segment ∈ p.segments := by
  simpa using mem_of_mem_foldl (List.mem_reverse.1 h)

/-- A text without backslashes stays as it is when these are read as slashes. -/
theorem map_slash_of_not_mem {s : String} (h : '\\' ∉ s.toList) :
    s.map (fun c => if c == '\\' then '/' else c) = s := by
  rw [← String.toList_inj, String.toList_map]
  refine (List.map_congr_left fun c hc => ?_).trans (List.map_id _)
  have hne : c ≠ '\\' := fun heq => h (heq ▸ hc)
  simp [hne]

section

variable {p : Path}

/-- The text of a path has no backslashes if its segments have none. -/
theorem noBackslash_toText (h : ∀ segment ∈ p.segments, '\\' ∉ segment.toList) :
    '\\' ∉ p.toText.toList := by
  intro hmem
  rcases mem_toText hmem with heq | heq | ⟨segment, hsegment, hmem⟩
  · exact absurd heq (by decide)
  · exact absurd heq (by decide)
  · exact h segment hsegment hmem

/-- The normal form of the text of a path is the text of its normal form. -/
theorem normalize_toText (hslashes : p.slashes ≤ 2)
    (hwhole : ∀ segment ∈ p.segments, IsSegment segment)
    (hbackslash : ∀ segment ∈ p.segments, '\\' ∉ segment.toList) :
    normalize p.toText = p.normal.toText := by
  have hne : p.toText ≠ "" := fun hempty =>
    (head?_toText hwhole).1 (String.toList_eq_nil_iff.2 hempty)
  rw [normalize, if_neg (by simpa using hne), map_slash_of_not_mem (noBackslash_toText hbackslash),
    ofString_toText hslashes hwhole]

end

namespace IsNormal

variable {p : Path}

theorem ofString_toText (h : IsNormal p) : ofString p.toText = p :=
  Path.ofString_toText h.slashes_le h.whole

theorem normal_eq (h : IsNormal p) : p.normal = p := by
  unfold normal
  rw [foldl_pushSegment h.climbs, List.reverse_reverse]

/-- An absolute path in normal form does not climb. -/
theorem notAbove (h : IsNormal p) (habsolute : p.isAbsolute = true) : ".." ∉ p.segments := by
  obtain ⟨height, plain, hsegments, hplain, hheight⟩ := h.climbs
  rw [hsegments, hheight habsolute]
  simpa using hplain

/-- The text of a path in normal form is in normal form. -/
theorem normalize_toText (h : IsNormal p) : normalize p.toText = p.toText := by
  rw [Path.normalize_toText h.slashes_le h.whole h.noBackslash, h.normal_eq]

end IsNormal

/-- A path text that is not empty has the normal form of a path, which is absolute if the text begins
with a slash. -/
theorem exists_isNormal {s : String} (h : s ≠ "") :
    ∃ p, IsNormal p ∧ normalize s = p.toText ∧
      (s.toList.head? = some '/' → p.isAbsolute = true) := by
  have htext : normalize s = (ofString (s.map fun c => if c == '\\' then '/' else c)).normal.toText :=
    if_neg (by simpa using h)
  generalize hplain : s.map (fun c => if c == '\\' then '/' else c) = plain at htext
  refine ⟨(ofString plain).normal, ⟨?_, ?_, ?_, ?_⟩, htext, fun hslash => ?_⟩
  · exact leadingSlashes_le _
  · exact fun segment hsegment => isSegment_of_mem_ofString (mem_of_mem_normal hsegment)
  · intro segment hsegment hbackslash
    have hchar := mem_of_mem_segment (mem_of_mem_normal hsegment) hbackslash
    rw [← hplain, String.toList_map] at hchar
    obtain ⟨c, -, hc⟩ := List.mem_map.1 hchar
    split at hc <;> simp_all
  · exact climbs_foldl _ [] ⟨0, [], by simp⟩
  · have hhead : plain.toList.head? = some '/' := by
      rw [← hplain, String.toList_map, List.head?_map, hslash]
      rfl
    exact isAbsolute_ofString.2 hhead

/-- A normal form holds nothing that the text does not hold, but for slashes and a dot. -/
theorem mem_normalize {s : String} {c : Char} (h : c ∈ (normalize s).toList) :
    c = '/' ∨ c = '.' ∨ c ∈ s.toList := by
  unfold normalize at h
  split at h
  · exact Or.inr (Or.inr h)
  · rcases mem_toText h with heq | heq | ⟨segment, hsegment, hmem⟩
    · exact Or.inl heq
    · exact Or.inr (Or.inl heq)
    · have hchar := mem_of_mem_segment (mem_of_mem_normal hsegment) hmem
      rw [String.toList_map] at hchar
      obtain ⟨d, hd, heq⟩ := List.mem_map.1 hchar
      split at heq
      · exact Or.inl heq.symm
      · exact Or.inr (Or.inr (heq ▸ hd))

/-- Normal forms stay as they are. -/
theorem normalize_normalize (s : String) : normalize (normalize s) = normalize s := by
  by_cases h : s = ""
  · subst h
    rfl
  · obtain ⟨p, hp, htext, -⟩ := exists_isNormal h
    rw [htext, hp.normalize_toText]

end StoryRegistry.Path
