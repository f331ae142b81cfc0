import StoryRegistry.Proofs.FileTree.Names

/-!
# Ways from a root

The way from a root to a path climbs from the root and goes down to the path. Taken from the root
again, it leads to where the path leads. What it goes down by was in the text by which the path was
reached from the root, so that the way can be written and read as that text could.
-/

set_option autoImplicit false

namespace StoryRegistry.Path

/-! ## Roots -/

/-- An absolute path in which there is nothing to resolve. -/
structure IsRoot (root : Path) : Prop where
  slashes_eq : root.slashes = 1
  notAbove : ".." ∉ root.segments

namespace IsRoot

variable {root : Path}

theorem isAbsolute (h : root.IsRoot) : root.isAbsolute = true := by
  simp [Path.isAbsolute, h.slashes_eq]

theorem normal_eq (h : root.IsRoot) : root.normal = root := by
  have hclimbs : Climbs root.isAbsolute root.segments := ⟨0, root.segments, rfl, h.notAbove, fun _ => rfl⟩
  rw [normal, foldl_pushSegment hclimbs, List.reverse_reverse]

theorem parent (h : root.IsRoot) : root.parent.IsRoot :=
  ⟨h.slashes_eq, fun hmem => h.notAbove (List.dropLast_subset _ hmem)⟩

theorem child (h : root.IsRoot) {name : String} (hname : IsPlain name) : (root.child name).IsRoot := by
  rw [child_of_isPlain hname]
  refine ⟨h.slashes_eq, fun hmem => ?_⟩
  rcases List.mem_append.1 hmem with hmem | hmem
  · exact h.notAbove hmem
  · exact hname.notAbove (List.mem_singleton.1 hmem).symm

/-- Where it is taken from does not matter for a root. -/
theorem resolve_eq (h : root.IsRoot) (here : Path) : here.resolve root = root := by
  have hjoin : here.join root = root := if_pos h.isAbsolute
  unfold resolve
  rw [hjoin, h.normal_eq, ← h.slashes_eq]

end IsRoot

/-- An absolute path does not climb once every `..` is resolved. -/
theorem not_mem_normal {p : Path} (h : p.isAbsolute = true) : ".." ∉ p.normal.segments := by
  obtain ⟨height, plain, hnormal, hplain, hheight⟩ :=
    @climbs_foldl p.isAbsolute p.segments [] ⟨0, [], rfl, List.not_mem_nil, fun _ => rfl⟩
  unfold normal
  rw [hnormal, hheight h]
  exact hplain

/-- A path taken from an absolute one is absolute. -/
theorem isAbsolute_join {here : Path} (h : here.isAbsolute = true) (p : Path) :
    (here.join p).isAbsolute = true := by
  unfold join
  split
  · assumption
  · exact h

/-- Resolving a path gives a root. -/
theorem isRoot_resolve {here : Path} (h : here.isAbsolute = true) (p : Path) :
    (here.resolve p).IsRoot :=
  ⟨rfl, not_mem_normal (isAbsolute_join h p)⟩

/-! ## What two paths share -/

theorem exists_dropCommon (p q : List String) :
    ∃ front, p = front ++ (dropCommon p q).1 ∧ q = front ++ (dropCommon p q).2 := by
  fun_induction dropCommon p q with
  | case1 a p b q heq ih =>
    obtain ⟨front, hp, hq⟩ := ih
    obtain rfl : a = b := by simpa using heq
    exact ⟨a :: front, congrArg _ hp, congrArg _ hq⟩
  | case2 => exact ⟨[], rfl, rfl⟩
  | case3 => exact ⟨[], rfl, rfl⟩

theorem dropCommon_append (front p q : List String) :
    dropCommon (front ++ p) (front ++ q) = dropCommon p q := by
  induction front with
  | nil => rfl
  | cons a rest ih =>
    rw [List.cons_append, List.cons_append, dropCommon, if_pos (beq_self_eq_true a), ih]

/-! ## The way and back -/

/-- The way from the absolute directory `start` to the absolute path `p`, as a path. -/
def wayTo (p start : Path) : Path where
  slashes := 0
  segments := (dropCommon p.normal.segments start.normal.segments).2.map (fun _ => "..") ++
    (dropCommon p.normal.segments start.normal.segments).1

theorem relativeTo_eq (p start : Path) : p.relativeTo start = (p.wayTo start).toText := rfl

/-- As many `..` as there are segments on the stack take these off. -/
theorem foldl_pushSegment_map {above : List String} (h : ".." ∉ above) (stack : List String) :
    (above.map fun _ => "..").foldl (pushSegment true) (above ++ stack) = stack := by
  induction above with
  | nil => rfl
  | cons segment rest ih =>
    have hne : (segment == "..") = false :=
      beq_eq_false_iff_ne.2 fun heq => h (heq ▸ List.mem_cons_self)
    have hpush : pushSegment true (segment :: (rest ++ stack)) ".." = rest ++ stack := by
      simp [pushSegment, hne]
    rw [List.map_cons, List.foldl_cons, List.cons_append, hpush,
      ih fun hmem => h (List.mem_cons_of_mem _ hmem)]

/-- The way from a root to a path, taken from the root, leads to where the path leads. -/
theorem normal_join_wayTo {root p : Path} (hroot : root.IsRoot) (hp : p.isAbsolute = true) :
    (root.join (p.wayTo root)).normal.segments = p.normal.segments := by
  obtain ⟨front, hdown, hup⟩ := exists_dropCommon p.normal.segments root.segments
  have hplain := not_mem_normal hp
  have habove := hroot.notAbove
  have hway : p.wayTo root = ⟨0, (dropCommon p.normal.segments root.segments).2.map (fun _ => "..") ++
      (dropCommon p.normal.segments root.segments).1⟩ := by
    rw [wayTo, hroot.normal_eq]
  rw [hway]
  generalize (dropCommon p.normal.segments root.segments).1 = down at hdown ⊢
  generalize (dropCommon p.normal.segments root.segments).2 = up at hup ⊢
  rw [hdown] at hplain ⊢
  rw [hup] at habove
  have hjoin : root.join ⟨0, up.map (fun _ => "..") ++ down⟩ =
      ⟨1, (front ++ up) ++ (up.map (fun _ => "..") ++ down)⟩ := by
    rw [← hup, ← hroot.slashes_eq]
    rfl
  have hreverse : ".." ∉ up.reverse := fun hmem =>
    habove (List.mem_append_right _ (List.mem_reverse.1 hmem))
  have hclimb := foldl_pushSegment_map hreverse front.reverse
  rw [List.map_reverse, List.map_const', List.reverse_replicate] at hclimb
  rw [hjoin]
  unfold normal
  dsimp only [isAbsolute]
  rw [List.foldl_append, List.foldl_append, show ((1 != 0) : Bool) = true from rfl,
    foldl_pushSegment_of_not_mem habove, List.append_nil, List.reverse_append, List.map_const', hclimb,
    foldl_pushSegment_of_not_mem fun hmem => hplain (List.mem_append_right _ hmem)]
  simp

/-- Two paths that lead to the same place have the same way from a root. -/
theorem wayTo_congr {p q : Path} (h : p.normal.segments = q.normal.segments) (root : Path) :
    p.wayTo root = q.wayTo root := by
  rw [wayTo, wayTo, h]

/-! ## What a way goes down by -/

/-- The stack, read from its bottom, holds the first names of a root and then segments that were
given. -/
def Reached (root given stack : List String) : Prop :=
  ∃ base added, stack.reverse = base ++ added ∧ base <+: root ∧ added ⊆ given

/-- Taking a given segment into account only adds given segments to names of the root. -/
theorem reached_pushSegment {root given stack : List String} {absolute : Bool} {segment : String}
    (h : Reached root given stack) (hgiven : segment ∈ given) :
    Reached root given (pushSegment absolute stack segment) := by
  obtain ⟨base, added, hstack, hbase, hadded⟩ := h
  have hpushed : Reached root given (segment :: stack) := by
    refine ⟨base, added ++ [segment], ?_, hbase, ?_⟩
    · rw [List.reverse_cons, hstack, List.append_assoc]
    · exact List.append_subset.2 ⟨hadded, by simpa using hgiven⟩
  unfold pushSegment
  split
  · exact hpushed
  · cases stack with
    | nil =>
      cases absolute with
      | true => exact ⟨base, added, hstack, hbase, hadded⟩
      | false =>
        dsimp only [Bool.false_eq_true, if_false]
        exact hpushed
    | cons top rest =>
      dsimp only
      split
      · exact hpushed
      · rw [List.reverse_cons] at hstack
        rcases List.eq_nil_or_concat' added with rfl | ⟨front, last, rfl⟩
        · -- the segment taken off is a name of the root
          rw [List.append_nil] at hstack
          refine ⟨rest.reverse, [], by simp, ?_, List.nil_subset _⟩
          exact (List.prefix_append _ _).trans (hstack ▸ hbase)
        · rw [← List.append_assoc] at hstack
          obtain ⟨hrest, -⟩ := List.append_inj' hstack rfl
          exact ⟨base, front, hrest, hbase, (List.append_subset.1 hadded).1⟩

theorem reached_foldl {root given segments stack : List String} {absolute : Bool}
    (h : Reached root given stack) (hgiven : segments ⊆ given) :
    Reached root given (segments.foldl (pushSegment absolute) stack) := by
  induction segments generalizing stack with
  | nil => exact h
  | cons segment rest ih =>
    obtain ⟨hsegment, hrest⟩ := List.cons_subset.1 hgiven
    exact ih (reached_pushSegment h hsegment) hrest

/-- What is left of a reached stack beside the root was given. -/
theorem dropCommon_subset {root given stack : List String} (h : Reached root given stack) :
    (dropCommon stack.reverse root).1 ⊆ given := by
  obtain ⟨base, added, hstack, ⟨others, rfl⟩, hadded⟩ := h
  obtain ⟨front, hfront, -⟩ := exists_dropCommon added others
  rw [hstack, dropCommon_append]
  intro segment hmem
  apply hadded
  rw [hfront]
  exact List.mem_append_right _ hmem

/-- The way to a path that a text gives goes down by segments of the text. -/
theorem mem_wayTo_child {root : Path} (hroot : root.IsRoot) {text segment : String}
    (h : segment ∈ ((root.child text).wayTo root).segments) :
    segment = ".." ∨ segment ∈ (ofString text).segments := by
  rcases List.mem_append.1 h with hup | hdown
  · obtain ⟨-, -, rfl⟩ := List.mem_map.1 hup
    exact .inl rfl
  · right
    revert hdown
    rw [hroot.normal_eq]
    apply dropCommon_subset
    unfold child join
    split
    · exact reached_foldl ⟨[], [], rfl, List.nil_prefix, List.nil_subset _⟩ (List.Subset.refl _)
    · dsimp only
      rw [List.foldl_append, foldl_pushSegment_of_not_mem hroot.notAbove]
      exact reached_foldl ⟨root.segments, [], by simp, List.prefix_refl _, List.nil_subset _⟩
        (List.Subset.refl _)

theorem isSegment_wayTo_child {root : Path} (hroot : root.IsRoot) {text : String} :
    ∀ segment ∈ ((root.child text).wayTo root).segments, IsSegment segment := by
  intro segment hsegment
  rcases mem_wayTo_child hroot hsegment with rfl | hmem
  · exact ⟨by decide, by decide, by decide⟩
  · exact isSegment_of_mem_ofString hmem

/-- The way to a path that a text without backslashes gives has none. -/
theorem noBackslash_relativeTo_child {root : Path} (hroot : root.IsRoot) {text : String}
    (htext : '\\' ∉ text.toList) : '\\' ∉ ((root.child text).relativeTo root).toList := by
  intro hbackslash
  rcases mem_toText hbackslash with heq | heq | ⟨segment, hsegment, hmem⟩
  · exact absurd heq (by decide)
  · exact absurd heq (by decide)
  · rcases mem_wayTo_child hroot hsegment with rfl | hgiven
    · exact absurd hmem (by decide)
    · exact htext (mem_of_mem_segment hgiven hmem)

/-! ## Reading a way -/

/-- A dot and a slash in front of a relative path do not matter. -/
theorem ofString_dot {text : String} (h : (ofString text).isAbsolute = false) :
    ofString ("./" ++ text) = ofString text := by
  have hslashes : (ofString text).slashes = 0 := by simpa [isAbsolute] using h
  have hparts : Text.parts '/' ("./" ++ text) = "." :: Text.parts '/' text := by
    have hsplit := @Text.splitOn_append '/' ['.'] text.toList (by decide)
    rw [Text.parts, String.toList_append]
    exact congrArg (List.map String.ofList) hsplit
  have hsegments : (ofString ("./" ++ text)).segments = (ofString text).segments := by
    simp [ofString, hparts]
  have hfront : (ofString ("./" ++ text)).slashes = 0 := by
    simp [ofString, String.toList_append, leadingSlashes]
  cases hpath : ofString text with
  | mk slashes segments =>
    cases hdotted : ofString ("./" ++ text) with
    | mk slashes' segments' =>
      rw [hpath] at hslashes hsegments
      rw [hdotted] at hsegments hfront
      cases hslashes
      cases hsegments
      cases hfront
      rfl

end StoryRegistry.Path
