import StoryRegistry.Proofs.Import.Targets

/-!
# Paths below a home

A home is a folder in which a project can live. Each path of the project is a way below it, and the
text of that path is the text of the home with the way behind it. A way stays inside if it never climbs
higher than it has come down (`stays`); its normal form below one home is then its normal form below any
other (`Home.normalize_text`).
-/

set_option autoImplicit false

namespace StoryRegistry

namespace Path

open StoryRegistry.Text

/-! ## Ways -/

/-- The text with backslashes read as slashes. -/
def slashed (s : String) : String := s.map fun c => if c == '\\' then '/' else c

/-- The segments with backslashes read as slashes. -/
def pieces (segments : List String) : List String :=
  segments.flatMap fun segment => (ofString (slashed segment)).segments

/-- From so far down, the segments never climb above the start. -/
def stays : Nat → List String → Bool
  | _, [] => true
  | depth, segment :: rest =>
    if segment = ".." then depth != 0 && stays (depth - 1) rest else stays (depth + 1) rest

/-- The segments with every `..` resolved. -/
def settle (segments : List String) : List String :=
  (segments.foldl (pushSegment true) []).reverse

/-- The segments lead down to something, and nothing in them is left to resolve. -/
structure IsWay (way : List String) : Prop where
  filled : way ≠ []
  normal : IsNormal ⟨1, way⟩

theorem IsWay.isPlain {way : List String} (h : IsWay way) {segment : String} (hmem : segment ∈ way) :
    IsPlain segment where
  noSlash := (h.normal.whole segment hmem).noSlash
  filled := (h.normal.whole segment hmem).filled
  notHere := (h.normal.whole segment hmem).notHere
  notAbove heq := h.normal.notAbove rfl (heq ▸ hmem)

theorem stays_of_not_mem {segments : List String} (h : ".." ∉ segments) (depth : Nat) :
    stays depth segments = true := by
  induction segments generalizing depth with
  | nil => rfl
  | cons segment rest ih =>
    rw [stays, if_neg fun heq : segment = ".." => h (heq ▸ List.mem_cons_self)]
    exact ih (fun hmem => h (List.mem_cons_of_mem _ hmem)) _

theorem IsWay.stays {way : List String} (h : IsWay way) (depth : Nat) : stays depth way = true :=
  stays_of_not_mem (h.normal.notAbove rfl) depth

/-- Segments that stay above a stack leave what is below the stack as it is. -/
theorem foldl_pushSegment_append {segments stack : List String} (base : List String)
    (hstays : stays stack.length segments = true) (hstack : ".." ∉ stack) :
    segments.foldl (pushSegment true) (stack ++ base) =
      segments.foldl (pushSegment true) stack ++ base := by
  induction segments generalizing stack with
  | nil => rfl
  | cons segment rest ih =>
    rw [List.foldl_cons, List.foldl_cons]
    by_cases hup : segment = ".."
    · subst hup
      cases stack with
      | nil => cases hstays
      | cons top below =>
        have htop : (top == "..") = false :=
          beq_eq_false_iff_ne.2 fun heq => hstack (heq ▸ List.mem_cons_self)
        have hpush (more : List String) : pushSegment true (top :: more) ".." = more := by
          simp [pushSegment, htop]
        rw [List.cons_append, hpush, hpush]
        rw [stays, if_pos rfl, Bool.and_eq_true] at hstays
        exact ih hstays.2 fun hmem => hstack (List.mem_cons_of_mem _ hmem)
    · have hpush (more : List String) : pushSegment true more segment = segment :: more := by
        simp [pushSegment, hup]
      rw [hpush, hpush]
      rw [stays, if_neg hup] at hstays
      refine @ih (segment :: stack) hstays fun hmem => ?_
      rcases List.mem_cons.1 hmem with heq | hmem
      · exact hup heq.symm
      · exact hstack hmem

/-- What is put together with slashes is split into what its parts are split into. -/
theorem splitOn_map_joinWith (f : Char → Char) (hf : f '/' = '/') (texts : List (List Char))
    (h : texts ≠ []) : splitOn '/' ((joinWith ['/'] texts).map f) =
      texts.flatMap fun text => splitOn '/' (text.map f) := by
  induction texts with
  | nil => exact absurd rfl h
  | cons first rest ih =>
    cases rest with
    | nil => simp [joinWith]
    | cons next more =>
      have hjoin : joinWith ['/'] (first :: next :: more) =
          first ++ '/' :: joinWith ['/'] (next :: more) :=
        @joinWith_append [first] _ (List.cons_ne_nil _ _) (List.cons_ne_nil _ _)
      rw [hjoin, List.map_append, List.map_cons, hf, splitOn_append_separator,
        ih (List.cons_ne_nil _ _)]
      rfl

/-- Reading the text of a path with backslashes as slashes gives its segments read so. -/
theorem segments_slashed {segments : List String} (h : segments ≠ []) :
    (ofString (slashed (toText ⟨1, segments⟩))).segments = pieces segments := by
  have hchars : (slashed (toText ⟨1, segments⟩)).toList =
      '/' :: (joinWith ['/'] (segments.map String.toList)).map
        (fun c => if c == '\\' then '/' else c) := by
    rw [slashed, String.toList_map, toList_toText (Or.inl Nat.one_ne_zero)]
    simp
  unfold pieces ofString parts
  dsimp only
  rw [hchars, splitOn, if_pos rfl, splitOn_map_joinWith _ rfl _ (by simpa using h), List.map_cons,
    List.filter_cons_of_neg (by simp), List.flatMap_map, List.map_flatMap, List.filter_flatMap]
  simp only [slashed, String.toList_map]

theorem pieces_append (segments more : List String) :
    pieces (segments ++ more) = pieces segments ++ pieces more := List.flatMap_append

/-- Whole segments without backslashes are read as they are. -/
theorem pieces_eq_self {segments : List String} (hwhole : ∀ segment ∈ segments, IsSegment segment)
    (hbackslash : ∀ segment ∈ segments, '\\' ∉ segment.toList) : pieces segments = segments := by
  induction segments with
  | nil => rfl
  | cons segment rest ih =>
    have hfirst := hwhole segment List.mem_cons_self
    have hself : (ofString (slashed segment)).segments = [segment] := by
      rw [slashed, map_slash_of_not_mem (hbackslash segment List.mem_cons_self), ofString, Text.parts,
        Text.splitOn_eq_singleton hfirst.noSlash]
      simp [hfirst.filled, hfirst.notHere]
    have hrest := ih (fun other hmem => hwhole other (List.mem_cons_of_mem _ hmem))
      fun other hmem => hbackslash other (List.mem_cons_of_mem _ hmem)
    unfold pieces at hrest ⊢
    rw [List.flatMap_cons, hself, hrest]
    rfl

theorem IsNormal.pieces_eq {p : Path} (h : IsNormal p) : pieces p.segments = p.segments :=
  pieces_eq_self h.whole h.noBackslash

theorem IsNormal.settle_eq {way : List String} (h : IsNormal ⟨1, way⟩) : settle way = way :=
  congrArg Path.segments h.normal_eq

/-- Segments that are read from a text and resolved make a normal path. -/
theorem isNormal_settle (segments : List String) : IsNormal ⟨1, settle (pieces segments)⟩ := by
  have hread : ∀ segment ∈ settle (pieces segments), ∃ text,
      segment ∈ (ofString (slashed text)).segments := by
    intro segment hmem
    rcases mem_of_mem_foldl (List.mem_reverse.1 hmem) with hmem | hmem
    · obtain ⟨text, -, htext⟩ := List.mem_flatMap.1 hmem
      exact ⟨text, htext⟩
    · cases hmem
  refine ⟨Nat.le_succ 1, fun segment hmem => ?_, fun segment hmem hbackslash => ?_, ?_⟩
  · obtain ⟨text, htext⟩ := hread segment hmem
    exact isSegment_of_mem_ofString htext
  · obtain ⟨text, htext⟩ := hread segment hmem
    have hchar := mem_of_mem_segment htext hbackslash
    rw [slashed, String.toList_map] at hchar
    obtain ⟨c, -, hc⟩ := List.mem_map.1 hchar
    split at hc <;> simp_all
  · exact climbs_foldl _ [] ⟨0, [], by simp⟩

end Path

/-! ## Homes -/

/-- A folder in which a project can live, below the root of the file tree and with nothing to resolve
in its path. -/
structure Home where
  place : List String
  isWay : Path.IsWay place

namespace Home

open StoryRegistry.Path

variable (home : Home)

/-- The path of what a way leads to from the home. -/
def path (way : List String) : Path := ⟨1, home.place ++ way⟩

/-- The text of the path to which a way leads from the home. -/
def text (way : List String) : String := (home.path way).toText

/-- The path is not too long to be used. -/
def Reaches (way : List String) : Prop := (home.text way).utf8ByteSize ≤ FileTree.longestPath

instance (way : List String) : Decidable (home.Reaches way) :=
  inferInstanceAs (Decidable (_ ≤ _))

@[simp]
theorem isAbsolute_path (way : List String) : (home.path way).isAbsolute = true := rfl

@[simp]
theorem segments_path (way : List String) : (home.path way).segments = home.place ++ way := rfl

@[simp]
theorem toText_path (way : List String) : (home.path way).toText = home.text way := rfl

variable {home} {way : List String}

theorem isNormal_path (h : IsNormal ⟨1, way⟩) : IsNormal (home.path way) where
  slashes_le := Nat.le_succ 1
  whole segment hmem := (List.mem_append.1 hmem).elim (home.isWay.normal.whole segment) (h.whole segment)
  noBackslash segment hmem :=
    (List.mem_append.1 hmem).elim (home.isWay.normal.noBackslash segment) (h.noBackslash segment)
  climbs := by
    refine ⟨0, home.place ++ way, rfl, fun hmem => ?_, fun _ => rfl⟩
    exact (List.mem_append.1 hmem).elim (home.isWay.normal.notAbove rfl) (h.notAbove rfl)

theorem ofString_text (h : IsNormal ⟨1, way⟩) : Path.ofString (home.text way) = home.path way :=
  (isNormal_path h).ofString_toText

theorem normalize_text_of_isNormal (h : IsNormal ⟨1, way⟩) :
    Path.normalize (home.text way) = home.text way :=
  (isNormal_path h).normalize_toText

/-- What stands behind the text of a home in the text of a path below it. -/
def behind (way : List String) : String := if way.isEmpty then "" else Path.toText ⟨1, way⟩

/-- The text of a path below a home is that of the home with that of the way behind it. -/
theorem text_eq (home : Home) (way : List String) : home.text way = home.text [] ++ behind way := by
  have hplace : home.place.map String.toList ≠ [] := by simpa using home.isWay.filled
  cases way with
  | nil => exact String.toList_inj.1 (by simp [behind])
  | cons segment rest =>
    have hway : (segment :: rest).map String.toList ≠ [] := by simp
    rw [← String.toList_inj, String.toList_append, behind, if_neg (by simp), text, text, path, path,
      toList_toText (Or.inl Nat.one_ne_zero), toList_toText (Or.inl Nat.one_ne_zero),
      toList_toText (Or.inl Nat.one_ne_zero), List.append_nil, List.map_append,
      joinWith_append hplace hway]
    simp

theorem path_injective {other : List String} (h : home.path way = home.path other) : way = other :=
  List.append_cancel_left (congrArg Path.segments h)

/-- Ways that are told apart have texts that are told apart. -/
theorem text_injective {other : List String} (hway : IsNormal ⟨1, way⟩) (hother : IsNormal ⟨1, other⟩)
    (h : home.text way = home.text other) : way = other :=
  path_injective (by rw [← ofString_text hway, h, ofString_text hother])

/-- What follows the home in the text of a path below it is the text of the way. -/
theorem below_text (home : Home) (h : way ≠ []) :
    Path.below (home.text []) (home.text way) = toText ⟨0, way⟩ := by
  have hdrop : Text.dropStart? (home.text [] ++ "/").toList (home.text way).toList =
      some (toText ⟨0, way⟩).toList := by
    rw [Text.dropStart?_eq_some_iff, text_eq home way, behind, if_neg (by simpa using h),
      String.toList_append, String.toList_append, toList_toText (Or.inl Nat.one_ne_zero),
      toList_toText (Or.inr h), List.append_assoc]
    rfl
  rw [Path.below, hdrop]
  exact String.ofList_toList

theorem leadingSlashes_slashed (home : Home) (way : List String) :
    leadingSlashes (slashed (home.text way)).toList = 1 := by
  obtain ⟨first, others, hplace⟩ := List.exists_cons_of_ne_nil home.isWay.filled
  have hmem : first ∈ home.place := hplace ▸ List.mem_cons_self
  have hplain := home.isWay.isPlain hmem
  obtain ⟨c, more, hchars⟩ := List.exists_cons_of_ne_nil (l := first.toList) fun hnil =>
    hplain.filled (String.toList_eq_nil_iff.1 hnil)
  have hin : c ∈ first.toList := hchars ▸ List.mem_cons_self
  have hc : c ≠ '\\' := fun heq => home.isWay.normal.noBackslash first hmem (heq ▸ hin)
  have hslash : c ≠ '/' := fun heq => hplain.noSlash (heq ▸ hin)
  have hhead : (Text.joinWith ['/'] ((home.place ++ way).map String.toList)).head? = some c := by
    rw [hplace, List.cons_append, List.map_cons, hchars]
    cases (others ++ way).map String.toList <;> rfl
  rw [slashed, String.toList_map, text, path, toList_toText (Or.inl Nat.one_ne_zero), List.map_append]
  refine leadingSlashes_replicate (n := 1) (Nat.le_succ 1) ?_
  rw [List.head?_map, hhead]
  simp [hc, hslash]

/-- A way that stays inside is resolved below its home. -/
theorem normal_path (h : stays 0 way = true) : (home.path way).normal = home.path (settle way) := by
  have hplace : home.place.foldl (pushSegment true) [] = home.place.reverse ++ [] :=
    foldl_pushSegment_of_not_mem (home.isWay.normal.notAbove rfl) []
  have hinside : way.foldl (pushSegment true) home.place.reverse =
      way.foldl (pushSegment true) [] ++ home.place.reverse :=
    @foldl_pushSegment_append way [] home.place.reverse h List.not_mem_nil
  unfold Path.normal
  refine congrArg (Path.mk 1) ?_
  show ((home.place ++ way).foldl (pushSegment true) []).reverse = _
  rw [List.foldl_append, hplace, List.append_nil, hinside, List.reverse_append, List.reverse_reverse]
  rfl

/-- What stays inside a home has one normal form from every home. -/
theorem normalize_text (h : stays 0 (pieces way) = true) :
    Path.normalize (home.text way) = home.text (settle (pieces way)) := by
  have hfilled : home.place ++ way ≠ [] := by simp [home.isWay.filled]
  have hsegments := segments_slashed hfilled
  have hslashes : (ofString (slashed (home.text way))).slashes = 1 := leadingSlashes_slashed home way
  have hread : ofString (slashed (home.text way)) = home.path (pieces way) := by
    rw [pieces_append, home.isWay.normal.pieces_eq] at hsegments
    show Path.mk (ofString (slashed (home.text way))).slashes _ = _
    exact congrArg₂ Path.mk hslashes hsegments
  have htext : home.text way ≠ "" := fun hempty => by
    have hhead := head?_toText_of_isAbsolute (home.isAbsolute_path way)
    rw [toText_path, hempty] at hhead
    cases hhead
  have hnormal : Path.normalize (home.text way) =
      (ofString (slashed (home.text way))).normal.toText := if_neg (by simpa using htext)
  rw [hnormal, hread, normal_path h]
  rfl

end Home

end StoryRegistry
