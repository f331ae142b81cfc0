import StoryRegistry.Proofs.Text.Utf8
import StoryRegistry.Value.Json.Reading

/-!
# What a JSON text is made of

Every character of a value's JSON text is plain, that is a line feed or an ASCII character that
prints, or it stands in one of the texts and names in the value and is no control (`mem_jsonAt`).
Halves of surrogate pairs stand for themselves (`mem_jsonAt_of_surrogate`). A JSON text therefore has a
UTF-8 form exactly if the texts and names have one, and it holds no carriage return.
-/

set_option autoImplicit false

namespace StoryRegistry

namespace Value

mutual

/-- Every text and every name in the value has a UTF-8 form. -/
def isWritable : Value → Bool
  | string s => Text.isWritable s
  | code text => Text.isWritable text
  | list items => itemsWritable items
  | map entries => entriesWritable entries
  | _ => true

/-- Every text and every name in the items has a UTF-8 form. -/
def itemsWritable : List Value → Bool
  | [] => true
  | v :: rest => isWritable v && itemsWritable rest

/-- Every text and every name in the entries has a UTF-8 form. -/
def entriesWritable : List (String × Value) → Bool
  | [] => true
  | (name, v) :: rest => Text.isWritable name && isWritable v && entriesWritable rest

end

mutual

/-- The texts and names in the value. -/
def texts : Value → List String
  | string s => [s]
  | code text => [text]
  | list items => itemsTexts items
  | map entries => entriesTexts entries
  | _ => []

/-- The texts and names in the items. -/
def itemsTexts : List Value → List String
  | [] => []
  | v :: rest => texts v ++ itemsTexts rest

/-- The texts and names in the entries. -/
def entriesTexts : List (String × Value) → List String
  | [] => []
  | (name, v) :: rest => name :: texts v ++ entriesTexts rest

end

mutual

theorem isWritable_eq_all : ∀ v : Value, v.isWritable = v.texts.all Text.isWritable
  | .null | .bool _ | .int _ | .double _ => by simp [isWritable, texts]
  | .string s => by simp [isWritable, texts]
  | .code text => by simp [isWritable, texts]
  | .list items => by
    rw [isWritable, texts]
    exact itemsWritable_eq_all items
  | .map entries => by
    rw [isWritable, texts]
    exact entriesWritable_eq_all entries

theorem itemsWritable_eq_all :
    ∀ items : List Value, itemsWritable items = (itemsTexts items).all Text.isWritable
  | [] => by simp [itemsWritable, itemsTexts]
  | v :: rest => by
    rw [itemsWritable, itemsTexts, List.all_append, isWritable_eq_all v, itemsWritable_eq_all rest]

theorem entriesWritable_eq_all : ∀ entries : List (String × Value),
    entriesWritable entries = (entriesTexts entries).all Text.isWritable
  | [] => by simp [entriesWritable, entriesTexts]
  | (name, v) :: rest => by
    rw [entriesWritable, entriesTexts, List.all_append, List.all_cons, isWritable_eq_all v,
      entriesWritable_eq_all rest]

end

end Value

namespace Text

/-! ## Plain characters -/

/-- The character is a line feed, or an ASCII character that prints. -/
def IsPlain (c : Char) : Prop := c = '\n' ∨ 0x20 ≤ c.toNat ∧ c.toNat < 0x7F

instance : DecidablePred IsPlain := fun _ => inferInstanceAs (Decidable (_ ∨ _))

/-- Every character of the text is plain. -/
def AllPlain (s : String) : Prop := ∀ c ∈ s.toList, IsPlain c

instance (s : String) : Decidable (AllPlain s) := List.decidableBAll IsPlain s.toList

theorem IsPlain.surrogate? {c : Char} (h : IsPlain c) : surrogate? c = none := by
  refine surrogate?_of_lt ?_
  rcases h with rfl | ⟨-, hsmall⟩
  · decide
  · omega

theorem allPlain_ofList {cs : List Char} (h : ∀ c ∈ cs, IsPlain c) : AllPlain (String.ofList cs) := by
  rwa [AllPlain, String.toList_ofList]

theorem AllPlain.append {s t : String} (h : AllPlain s) (h' : AllPlain t) : AllPlain (s ++ t) := by
  rw [AllPlain, String.toList_append]
  exact List.forall_mem_append.2 ⟨h, h'⟩

theorem isPlain_of_isDigit {c : Char} (h : c.isDigit = true) : IsPlain c := by
  simp only [Char.isDigit, Bool.and_eq_true, decide_eq_true_eq] at h
  have hleast : 48 ≤ c.toNat := h.1
  have hmost : c.toNat ≤ 57 := h.2
  exact .inr ⟨by omega, by omega⟩

theorem isPlain_of_mem_toDigits {n : Nat} {c : Char} (h : c ∈ Nat.toDigits 10 n) : IsPlain c :=
  isPlain_of_isDigit (Nat.isDigit_of_mem_toDigits (by decide) (by decide) h)

theorem allPlain_toDigits (n : Nat) : AllPlain (String.ofList (Nat.toDigits 10 n)) :=
  allPlain_ofList fun _ hc => isPlain_of_mem_toDigits hc

theorem allPlain_toString (n : Int) : AllPlain (toString n) := by
  cases n with
  | ofNat n => exact allPlain_toDigits n
  | negSucc n =>
    have hminus : AllPlain "-" := by decide
    exact hminus.append (allPlain_toDigits (n + 1))

/-! ## Texts between quotes -/

/-- A control is written by its number. -/
theorem charEscape_of_lt {c : Char} (h : c.toNat < 0x20) : charEscape c = unitEscape c.toNat := by
  unfold charEscape
  rw [surrogate?_of_lt (by omega)]
  exact if_pos (Nat.lt_trans h (by decide))

/-- A character between JSON quotes stands for itself, or there is a backslash before a mark for it,
or it is a control that is written by number. -/
theorem jsonChar_cases (c : Char) :
    (jsonChar false c = [c] ∧ c ≠ '"' ∧ c ≠ '\\' ∧ 0x20 ≤ c.toNat) ∨
      (∃ mark, jsonChar false c = ['\\', mark] ∧ IsPlain mark ∧ mark ≠ 'u' ∧
        Value.plainEscape? mark = some c) ∨
      (jsonChar false c = unitEscape c.toNat ∧ c.toNat < 0x20) := by
  have hmarked {mark : Char} {d : Char} (hd : (c == d) = true) (hplain : IsPlain mark)
      (hu : mark ≠ 'u') (hescape : Value.plainEscape? mark = some d) :
      ∃ other, ['\\', mark] = ['\\', other] ∧ IsPlain other ∧ other ≠ 'u' ∧
        Value.plainEscape? other = some c :=
    ⟨mark, rfl, hplain, hu, beq_iff_eq.1 hd ▸ hescape⟩
  generalize hchars : jsonChar false c = chars
  unfold jsonChar at hchars
  repeat' split at hchars
  all_goals subst hchars
  any_goals exact .inr (.inl (hmarked ‹(c == _) = true› (by decide) (by decide) rfl))
  · rename_i hcontrol
    exact .inr (.inr ⟨charEscape_of_lt hcontrol, hcontrol⟩)
  · rename_i hbeyond
    simp at hbeyond
  · rename_i hquote hbackslash _ _ _ _ _ hprints _
    exact .inl ⟨rfl, by simpa using hquote, by simpa using hbackslash, Nat.not_lt.1 hprints⟩

theorem isPlain_of_mem_unitEscape {n : Nat} (hn : n < 0x20) {d : Char} (hd : d ∈ unitEscape n) :
    IsPlain d := by
  have hall : ((List.range 0x20).all fun n => (unitEscape n).all fun d => decide (IsPlain d)) =
      true := by decide
  have hplain := List.all_eq_true.1 (List.all_eq_true.1 hall n (List.mem_range.2 hn)) d hd
  exact of_decide_eq_true hplain

/-- A text between JSON quotes holds plain characters, and of its own no controls. -/
theorem mem_jsonQuoted {s : String} {d : Char} (h : d ∈ (jsonQuoted false s).toList) :
    IsPlain d ∨ d ∈ s.toList ∧ 0x20 ≤ d.toNat := by
  rw [jsonQuoted, String.toList_ofList] at h
  simp only [List.cons_append, List.mem_cons, List.mem_append, List.mem_flatMap,
    List.not_mem_nil, or_false] at h
  rcases h with rfl | ⟨c, hc, hd⟩ | rfl
  · exact .inl (by decide)
  · obtain ⟨hsame, -, -, hprints⟩ | ⟨mark, hescape, hmark, -⟩ | ⟨hescape, hcontrol⟩ :=
      jsonChar_cases c
    · rw [hsame] at hd
      rw [List.mem_singleton.1 hd]
      exact .inr ⟨hc, hprints⟩
    · rw [hescape] at hd
      rcases List.mem_cons.1 hd with rfl | hd
      · exact .inl (by decide)
      · exact .inl (List.mem_singleton.1 hd ▸ hmark)
    · rw [hescape] at hd
      exact .inl (isPlain_of_mem_unitEscape hcontrol hd)
  · exact .inl (by decide)

/-- What is half of a surrogate pair stands for itself between JSON quotes. -/
theorem mem_jsonQuoted_of_surrogate {s : String} {c : Char} (hc : c ∈ s.toList)
    (hhalf : surrogate? c ≠ none) : c ∈ (jsonQuoted false s).toList := by
  have hsame : jsonChar false c = [c] := by
    obtain ⟨hsame, -⟩ | ⟨mark, -, hplain, -, hescape⟩ | ⟨-, hcontrol⟩ := jsonChar_cases c
    · exact hsame
    · unfold Value.plainEscape? at hescape
      split at hescape <;> cases hescape <;> exact absurd (by decide) hhalf
    · exact absurd (surrogate?_of_lt (by omega)) hhalf
  rw [jsonQuoted, String.toList_ofList]
  simp only [List.cons_append, List.mem_cons, List.mem_append, List.mem_flatMap]
  exact .inr (.inl ⟨c, hc, by rw [hsame]; exact List.mem_singleton_self c⟩)

end Text

/-! ## Numbers -/

namespace Double

open Text (IsPlain AllPlain)

theorem allPlain_exponentText (k : Int) : AllPlain (exponentText k) := by
  have hdigits : AllPlain (toString k.natAbs) := Text.allPlain_toDigits k.natAbs
  have hzero : AllPlain "0" := by decide
  have hsign : AllPlain (if k < 0 then "-" else "+") := by split <;> decide
  refine hsign.append ?_
  split
  · exact hzero.append hdigits
  · exact hdigits

theorem allPlain_layOut (style : Style) (d : Digits) : AllPlain (layOut style d) := by
  have hdigits : ∀ c ∈ Nat.toDigits 10 d.digits, IsPlain c := fun c =>
    Text.isPlain_of_mem_toDigits
  have htake (n : Nat) : ∀ c ∈ (Nat.toDigits 10 d.digits).take n, IsPlain c :=
    fun c hc => hdigits c (List.mem_of_mem_take hc)
  have hdrop (n : Nat) : ∀ c ∈ (Nat.toDigits 10 d.digits).drop n, IsPlain c :=
    fun c hc => hdigits c (List.mem_of_mem_drop hc)
  have hpoint : IsPlain '.' := by decide
  have hzero : IsPlain '0' := by decide
  have hzeros (n : Nat) : ∀ c ∈ List.replicate n '0', IsPlain c :=
    fun c hc => (List.eq_of_mem_replicate hc) ▸ hzero
  have hmark : AllPlain "e" := by decide
  have hfraction : AllPlain ".0" := by decide
  unfold layOut
  simp only [List.splitAt_eq]
  split
  · refine ((Text.allPlain_ofList ?_).append hmark).append (allPlain_exponentText _)
    split
    · exact htake 1
    · exact List.forall_mem_append.2 ⟨htake 1, List.forall_mem_cons.2 ⟨hpoint, hdrop 1⟩⟩
  · split
    · exact (Text.allPlain_ofList (List.forall_mem_append.2 ⟨hdigits, hzeros _⟩)).append hfraction
    · split
      · exact Text.allPlain_ofList (List.forall_mem_cons.2 ⟨hzero, List.forall_mem_cons.2 ⟨hpoint,
          List.forall_mem_append.2 ⟨hzeros _, hdigits⟩⟩⟩)
      · exact Text.allPlain_ofList (List.forall_mem_append.2 ⟨htake _,
          List.forall_mem_cons.2 ⟨hpoint, hdrop _⟩⟩)

theorem allPlain_textWith {names : Names} (hinfinity : AllPlain names.infinity)
    (hnan : AllPlain names.nan) (x : Double) : AllPlain (x.textWith names) := by
  have hminus : AllPlain "-" := by decide
  cases x with
  | nan => exact hnan
  | infinite negative =>
    cases negative
    · exact hinfinity
    · exact hminus.append hinfinity
  | finite negative size =>
    have hsize : AllPlain (if size.mantissa == 0 then "0.0" else layOut plain (shortest size)) := by
      split
      · decide
      · exact allPlain_layOut _ _
    unfold textWith
    dsimp only
    split
    · exact hminus.append hsize
    · exact hsize

end Double

namespace Value

open Text (IsPlain AllPlain)

/-! ## Lists and maps -/

/-- The end of a line, and the blanks with which the next one begins at a level. -/
def lineBreak (depth : Nat) : List Char := '\n' :: List.replicate (2 * depth) ' '

/-- Texts on lines of their own, with commas between them. -/
def joined (depth : Nat) : List String → List Char
  | [] => []
  | [text] => text.toList
  | text :: rest => text.toList ++ ',' :: (lineBreak depth ++ joined depth rest)

theorem toList_intercalate (depth : Nat) (texts : List String) :
    (("," ++ ("\n" ++ String.ofList (List.replicate (2 * depth) ' '))).intercalate texts).toList =
      joined depth texts := by
  induction texts with
  | nil => rfl
  | cons text rest ih =>
    cases rest with
    | nil => rw [String.intercalate_singleton, joined]
    | cons next more =>
      rw [String.intercalate_cons_cons, String.toList_append, ih]
      simp [joined, lineBreak]

theorem toList_enclose (depth : Nat) (start finish : String) {texts : List String} (h : texts ≠ []) :
    (enclose .tree depth start finish texts).toList = start.toList ++ (lineBreak (depth + 1) ++
      (joined (depth + 1) texts ++ (lineBreak depth ++ finish.toList))) := by
  have hfilled : texts.isEmpty = false := by simpa using h
  unfold enclose
  simp only [hfilled, Bool.false_eq_true, if_false, Layout.tree, String.toList_append,
    toList_intercalate]
  simp [lineBreak]

theorem mem_intercalate {between : String} {texts : List String} {c : Char}
    (h : c ∈ (between.intercalate texts).toList) :
    c ∈ between.toList ∨ ∃ s ∈ texts, c ∈ s.toList := by
  induction texts with
  | nil => cases h
  | cons text rest ih =>
    cases rest with
    | nil =>
      rw [String.intercalate_singleton] at h
      exact .inr ⟨text, List.mem_cons_self, h⟩
    | cons next more =>
      rw [String.intercalate_cons_cons, String.toList_append, String.toList_append, List.mem_append,
        List.mem_append] at h
      rcases h with (h | h) | h
      · exact .inr ⟨text, List.mem_cons_self, h⟩
      · exact .inl h
      · exact (ih h).imp_right fun ⟨s, hs, hc⟩ => ⟨s, List.mem_cons_of_mem _ hs, hc⟩

/-- Texts stand as they are in the layout, with plain characters between them. -/
structure Layout.IsPlain (layout : Layout) : Prop where
  ascii : layout.ascii = false
  comma : AllPlain layout.comma
  colon : AllPlain layout.colon

theorem Layout.isPlain_tree : Layout.tree.IsPlain := ⟨rfl, by decide, by decide⟩

theorem mem_enclose {layout : Layout} (hlayout : layout.IsPlain) {depth : Nat}
    {start finish : String} {texts : List String} {c : Char} (hstart : AllPlain start)
    (hfinish : AllPlain finish) (h : c ∈ (enclose layout depth start finish texts).toList) :
    IsPlain c ∨ ∃ s ∈ texts, c ∈ s.toList := by
  have hbreak (n : Nat) : AllPlain ("\n" ++ String.ofList (List.replicate n ' ')) := by
    refine AllPlain.append (by decide) (Text.allPlain_ofList fun d hd => ?_)
    rw [List.eq_of_mem_replicate hd]
    decide
  unfold enclose at h
  split at h
  · exact .inl (hstart.append hfinish c h)
  · split at h
    · simp only [String.toList_append, List.mem_append] at h
      rcases h with (h | h) | h
      · exact .inl (hstart c h)
      · exact (mem_intercalate h).imp_left (hlayout.comma c)
      · exact .inl (hfinish c h)
    · dsimp only at h
      rw [String.toList_append, String.toList_append, String.toList_append, String.toList_append]
        at h
      simp only [List.mem_append] at h
      rcases h with (((h | h) | h) | h) | h
      · exact .inl (hstart c h)
      · exact .inl (hbreak _ c h)
      · exact (mem_intercalate h).imp_left ((hlayout.comma.append (hbreak _)) c)
      · exact .inl (hbreak _ c h)
      · exact .inl (hfinish c h)

theorem mem_intercalate_of_mem {between s : String} {texts : List String} {c : Char}
    (hs : s ∈ texts) (hc : c ∈ s.toList) : c ∈ (between.intercalate texts).toList := by
  induction texts with
  | nil => cases hs
  | cons text rest ih =>
    cases rest with
    | nil =>
      rw [String.intercalate_singleton]
      rwa [← List.mem_singleton.1 hs]
    | cons next more =>
      rw [String.intercalate_cons_cons, String.toList_append, String.toList_append, List.mem_append,
        List.mem_append]
      rcases List.mem_cons.1 hs with rfl | hs
      · exact .inl (.inl hc)
      · exact .inr (ih hs)

theorem mem_enclose_of_mem {layout : Layout} {depth : Nat} {start finish s : String}
    {texts : List String} {c : Char} (hs : s ∈ texts) (hc : c ∈ s.toList) :
    c ∈ (enclose layout depth start finish texts).toList := by
  have hfilled : texts.isEmpty = false := by
    cases texts with
    | nil => cases hs
    | cons => rfl
  unfold enclose
  rw [hfilled, if_neg Bool.false_ne_true]
  split
  · rw [String.toList_append, String.toList_append, List.mem_append, List.mem_append]
    exact .inl (.inr (mem_intercalate_of_mem hs hc))
  · dsimp only
    rw [String.toList_append, String.toList_append, List.mem_append, List.mem_append,
      String.toList_append, List.mem_append]
    exact .inl (.inl (.inr (mem_intercalate_of_mem hs hc)))

/-! ## Values -/

/-- A character of a text in a list of texts, that is no control. -/
def Mentions (texts : List String) (c : Char) : Prop := (∃ s ∈ texts, c ∈ s.toList) ∧ 0x20 ≤ c.toNat

theorem Mentions.mono {texts more : List String} {c : Char} (h : Mentions texts c)
    (hsub : ∀ s ∈ texts, s ∈ more) : Mentions more c :=
  ⟨h.1.imp fun _ ⟨hs, hc⟩ => ⟨hsub _ hs, hc⟩, h.2⟩

theorem mentions_of_mem_jsonQuoted {s : String} {c : Char}
    (h : c ∈ (Text.jsonQuoted false s).toList) : IsPlain c ∨ Mentions [s] c :=
  (Text.mem_jsonQuoted h).imp id fun ⟨hc, hprints⟩ => ⟨⟨s, List.mem_singleton_self s, hc⟩, hprints⟩

mutual

/-- The JSON text of a value holds plain characters, and of the texts and names in the value no
controls. -/
theorem mem_jsonAt {layout : Layout} (hlayout : layout.IsPlain) :
    ∀ (v : Value) (depth : Nat) (c : Char), c ∈ (jsonAt layout depth v).toList →
      IsPlain c ∨ Mentions v.texts c
  | .null, depth, c, h => by
    rw [jsonAt] at h
    exact .inl ((by decide : AllPlain "null") c h)
  | .bool b, depth, c, h => by
    have hword : AllPlain (if b = true then "true" else "false") := by cases b <;> decide
    rw [jsonAt] at h
    exact .inl (hword c h)
  | .int n, depth, c, h => by
    rw [jsonAt] at h
    exact .inl (Text.allPlain_toString n c h)
  | .double x, depth, c, h => by
    rw [jsonAt] at h
    exact .inl (Double.allPlain_textWith (by decide) (by decide) x c h)
  | .string s, depth, c, h => by
    rw [jsonAt, hlayout.ascii] at h
    rw [texts]
    exact mentions_of_mem_jsonQuoted h
  | .code text, depth, c, h => by
    rw [jsonAt, hlayout.ascii] at h
    rw [texts]
    exact mentions_of_mem_jsonQuoted h
  | .list items, depth, c, h => by
    rw [jsonAt] at h
    rw [texts]
    rcases mem_enclose hlayout (by decide) (by decide) h with hplain | ⟨s, hs, hc⟩
    · exact .inl hplain
    · exact mem_jsonItems hlayout items (depth + 1) s hs c hc
  | .map entries, depth, c, h => by
    rw [jsonAt] at h
    rw [texts]
    rcases mem_enclose hlayout (by decide) (by decide) h with hplain | ⟨s, hs, hc⟩
    · exact .inl hplain
    · exact mem_jsonEntries hlayout entries (depth + 1) s hs c hc

theorem mem_jsonItems {layout : Layout} (hlayout : layout.IsPlain) :
    ∀ (items : List Value) (depth : Nat), ∀ s ∈ jsonItems layout depth items,
      ∀ c ∈ s.toList, IsPlain c ∨ Mentions (itemsTexts items) c
  | [], depth, s, h, _, _ => by simp [jsonItems] at h
  | v :: rest, depth, s, h, c, hc => by
    rw [jsonItems] at h
    rw [itemsTexts]
    rcases List.mem_cons.1 h with rfl | h
    · exact (mem_jsonAt hlayout v depth c hc).imp id fun hmentions =>
        hmentions.mono fun _ => List.mem_append_left _
    · exact (mem_jsonItems hlayout rest depth s h c hc).imp id fun hmentions =>
        hmentions.mono fun _ => List.mem_append_right _

theorem mem_jsonEntries {layout : Layout} (hlayout : layout.IsPlain) :
    ∀ (entries : List (String × Value)) (depth : Nat), ∀ s ∈ jsonEntries layout depth entries,
      ∀ c ∈ s.toList, IsPlain c ∨ Mentions (entriesTexts entries) c
  | [], depth, s, h, _, _ => by simp [jsonEntries] at h
  | (name, v) :: rest, depth, s, h, c, hc => by
    rw [jsonEntries, hlayout.ascii] at h
    rw [entriesTexts]
    rcases List.mem_cons.1 h with rfl | h
    · rw [String.toList_append, String.toList_append, List.mem_append, List.mem_append] at hc
      rcases hc with (hc | hc) | hc
      · exact (mentions_of_mem_jsonQuoted hc).imp id fun hmentions =>
          hmentions.mono fun s hs => by simp [List.mem_singleton.1 hs]
      · exact .inl (hlayout.colon c hc)
      · exact (mem_jsonAt hlayout v depth c hc).imp id fun hmentions =>
          hmentions.mono fun s hs => by simp [hs]
    · exact (mem_jsonEntries hlayout rest depth s h c hc).imp id fun hmentions =>
        hmentions.mono fun s hs => by simp [hs]

end

mutual

/-- Halves of surrogate pairs in the texts and names of a value stand in its JSON text. -/
theorem mem_jsonAt_of_surrogate {layout : Layout} (hlayout : layout.IsPlain) {c : Char}
    (hhalf : Text.surrogate? c ≠ none) : ∀ (v : Value) (depth : Nat),
      ∀ s ∈ v.texts, c ∈ s.toList → c ∈ (jsonAt layout depth v).toList
  | .null, _, s, hs, _ | .bool _, _, s, hs, _ | .int _, _, s, hs, _ | .double _, _, s, hs, _ => by
    simp [texts] at hs
  | .string text, _, s, hs, hc | .code text, _, s, hs, hc => by
    rw [texts, List.mem_singleton] at hs
    rw [jsonAt, hlayout.ascii]
    exact Text.mem_jsonQuoted_of_surrogate (hs ▸ hc) hhalf
  | .list items, depth, s, hs, hc => by
    rw [texts] at hs
    rw [jsonAt]
    obtain ⟨part, hpart, hmem⟩ := mem_jsonItems_of_surrogate hlayout hhalf items (depth + 1) s hs hc
    exact mem_enclose_of_mem hpart hmem
  | .map entries, depth, s, hs, hc => by
    rw [texts] at hs
    rw [jsonAt]
    obtain ⟨part, hpart, hmem⟩ :=
      mem_jsonEntries_of_surrogate hlayout hhalf entries (depth + 1) s hs hc
    exact mem_enclose_of_mem hpart hmem

theorem mem_jsonItems_of_surrogate {layout : Layout} (hlayout : layout.IsPlain) {c : Char}
    (hhalf : Text.surrogate? c ≠ none) : ∀ (items : List Value) (depth : Nat),
      ∀ s ∈ itemsTexts items, c ∈ s.toList →
        ∃ part ∈ jsonItems layout depth items, c ∈ part.toList
  | [], _, s, hs, _ => by simp [itemsTexts] at hs
  | v :: rest, depth, s, hs, hc => by
    rw [itemsTexts, List.mem_append] at hs
    rw [jsonItems]
    rcases hs with hs | hs
    · exact ⟨_, List.mem_cons_self, mem_jsonAt_of_surrogate hlayout hhalf v depth s hs hc⟩
    · obtain ⟨part, hpart, hmem⟩ := mem_jsonItems_of_surrogate hlayout hhalf rest depth s hs hc
      exact ⟨part, List.mem_cons_of_mem _ hpart, hmem⟩

theorem mem_jsonEntries_of_surrogate {layout : Layout} (hlayout : layout.IsPlain) {c : Char}
    (hhalf : Text.surrogate? c ≠ none) : ∀ (entries : List (String × Value)) (depth : Nat),
      ∀ s ∈ entriesTexts entries, c ∈ s.toList →
        ∃ part ∈ jsonEntries layout depth entries, c ∈ part.toList
  | [], _, s, hs, _ => by simp [entriesTexts] at hs
  | (name, v) :: rest, depth, s, hs, hc => by
    rw [entriesTexts, List.mem_append, List.mem_cons, or_assoc] at hs
    rw [jsonEntries, hlayout.ascii]
    rcases hs with rfl | hs | hs
    · refine ⟨_, List.mem_cons_self, ?_⟩
      rw [String.toList_append, String.toList_append, List.append_assoc, List.mem_append]
      exact .inl (Text.mem_jsonQuoted_of_surrogate hc hhalf)
    · refine ⟨_, List.mem_cons_self, ?_⟩
      rw [String.toList_append, List.mem_append]
      exact .inr (mem_jsonAt_of_surrogate hlayout hhalf v depth s hs hc)
    · obtain ⟨part, hpart, hmem⟩ := mem_jsonEntries_of_surrogate hlayout hhalf rest depth s hs hc
      exact ⟨part, List.mem_cons_of_mem _ hpart, hmem⟩

end

/-- The JSON text of a value has a UTF-8 form if the texts and names in it have one. -/
theorem isWritable_jsonAt {layout : Layout} (hlayout : layout.IsPlain) (v : Value) (depth : Nat)
    (h : v.isWritable = true) : Text.isWritable (jsonAt layout depth v) = true := by
  rw [isWritable_eq_all, List.all_eq_true] at h
  rw [← String.ofList_toList (s := jsonAt layout depth v)]
  refine Text.isWritable_of_chars fun c hc => ?_
  rcases mem_jsonAt hlayout v depth c hc with hplain | ⟨⟨s, hs, hmem⟩, -⟩
  · exact hplain.surrogate?
  · have hnone := List.all_eq_true.1 (h s hs) c hmem
    simpa using hnone

/-- The JSON text of a value has no UTF-8 form if one of the texts and names in it has none. -/
theorem not_isWritable_jsonAt {layout : Layout} (hlayout : layout.IsPlain) (v : Value) (depth : Nat)
    (h : v.isWritable = false) : Text.isWritable (jsonAt layout depth v) = false := by
  rw [isWritable_eq_all, List.all_eq_false] at h
  obtain ⟨s, hs, hnot⟩ := h
  rw [Bool.not_eq_true, Text.isWritable, List.all_eq_false] at hnot
  obtain ⟨c, hc, hhalf⟩ := hnot
  refine List.all_eq_false.2 ⟨c, mem_jsonAt_of_surrogate hlayout (fun hnone => ?_) v depth s hs hc,
    hhalf⟩
  simp [hnone] at hhalf

/-- The JSON text of a value holds no carriage return. -/
theorem return_not_mem_jsonAt (v : Value) (depth : Nat) :
    '\r' ∉ (jsonAt .tree depth v).toList := by
  intro h
  rcases mem_jsonAt Layout.isPlain_tree v depth _ h with hplain | ⟨-, hprints⟩
  · exact absurd hplain (by decide)
  · exact absurd hprints (by decide)

end Value

end StoryRegistry
