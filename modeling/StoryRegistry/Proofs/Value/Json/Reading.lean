import Mathlib.Data.List.DropRight
import StoryRegistry.Proofs.Table
import StoryRegistry.Proofs.Value.Json
import StoryRegistry.Proofs.Value.Json.Numbers

/-!
# Reading written values

What is written for a value that JSON texts denote is read as the value (`ofJson_jsonText`). Reading
goes along the value: a text ends at its quote, a number where none of its characters can stand, and
a list or a map at its bracket. The fuel is twice the number of characters, since at most two calls
go by before one is taken.
-/

set_option autoImplicit false

namespace StoryRegistry

namespace Value

mutual

/-- The value is one that JSON texts denote: it holds no source text, its numbers have digits, and
its maps have each name once. -/
def IsJson : Value → Prop
  | null | bool _ | int _ | string _ => True
  | double x => ∃ negative size, x = .finite negative size
  | list items => AreJson items
  | map entries => (Table.names entries).Nodup ∧ EntriesAreJson entries
  | code _ => False

/-- All the items are values that JSON texts denote. -/
def AreJson : List Value → Prop
  | [] => True
  | v :: rest => IsJson v ∧ AreJson rest

/-- All the entries hold values that JSON texts denote. -/
def EntriesAreJson : List (String × Value) → Prop
  | [] => True
  | (_, v) :: rest => IsJson v ∧ EntriesAreJson rest

end

/-! ## Texts -/

theorem readUnit?_append {cs : List Char} {n : ℕ} (h : readUnit? cs = some (n, []))
    (rest : List Char) : readUnit? (cs ++ rest) = some (n, rest) := by
  unfold readUnit? at h
  split at h
  · rename_i a b c d more
    obtain ⟨a', ha, h⟩ := Option.bind_eq_some_iff.1 h
    obtain ⟨b', hb, h⟩ := Option.bind_eq_some_iff.1 h
    obtain ⟨c', hc, h⟩ := Option.bind_eq_some_iff.1 h
    obtain ⟨d', hd, h⟩ := Option.bind_eq_some_iff.1 h
    cases h
    simp [readUnit?, ha, hb, hc, hd]
  · cases h

theorem readUnit?_hexDigits {n : ℕ} (hn : n < 0x20) :
    readUnit? (Text.hexDigits 4 n) = some (n, []) := by
  have hall : ∀ n < 0x20, readUnit? (Text.hexDigits 4 n) = some (n, []) := by decide
  exact hall n hn

theorem pairUnits_of_lt {n : ℕ} (hn : n < 0x20) (rest : List Char) :
    pairUnits n rest = (Char.ofNat n, rest) := by
  have hcode : Text.charOfCode? n = some (Char.ofNat n) := by
    unfold Text.charOfCode?
    rw [if_neg (by omega), if_neg (by simp; omega)]
  unfold pairUnits
  rw [if_neg (by simp; omega), hcode]
  rfl

/-- A written character is read as the character. -/
theorem readChars_jsonChar {start fuel : ℕ} (c : Char) {s cs rest : List Char} (hne : s ≠ [])
    (h : readChars start fuel s = .ok (cs, rest)) :
    readChars start (fuel + 1) (Text.jsonChar false c ++ s) = .ok (c :: cs, rest) := by
  obtain ⟨htext, hquote, hbackslash, hprints⟩ | ⟨mark, htext, -, hu, hmark⟩ | ⟨htext, hcontrol⟩ :=
    Text.jsonChar_cases c
  · rw [htext]
    simp [readChars, h, hbackslash, not_lt.2 hprints]
  · rw [htext]
    simp [readChars, h, hmark]
  · obtain ⟨d, more, rfl⟩ := List.exists_cons_of_ne_nil hne
    have hread := readUnit?_append (readUnit?_hexDigits hcontrol) (d :: more)
    rw [htext]
    simp [Text.unitEscape, readChars, hread, pairUnits_of_lt hcontrol, h, Char.ofNat_toNat]

/-- Written characters are read up to the quote behind them. -/
theorem readChars_flatMap (start : ℕ) {fuel : ℕ} {cs : List Char} (h : cs.length < fuel)
    (rest : List Char) :
    readChars start fuel (cs.flatMap (Text.jsonChar false) ++ '"' :: rest) = .ok (cs, rest) := by
  induction cs generalizing fuel with
  | nil =>
    obtain ⟨fuel, rfl⟩ := Nat.exists_eq_add_of_lt h
    simp [readChars]
  | cons c more ih =>
    obtain ⟨fuel, rfl⟩ : ∃ k, fuel = k + 1 := ⟨fuel - 1, by simp at h; omega⟩
    rw [List.flatMap_cons, List.append_assoc]
    exact readChars_jsonChar c (by simp) (ih (by simpa using h))

theorem length_le_flatMap (cs : List Char) :
    cs.length ≤ (cs.flatMap (Text.jsonChar false)).length := by
  induction cs with
  | nil => exact le_rfl
  | cons c rest ih =>
    have hc : 1 ≤ (Text.jsonChar false c).length := by
      obtain ⟨htext, -⟩ | ⟨mark, htext, -⟩ | ⟨htext, -⟩ := Text.jsonChar_cases c <;>
        simp [htext, Text.unitEscape]
    rw [List.flatMap_cons, List.length_append, List.length_cons]
    omega

/-- A text is read up to its quote. -/
theorem readText_jsonQuoted (s : String) (rest : List Char) :
    (Text.jsonQuoted false s).toList ++ rest =
        '"' :: (s.toList.flatMap (Text.jsonChar false) ++ '"' :: rest) ∧
      readText (s.toList.flatMap (Text.jsonChar false) ++ '"' :: rest) = .ok (s, rest) := by
  have hlength := length_le_flatMap s.toList
  have hread := readChars_flatMap
    ((s.toList.flatMap (Text.jsonChar false) ++ '"' :: rest).length + 1)
    (show s.toList.length < (s.toList.flatMap (Text.jsonChar false) ++ '"' :: rest).length + 1 by
      rw [List.length_append]
      omega) rest
  refine ⟨by simp [Text.jsonQuoted], ?_⟩
  unfold readText
  rw [hread]
  exact congrArg (fun t => Except.ok (t, rest)) String.ofList_toList

/-! ## Blanks -/

theorem skipJsonBlanks_of_head {s : List Char} (h : ∀ c ∈ s.head?, isJsonBlank c = false) :
    skipJsonBlanks s = s := by
  cases s with
  | nil => rfl
  | cons c rest =>
    have hc := h c rfl
    simp [skipJsonBlanks, hc]

theorem skipJsonBlanks_lineBreak (depth : ℕ) (s : List Char) :
    skipJsonBlanks (lineBreak depth ++ s) = skipJsonBlanks s := by
  have hblank : ∀ c ∈ lineBreak depth, isJsonBlank c = true := by
    refine List.forall_mem_cons.2 ⟨rfl, fun c hc => ?_⟩
    rw [List.eq_of_mem_replicate hc]
    rfl
  unfold skipJsonBlanks
  rw [List.dropWhile_append_of_pos hblank]

theorem skipJsonBlanks_idempotent (s : List Char) :
    skipJsonBlanks (skipJsonBlanks s) = skipJsonBlanks s := List.dropWhile_idempotent _ s

theorem follows_lineBreak (depth : ℕ) (s : List Char) : Follows (lineBreak depth ++ s) := by
  rintro c ⟨⟩
  exact .inr rfl

theorem follows_comma (s : List Char) : Follows (',' :: s) := by
  rintro c ⟨⟩
  exact .inl rfl

/-- Where a value is read, no blank, no closing bracket and no byte order mark comes first. -/
theorem head_of_readValue {fuel : ℕ} {s : List Char} {found : Front Value}
    (h : readValue fuel s = .ok found) :
    ∀ c ∈ s.head?, isJsonBlank c = false ∧ c ≠ ']' ∧ c ≠ '\uFEFF' := by
  intro c hc
  obtain ⟨rest, rfl⟩ := List.head?_eq_some_iff.1 hc
  obtain ⟨fuel, rfl⟩ : ∃ k, fuel = k + 1 := by
    cases fuel with
    | zero => cases h
    | succ k => exact ⟨k, rfl⟩
  -- neither a word nor a number begins with one of these
  have hnone (d : Char) (hd : d ∈ [' ', '\t', '\n', '\r', ']', '\uFEFF']) : c ≠ d := by
    rintro rfl
    simp only [List.mem_cons, List.not_mem_nil, or_false] at hd
    rcases hd with rfl | rfl | rfl | rfl | rfl | rfl <;> cases h
  simp only [List.forall_mem_cons, List.not_mem_nil, false_implies, implies_true, and_true] at hnone
  obtain ⟨hspace, htab, hline, hreturn, hlist, hmark⟩ := hnone
  exact ⟨by simp [isJsonBlank, hspace, htab, hline, hreturn], hlist, hmark⟩

/-! ## Lists and maps -/

/-- A word or a number is read by itself. -/
theorem readValue_of_readScalar {fuel : ℕ} {s : List Char} {found : Front Value}
    (h : readScalar s = .ok found) : readValue (fuel + 1) s = .ok found := by
  unfold readValue
  split
  · rename_i hfuel
    cases hfuel
  · cases h
  · cases h
  · cases h
  · exact h

/-- An item is read, and behind a comma the others are. -/
theorem readItems_cons {fuel : ℕ} {s t rest tail : List Char} {v : Value} {vs : List Value}
    (hv : readValue fuel (t ++ ',' :: rest) = .ok (v, ',' :: rest))
    (hs : skipJsonBlanks s = skipJsonBlanks (t ++ ',' :: rest))
    (hrest : readItems fuel rest = .ok (vs, tail)) :
    readItems (fuel + 1) s = .ok (v :: vs, tail) := by
  have hstart : skipJsonBlanks (t ++ ',' :: rest) = t ++ ',' :: rest :=
    skipJsonBlanks_of_head fun c hc => (head_of_readValue hv c hc).1
  have hcomma : skipJsonBlanks (',' :: rest) = ',' :: rest := skipJsonBlanks_of_head (by simp; rfl)
  rw [readItems, hs, hstart, hv]
  simp only [bind, Except.bind, hcomma, hrest]
  rfl

/-- The last item is read, and with it the bracket. -/
theorem readItems_last {fuel depth : ℕ} {s t rest : List Char} {v : Value}
    (hv : readValue fuel (t ++ (lineBreak depth ++ ']' :: rest)) =
      .ok (v, lineBreak depth ++ ']' :: rest))
    (hs : skipJsonBlanks s = skipJsonBlanks (t ++ (lineBreak depth ++ ']' :: rest))) :
    readItems (fuel + 1) s = .ok ([v], rest) := by
  have hstart : skipJsonBlanks (t ++ (lineBreak depth ++ ']' :: rest)) =
      t ++ (lineBreak depth ++ ']' :: rest) :=
    skipJsonBlanks_of_head fun c hc => (head_of_readValue hv c hc).1
  have hclose : skipJsonBlanks (lineBreak depth ++ ']' :: rest) = ']' :: rest := by
    rw [skipJsonBlanks_lineBreak]
    exact skipJsonBlanks_of_head (by simp; rfl)
  rw [readItems, hs, hstart, hv]
  simp only [bind, Except.bind, hclose]
  rfl

/-- A name is read, with the colon and the value behind it. -/
theorem readEntries_name {fuel : ℕ} {s t rest : List Char} {name : String} {v : Value}
    (hv : readValue fuel (t ++ rest) = .ok (v, rest))
    (hs : skipJsonBlanks s =
      skipJsonBlanks ((Text.jsonQuoted false name).toList ++ (": ".toList ++ (t ++ rest))))
    (found : Table Value) :
    readEntries (fuel + 1) found s =
      match skipJsonBlanks rest with
      | ',' :: rest => readEntries fuel (Table.set name v found) rest
      | '\x7d' :: rest => .ok (Table.set name v found, rest)
      | rest => faultAt .comma rest := by
  obtain ⟨hquoted, hname⟩ := readText_jsonQuoted name (": ".toList ++ (t ++ rest))
  have hquote (cs : List Char) : skipJsonBlanks ('"' :: cs) = '"' :: cs :=
    skipJsonBlanks_of_head (by simp; rfl)
  have hcolon : skipJsonBlanks (": ".toList ++ (t ++ rest)) = ':' :: ' ' :: (t ++ rest) :=
    skipJsonBlanks_of_head (by simp; rfl)
  have hstart : skipJsonBlanks (' ' :: (t ++ rest)) = t ++ rest := by
    show skipJsonBlanks (t ++ rest) = t ++ rest
    exact skipJsonBlanks_of_head fun c hc => (head_of_readValue hv c hc).1
  rw [readEntries, hs, hquoted, hquote]
  simp only [hname, bind, Except.bind, hcolon, hstart, hv]
  rfl

theorem readValue_text {fuel : ℕ} {s rest : List Char} {text : String}
    (h : readText s = .ok (text, rest)) :
    readValue (fuel + 1) ('"' :: s) = .ok (string text, rest) := by
  rw [readValue, h]
  rfl

/-- Items are no closing bracket, so that a list that has some is read by its items. -/
theorem readValue_list {fuel : ℕ} {s rest : List Char} {items : List Value}
    (h : readItems fuel (skipJsonBlanks s) = .ok (items, rest)) :
    readValue (fuel + 1) ('[' :: s) = .ok (list items, rest) := by
  have hopen : ∀ tail, skipJsonBlanks s ≠ ']' :: tail := by
    intro tail heq
    rw [heq] at h
    obtain _ | _ | fuel := fuel <;> cases h
  rw [readValue]
  split
  · rename_i tail heq
    exact absurd heq (hopen tail)
  · rw [h]
    rfl

theorem readValue_map {fuel : ℕ} {s rest : List Char} {entries : Table Value}
    (h : readEntries fuel [] (skipJsonBlanks s) = .ok (entries, rest)) :
    readValue (fuel + 1) ('\x7b' :: s) = .ok (map entries, rest) := by
  have hopen : ∀ tail, skipJsonBlanks s ≠ '\x7d' :: tail := by
    intro tail heq
    rw [heq] at h
    cases fuel <;> cases h
  rw [readValue]
  split
  · rename_i tail heq
    exact absurd heq (hopen tail)
  · rw [h]
    rfl

theorem jsonEntries_cons (depth : ℕ) (name : String) (v : Value) (rest : Table Value) :
    jsonEntries .tree depth ((name, v) :: rest) =
      (Text.jsonQuoted false name ++ ": " ++ jsonAt .tree depth v) ::
        jsonEntries .tree depth rest := by
  rw [jsonEntries]
  rfl

theorem not_mem_of_nodup {found more : Table Value} {name : String} {v : Value}
    (h : (Table.names (found ++ (name, v) :: more)).Nodup) : name ∉ Table.names found := by
  intro hmem
  rw [Table.names, List.map_append, List.nodup_append] at h
  exact h.2.2 name hmem name (by simp) rfl

mutual

/-- A written value is read as the value, whatever stands behind it. -/
theorem readValue_jsonAt : ∀ (v : Value) (depth fuel : ℕ) (rest : List Char), v.IsJson →
    v.intsFit = true → 2 * (jsonAt .tree depth v).toList.length ≤ fuel → Follows rest →
      readValue (fuel + 1) ((jsonAt .tree depth v).toList ++ rest) = .ok (v, rest)
  | .null, _, _, _ => by
    intros
    rw [jsonAt]
    rfl
  | .bool b, _, _, _ => by
    intros
    cases b <;> rw [jsonAt] <;> rfl
  | .int n, depth, fuel, rest => by
    intro _ hfit _ hrest
    rw [intsFit] at hfit
    rw [jsonAt]
    exact readValue_of_readScalar (readScalar_toString hfit hrest)
  | .double x, depth, fuel, rest => by
    intro hx _ _ hrest
    rw [IsJson] at hx
    obtain ⟨negative, size, rfl⟩ := hx
    rw [jsonAt]
    exact readValue_of_readScalar (readScalar_textWith _ negative size hrest)
  | .string s, depth, fuel, rest => by
    intros
    obtain ⟨hquoted, htext⟩ := readText_jsonQuoted s rest
    rw [jsonAt]
    exact (congrArg _ hquoted).trans (readValue_text htext)
  | .list items, depth, fuel, rest => by
    intro hjson hfit hfuel hrest
    rw [IsJson] at hjson
    rw [intsFit] at hfit
    rw [jsonAt] at hfuel ⊢
    by_cases hempty : items = []
    · have htext : (enclose .tree depth "[" "]" []).toList = ['[', ']'] := by simp [enclose]
      rw [hempty, jsonItems, htext]
      rfl
    · have htexts : jsonItems .tree (depth + 1) items ≠ [] := by
        cases items with
        | nil => exact absurd rfl hempty
        | cons v more => simp [jsonItems]
      rw [toList_enclose depth "[" "]" htexts] at hfuel ⊢
      obtain ⟨fuel, rfl⟩ : ∃ k, fuel = k + 1 := ⟨fuel - 1, by simp at hfuel; omega⟩
      have hread := readItems_jsonItems items depth fuel
        (skipJsonBlanks (lineBreak (depth + 1) ++ _)) rest hempty hjson hfit
        (by simp at hfuel; omega) (by rw [skipJsonBlanks_idempotent, skipJsonBlanks_lineBreak])
      simpa using readValue_list hread
  | .map entries, depth, fuel, rest => by
    intro hjson hfit hfuel hrest
    rw [IsJson] at hjson
    rw [intsFit] at hfit
    rw [jsonAt] at hfuel ⊢
    by_cases hempty : entries = []
    · have htext : (enclose .tree depth "\x7b" "\x7d" []).toList = ['\x7b', '\x7d'] := by
        simp [enclose]
      rw [hempty, jsonEntries, htext]
      rfl
    · have htexts : jsonEntries .tree (depth + 1) entries ≠ [] := by
        cases entries with
        | nil => exact absurd rfl hempty
        | cons entry more => simp [jsonEntries]
      rw [toList_enclose depth "\x7b" "\x7d" htexts] at hfuel ⊢
      obtain ⟨fuel, rfl⟩ : ∃ k, fuel = k + 1 := ⟨fuel - 1, by simp at hfuel; omega⟩
      have hread := readEntries_jsonEntries entries depth fuel
        (skipJsonBlanks (lineBreak (depth + 1) ++ _)) rest [] hempty hjson.2 hjson.1 hfit
        (by simp at hfuel; omega) (by rw [skipJsonBlanks_idempotent, skipJsonBlanks_lineBreak])
      simpa using readValue_map hread
  | .code text, depth, fuel, rest => by
    intro hjson
    rw [IsJson] at hjson
    exact hjson.elim

theorem readItems_jsonItems : ∀ (items : List Value) (depth fuel : ℕ) (s rest : List Char),
    items ≠ [] → AreJson items → itemsFit items = true →
      2 * (joined (depth + 1) (jsonItems .tree (depth + 1) items)).length + 1 ≤ fuel →
      skipJsonBlanks s = skipJsonBlanks (joined (depth + 1) (jsonItems .tree (depth + 1) items) ++
        (lineBreak depth ++ ']' :: rest)) →
      readItems (fuel + 1) s = .ok (items, rest)
  | [], _, _, _, _ => fun h => absurd rfl h
  | [v], depth, fuel, s, rest => by
    intro _ hjson hfit hfuel hs
    obtain ⟨hv, -⟩ : v.IsJson ∧ AreJson [] := by rwa [AreJson] at hjson
    obtain ⟨fuel, rfl⟩ : ∃ k, fuel = k + 1 := ⟨fuel - 1, by omega⟩
    simp only [jsonItems, joined] at hfuel hs
    refine readItems_last (readValue_jsonAt v (depth + 1) fuel _ hv ?_ (by omega)
      (follows_lineBreak _ _)) hs
    simpa [itemsFit] using hfit
  | v :: w :: more, depth, fuel, s, rest => by
    intro _ hjson hfit hfuel hs
    obtain ⟨hv, hmore⟩ : v.IsJson ∧ AreJson (w :: more) := by rwa [AreJson] at hjson
    obtain ⟨hvfit, hmorefit⟩ : v.intsFit = true ∧ itemsFit (w :: more) = true := by
      rwa [itemsFit, Bool.and_eq_true] at hfit
    obtain ⟨fuel, rfl⟩ : ∃ k, fuel = k + 1 := ⟨fuel - 1, by omega⟩
    simp only [jsonItems, joined, List.append_assoc, List.cons_append, List.length_append,
      List.length_cons] at hfuel hs
    have hrest := readItems_jsonItems (w :: more) depth fuel
      (lineBreak (depth + 1) ++ _) rest (by simp) hmore hmorefit
      (by simp only [jsonItems]; omega) (skipJsonBlanks_lineBreak _ _)
    exact readItems_cons (readValue_jsonAt v (depth + 1) fuel _ hv hvfit (by omega)
      (follows_comma _)) hs hrest

theorem readEntries_jsonEntries : ∀ (entries : List (String × Value)) (depth fuel : ℕ)
    (s rest : List Char) (found : Table Value), entries ≠ [] → EntriesAreJson entries →
      (Table.names (found ++ entries)).Nodup → entriesFit entries = true →
      2 * (joined (depth + 1) (jsonEntries .tree (depth + 1) entries)).length + 1 ≤ fuel →
      skipJsonBlanks s = skipJsonBlanks (joined (depth + 1) (jsonEntries .tree (depth + 1) entries) ++
        (lineBreak depth ++ '\x7d' :: rest)) →
      readEntries (fuel + 1) found s = .ok (found ++ entries, rest)
  | [], _, _, _, _, _ => fun h => absurd rfl h
  | [(name, v)], depth, fuel, s, rest, found => by
    intro _ hjson hnames hfit hfuel hs
    obtain ⟨hv, -⟩ : v.IsJson ∧ EntriesAreJson [] := by rwa [EntriesAreJson] at hjson
    obtain ⟨fuel, rfl⟩ : ∃ k, fuel = k + 1 := ⟨fuel - 1, by omega⟩
    have hset : Table.set name v found = found ++ [(name, v)] :=
      Table.set_of_not_mem (not_mem_of_nodup hnames) v
    rw [jsonEntries_cons, jsonEntries] at hfuel hs
    simp only [joined, String.toList_append, List.append_assoc, List.length_append] at hfuel hs
    have hvalue := readValue_jsonAt v (depth + 1) fuel (lineBreak depth ++ '\x7d' :: rest) hv
      (by simpa [entriesFit] using hfit) (by omega) (follows_lineBreak _ _)
    have hclose : skipJsonBlanks (lineBreak depth ++ '\x7d' :: rest) = '\x7d' :: rest := by
      rw [skipJsonBlanks_lineBreak]
      exact skipJsonBlanks_of_head (by simp; rfl)
    rw [readEntries_name hvalue hs, hclose, hset]
    rfl
  | (name, v) :: (key, w) :: more, depth, fuel, s, rest, found => by
    intro _ hjson hnames hfit hfuel hs
    obtain ⟨hv, hmore⟩ : v.IsJson ∧ EntriesAreJson ((key, w) :: more) := by
      rwa [EntriesAreJson] at hjson
    obtain ⟨hvfit, hmorefit⟩ : v.intsFit = true ∧ entriesFit ((key, w) :: more) = true := by
      rwa [entriesFit, Bool.and_eq_true] at hfit
    obtain ⟨fuel, rfl⟩ : ∃ k, fuel = k + 1 := ⟨fuel - 1, by omega⟩
    have hset : Table.set name v found = found ++ [(name, v)] :=
      Table.set_of_not_mem (not_mem_of_nodup hnames) v
    simp only [jsonEntries_cons, joined, String.toList_append, List.append_assoc,
      List.cons_append, List.length_append, List.length_cons] at hfuel hs
    have hvalue (cs : List Char) := readValue_jsonAt v (depth + 1) fuel (',' :: cs) hv hvfit
      (by omega) (follows_comma cs)
    have hcomma (cs : List Char) : skipJsonBlanks (',' :: cs) = ',' :: cs :=
      skipJsonBlanks_of_head (by simp; rfl)
    have hrest := readEntries_jsonEntries ((key, w) :: more) depth fuel
      (lineBreak (depth + 1) ++ _) rest (found ++ [(name, v)]) (by simp) hmore
      (by simpa using hnames) hmorefit (by rw [jsonEntries_cons]; omega)
      (skipJsonBlanks_lineBreak _ _)
    rw [jsonEntries_cons, List.append_assoc] at hrest
    rw [readEntries_name (hvalue _) hs, hcomma, hset]
    exact hrest

end

/-- The file of a value is read as the value. -/
theorem ofJson_json {v : Value} (h : v.IsJson) (hfit : v.intsFit = true) :
    ofJson (v.json .tree ++ "\n") = .ok v := by
  have hread := readValue_jsonAt v 0 (2 * ((jsonAt .tree 0 v).toList ++ ['\n']).length + 1) ['\n'] h
    hfit (by rw [List.length_append]; omega) (by rintro c ⟨⟩; exact .inr rfl)
  have hhead := head_of_readValue hread
  have htext : (v.json .tree ++ "\n").toList = (jsonAt .tree 0 v).toList ++ ['\n'] := by
    simp [json]
  have hmark : ((jsonAt .tree 0 v).toList ++ ['\n']).head? ≠ some '\uFEFF' := fun heq =>
    (hhead _ heq).2.2 rfl
  have hstart : skipJsonBlanks ((jsonAt .tree 0 v).toList ++ ['\n']) =
      (jsonAt .tree 0 v).toList ++ ['\n'] :=
    skipJsonBlanks_of_head fun c hc => (hhead c hc).1
  have hall : readAll ((jsonAt .tree 0 v).toList ++ ['\n']) = .ok v := by
    unfold readAll
    simp only [beq_eq_false_iff_ne.2 hmark, Bool.false_eq_true, if_false, hstart, hread]
    rfl
  unfold ofJson
  rw [htext]
  simp only [hall]

end Value

end StoryRegistry
