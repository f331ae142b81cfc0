import StoryRegistry.Docs.Snippet
import StoryRegistry.Proofs.Value.Json.Numbers
import StoryRegistry.Script.Cursor

/-!
# Elements that are read back

An element says for each prop its name and, in quotes or in braces, its value. Whoever reads the element
takes a text to end at the next quote. So the props are found again exactly if no text among them
holds a quote (`element_read_back`). Up to the place where a quote stands before a blank two
elements can still be told apart; behind it what is left of the text can pass for further props.
-/

set_option autoImplicit false

namespace StoryRegistry.Docs

open Text

/-! ## Props of an element -/

/-- A character that can be part of the name of a prop. -/
def isPropChar (c : Char) : Bool := Script.isNameChar c || c == '-' || c == ':'

/-- The text can name a prop. -/
def IsPropName (name : String) : Prop := name ≠ "" ∧ ∀ c ∈ name.toList, isPropChar c = true

instance (name : String) : Decidable (IsPropName name) :=
  decidable_of_iff (name ≠ "" ∧ name.toList.all isPropChar = true)
    (and_congr_right fun _ => List.all_eq_true)

/-- A text, a truth value or an integer. -/
inductive IsPlain : Value → Prop
  | string (s : String) : IsPlain (.string s)
  | bool (b : Bool) : IsPlain (.bool b)
  | int (n : Int) : IsPlain (.int n)

/-- Props with names that an element can have and plain values. -/
def ArePlainProps (args : Table Value) : Prop := ∀ e ∈ args, IsPropName e.1 ∧ IsPlain e.2

/-- The value is no text that holds such a run of characters. -/
def Without (run : List Char) (v : Value) : Prop := ∀ s, v = .string s → ¬run <:+: s.toList

theorem without_string_iff {run : List Char} {s : String} :
    Without run (.string s) ↔ ¬run <:+: s.toList :=
  ⟨fun h => h s rfl, fun h _ heq => Value.string.inj heq ▸ h⟩

/-! ## Reading -/

/-- The text up to the character that ends it, and what stands behind that one. -/
def readUpTo? (finish : Char) (s : List Char) : Option (String × List Char) :=
  match s.dropWhile (· != finish) with
  | [] => none
  | _ :: rest => some (String.ofList (s.takeWhile (· != finish)), rest)

/-- The integer with the given digits. -/
def readDigits? (negative : Bool) (digits : List Char) : Option Value :=
  if digits.all Char.isDigit then
    let n : Int := Nat.ofDigitChars 10 digits 0
    some (.int (if negative then -n else n))
  else none

/-- The value that a text in braces stands for. -/
def readBraced? (text : String) : Option Value :=
  if text = "false" then some (.bool false)
  else
    match text.toList with
    | '-' :: digits => readDigits? true digits
    | digits => readDigits? false digits

/-- The value behind the name of a prop; there is none behind that of a true one. -/
def readValue? : List Char → Option (Value × List Char)
  | '=' :: '"' :: rest => do
    let (s, rest) ← readUpTo? '"' rest
    return (.string s, rest)
  | '=' :: '\x7b' :: rest => do
    let (text, rest) ← readUpTo? '\x7d' rest
    return (← readBraced? text, rest)
  | rest => some (.bool true, rest)

/-- The props up to the end of the element. -/
def readProps? : Nat → List Char → Option (Table Value)
  | fuel + 1, ' ' :: rest =>
    if rest = "/>".toList then some []
    else do
      let (v, behind) ← readValue? (rest.dropWhile isPropChar)
      let more ← readProps? fuel behind
      return (String.ofList (rest.takeWhile isPropChar), v) :: more
  | _, _ => none

/-- The props of an element of a component. -/
def readElement? (component : String) (s : String) : Option (Table Value) := do
  let rest ← dropStart? ("<" ++ component).toList s.toList
  readProps? s.length rest

/-! ## The text of an element -/

/-- The props as they stand in the element, each behind a blank, and the end of the element. -/
def written (args : Table Value) : List Char :=
  args.flatMap (fun (name, v) => ' ' :: (prop name v).toList) ++ " />".toList

theorem written_cons (name : String) (v : Value) (args : Table Value) :
    written ((name, v) :: args) = ' ' :: (prop name v).toList ++ written args := by
  simp [written]

theorem exists_written (args : Table Value) : ∃ rest, written args = ' ' :: rest := by
  cases args with
  | nil => exact ⟨_, rfl⟩
  | cons e args => exact ⟨_, written_cons e.1 e.2 args⟩

theorem length_lt_written (args : Table Value) : args.length < (written args).length := by
  induction args with
  | nil => decide
  | cons e args ih =>
    rw [written_cons, List.length_append, List.length_cons, List.length_cons]
    omega

/-- A prop is its name with what is written of its value. -/
theorem prop_eq_append (name : String) (v : Value) : prop name v = name ++ prop "" v := by
  rcases v with _ | b | _ | _ | s | _ | _ | _
  case bool => cases b <;> simp [prop, braced, String.append_assoc]
  all_goals simp [prop, braced, String.append_assoc]

/-- The text of an element is the tag's beginning and what is written of its props. -/
theorem toList_element (component : String) {args : Table Value} (h : ∀ e ∈ args, e.1 ≠ "") :
    (element component args).toList = ("<" ++ component).toList ++ written args := by
  have hjoined (e : String × Value) (more : Table Value) :
      ' ' :: (" ".intercalate ((e :: more).map fun (name, v) => prop name v)).toList =
        (e :: more).flatMap fun (name, v) => ' ' :: (prop name v).toList := by
    induction more generalizing e with
    | nil => simp
    | cons next more ih =>
      rw [List.flatMap_cons, ← ih next, List.map_cons, List.map_cons, String.intercalate_cons_cons]
      simp
  cases args with
  | nil => simp [element, written]
  | cons e more =>
    have hshown := hjoined e more
    have hfilled : (" ".intercalate ((e :: more).map fun (name, v) => prop name v)).isEmpty =
        false := by
      rw [Bool.eq_false_iff]
      intro hempty
      rw [String.isEmpty_iff.1 hempty] at hshown
      have hnothing : prop e.1 e.2 = "" := by
        rw [List.flatMap_cons, List.cons_append, List.cons.injEq] at hshown
        exact String.toList_eq_nil_iff.1 (List.append_eq_nil_iff.1 hshown.2.symm).1
      rw [prop_eq_append, String.append_eq_empty_iff] at hnothing
      exact h e List.mem_cons_self hnothing.1
    rw [element, hfilled, written, ← hshown]
    simp

/-! ## One prop -/

variable {v w : Value} {rest rest' : List Char}

theorem readUpTo?_append {finish : Char} {s : List Char} (h : finish ∉ s) :
    readUpTo? finish (s ++ finish :: rest) = some (String.ofList s, rest) := by
  have hall : ∀ c ∈ s, (c != finish) = true := fun c hc => by
    simpa using fun heq : c = finish => h (heq ▸ hc)
  simp [readUpTo?, List.dropWhile_append_of_pos hall, List.takeWhile_append_of_pos hall]

theorem not_mem_of_readUpTo? {finish : Char} {s : List Char} {found : String × List Char}
    (h : readUpTo? finish s = some found) : finish ∉ found.1.toList := by
  unfold readUpTo? at h
  split at h
  · cases h
  · obtain rfl := Option.some.inj h
    intro hmem
    rw [String.toList_ofList] at hmem
    simpa using List.all_eq_true.1 List.all_takeWhile _ hmem

theorem isDigit_or_eq_of_mem {n : Int} {c : Char} (h : c ∈ (toString n).toList) :
    c.isDigit = true ∨ c = '-' := by
  rw [Value.toList_toString] at h
  rcases List.mem_append.1 h with hsign | hdigit
  · split at hsign
    · exact .inr (List.mem_singleton.1 hsign)
    · cases hsign
  · exact .inl (Value.areDigits_toDigits _ _ hdigit)

theorem readBraced?_toString (n : Int) : readBraced? (toString n) = some (.int n) := by
  have hword : toString n ≠ "false" := by
    intro heq
    have hletter : 'f' ∈ (toString n).toList := by rw [heq]; decide
    rcases isDigit_or_eq_of_mem hletter with h | h <;> cases h
  have hdigits := Value.areDigits_toDigits n.natAbs
  have hread : readDigits? (decide (n < 0)) (Nat.toDigits 10 n.natAbs) = some (.int n) := by
    rw [readDigits?, if_pos (List.all_eq_true.2 hdigits), Nat.ofDigitChars_ten_toDigits]
    exact congrArg (some ∘ Value.int) (Value.ite_neg_natAbs n)
  rw [readBraced?, if_neg hword, Value.toList_toString]
  cases hsign : decide (n < 0) with
  | true =>
    rw [hsign] at hread
    exact hread
  | false =>
    rw [hsign] at hread
    simp only [Bool.false_eq_true, if_false, List.nil_append]
    split
    · rename_i digits heq
      exact absurd (hdigits '-' (heq ▸ List.mem_cons_self)) (by decide)
    · exact hread

theorem toList_prop_string (s : String) (rest : List Char) :
    (prop "" (.string s)).toList ++ ' ' :: rest =
      '=' :: '"' :: (s.toList ++ '"' :: ' ' :: rest) := by
  simp [prop]

/-- What is written of a plain value is read as the value, if no quote in it ends it early. -/
theorem readValue?_prop (h : IsPlain v) (hquote : Without ['"'] v) :
    readValue? ((prop "" v).toList ++ ' ' :: rest) = some (v, ' ' :: rest) := by
  cases h with
  | string s =>
    have hclosed : '"' ∉ s.toList := fun hmem => hquote s rfl ((List.singleton_infix_iff _ _).2 hmem)
    rw [toList_prop_string, readValue?, readUpTo?_append hclosed]
    simp
  | bool b =>
    cases b with
    | true => rfl
    | false => rfl
  | int n =>
    have htext : (prop "" (.int n)).toList ++ ' ' :: rest =
        '=' :: '\x7b' :: ((toString n).toList ++ '\x7d' :: ' ' :: rest) := by
      simp [prop, braced, Value.spelled, Value.json, Value.jsonAt]
    have hclosed : '\x7d' ∉ (toString n).toList := fun hmem => by
      rcases isDigit_or_eq_of_mem hmem with h | h <;> cases h
    rw [htext, readValue?, readUpTo?_append hclosed]
    dsimp only [bind, Option.bind]
    rw [String.ofList_toList, readBraced?_toString]
    rfl

/-- A text with a quote in it is read as another value. -/
theorem ne_of_readValue?_prop {s : String} {found : Value × List Char} (h : '"' ∈ s.toList)
    (hread : readValue? ((prop "" (.string s)).toList ++ ' ' :: rest) = some found) :
    found.1 ≠ .string s := by
  rw [toList_prop_string, readValue?] at hread
  obtain ⟨⟨t, behind⟩, ht, heq⟩ := Option.bind_eq_some_iff.1 hread
  obtain rfl := Option.some.inj heq
  intro hsame
  exact not_mem_of_readUpTo? ht (Value.string.inj hsame ▸ h)

theorem isPropChar_head_prop (h : IsPlain v) (rest : List Char) :
    ∀ c ∈ ((prop "" v).toList ++ ' ' :: rest).head?, isPropChar c = false := by
  have hblank : isPropChar ' ' = false := by decide
  have hequals : isPropChar '=' = false := by decide
  cases h with
  | bool b => cases b <;> simpa [prop, braced]
  | string s => simpa [prop]
  | int n => simpa [prop, braced]

/-! ## All props -/

variable {args args' : Table Value}

theorem written_cons_eq (name : String) (v : Value) (args : Table Value) :
    written ((name, v) :: args) = ' ' :: (name.toList ++ ((prop "" v).toList ++ written args)) := by
  rw [written_cons, prop_eq_append]
  simp

/-- The element does not end where a name begins. -/
theorem append_ne_end {name : String} (h : IsPropName name) : name.toList ++ rest ≠ "/>".toList := by
  obtain ⟨hne, hchars⟩ := h
  obtain ⟨c, cs, hcs⟩ := List.exists_cons_of_ne_nil (mt String.toList_eq_nil_iff.1 hne)
  intro heq
  rw [hcs] at heq
  obtain rfl : c = '/' := (List.cons.inj heq).1
  exact absurd (hchars '/' (hcs ▸ List.mem_cons_self)) (by decide)

/-- The name of a prop ends in front of what is written of its value. -/
theorem span_name {name : String} (hname : IsPropName name) (hv : IsPlain v) (args : Table Value) :
    (name.toList ++ ((prop "" v).toList ++ written args)).takeWhile isPropChar = name.toList ∧
      (name.toList ++ ((prop "" v).toList ++ written args)).dropWhile isPropChar =
        (prop "" v).toList ++ written args := by
  obtain ⟨rest, hrest⟩ := exists_written args
  have hhead := isPropChar_head_prop hv rest
  rw [List.takeWhile_append_of_pos hname.2, List.dropWhile_append_of_pos hname.2, hrest]
  generalize (prop "" v).toList ++ ' ' :: rest = behind at hhead
  cases behind with
  | nil => simp
  | cons c cs => simp [hhead c rfl]

theorem readProps?_cons {name : String} (hname : IsPropName name) (hv : IsPlain v) (fuel : Nat)
    (args : Table Value) : readProps? (fuel + 1) (written ((name, v) :: args)) = do
      let (w, behind) ← readValue? ((prop "" v).toList ++ written args)
      let more ← readProps? fuel behind
      return (name, w) :: more := by
  obtain ⟨htake, hdrop⟩ := span_name hname hv args
  rw [written_cons_eq, readProps?, if_neg (append_ne_end hname), hdrop, htake, String.ofList_toList]

/-- The props are read as they are exactly if no text among them holds a quote. The induction is on the
props; the first of them that holds one is read as another. -/
theorem readProps?_written (h : ArePlainProps args) {fuel : Nat} (hfuel : args.length < fuel) :
    readProps? fuel (written args) = some args ↔ ∀ e ∈ args, Without ['"'] e.2 := by
  induction args generalizing fuel with
  | nil =>
    cases fuel with
    | zero => cases hfuel
    | succ fuel => exact iff_of_true rfl (List.forall_mem_nil _)
  | cons e args ih =>
    obtain ⟨name, v⟩ := e
    obtain ⟨⟨hname, hv⟩, hargs⟩ := List.forall_mem_cons.1 h
    cases fuel with
    | zero => cases hfuel
    | succ fuel =>
      have hrest := ih hargs (Nat.lt_of_succ_lt_succ hfuel)
      obtain ⟨rest, hwritten⟩ := exists_written args
      rw [readProps?_cons hname hv, List.forall_mem_cons, hwritten]
      by_cases hquote : Without ['"'] v
      · rw [readValue?_prop hv hquote, ← hwritten, ← hrest, and_iff_right hquote]
        dsimp only [bind, Option.bind]
        cases readProps? fuel (written args) <;> simp
      · have hother : ∃ s, v = .string s ∧ '"' ∈ s.toList := by
          simpa [Without, List.singleton_infix_iff] using hquote
        obtain ⟨s, rfl, hmem⟩ := hother
        refine iff_of_false (fun hread => ?_) (fun hall => hquote hall.1)
        obtain ⟨found, hfound, hread⟩ := Option.bind_eq_some_iff.1 hread
        obtain ⟨more, -, heq⟩ := Option.bind_eq_some_iff.1 hread
        have hsame : found.1 = .string s := by
          simpa using (List.cons.inj (Option.some.inj heq)).1
        exact ne_of_readValue?_prop hmem hfound hsame

/-- The element of plain props is read as the props exactly if no text among them holds a quote. -/
theorem readElement?_element (h : ArePlainProps args) (component : String) :
    readElement? component (element component args) = some args ↔
      ∀ e ∈ args, Without ['"'] e.2 := by
  have htext := toList_element component fun e he => (h e he).1.1
  have hfuel : args.length < (element component args).length := by
    have hlength := length_lt_written args
    rw [← String.length_toList, htext, List.length_append]
    omega
  rw [readElement?, htext, dropStart?_eq_some_iff.2 rfl]
  exact readProps?_written h hfuel

/-! ## Elements that are the same -/

/-- Where a text ends that holds no quote before a blank, the same text in front of a quote before a
blank ends as well. -/
theorem eq_nil_of_append {t : List Char} (ht : ¬['"', ' '] <:+: t)
    (h : '"' :: ' ' :: rest = t ++ '"' :: ' ' :: rest') : t = [] := by
  match t with
  | [] => rfl
  | ['"'] => simp at h
  | a :: b :: t =>
    simp only [List.cons_append, List.cons.injEq] at h
    obtain ⟨rfl, rfl, -⟩ := h
    exact absurd ⟨[], t, rfl⟩ ht

theorem text_inj {s t : List Char} (hs : ¬['"', ' '] <:+: s) (ht : ¬['"', ' '] <:+: t)
    (h : s ++ '"' :: ' ' :: rest = t ++ '"' :: ' ' :: rest') : s = t ∧ rest = rest' := by
  induction s generalizing t with
  | nil =>
    obtain rfl := eq_nil_of_append ht h
    simpa using h
  | cons a s ih =>
    cases t with
    | nil => exact absurd (eq_nil_of_append hs h.symm) (List.cons_ne_nil a s)
    | cons b t =>
      simp only [List.cons_append, List.cons.injEq] at h
      obtain ⟨rfl, h⟩ := h
      have hs' : ¬['"', ' '] <:+: s := fun hin => hs (hin.trans (List.suffix_cons a s).isInfix)
      have ht' : ¬['"', ' '] <:+: t := fun hin => ht (hin.trans (List.suffix_cons a t).isInfix)
      obtain ⟨rfl, hrest⟩ := ih hs' ht' h
      exact ⟨rfl, hrest⟩

/-- What is written of a plain value determines it, if no quote in it stands before a blank. -/
theorem prop_inj (hv : IsPlain v) (hw : IsPlain w) (hopen : Without ['"', ' '] v)
    (hopen' : Without ['"', ' '] w)
    (h : (prop "" v).toList ++ ' ' :: rest = (prop "" w).toList ++ ' ' :: rest') :
    v = w ∧ rest = rest' := by
  have hread (hquote : Without ['"'] v) (hquote' : Without ['"'] w) : v = w ∧ rest = rest' := by
    have hsame := (readValue?_prop hv hquote).symm.trans (h ▸ readValue?_prop hw hquote')
    simpa using hsame
  cases hv with
  | string s =>
    cases hw with
    | string t =>
      rw [toList_prop_string, toList_prop_string] at h
      have htexts := List.tail_eq_of_cons_eq (List.tail_eq_of_cons_eq h)
      obtain ⟨hsame, hrest⟩ := text_inj (hopen s rfl) (hopen' t rfl) htexts
      exact ⟨congrArg Value.string (String.toList_inj.1 hsame), hrest⟩
    | bool b => cases b <;> simp [prop, braced] at h
    | int n => simp [prop, braced] at h
  | bool b =>
    cases hw with
    | string t => cases b <;> simp [prop, braced] at h
    | bool | int => exact hread nofun nofun
  | int n =>
    cases hw with
    | string t => simp [prop, braced] at h
    | bool | int => exact hread nofun nofun

/-- What is written of plain props determines them, if no quote in a text stands before a blank. -/
theorem written_inj (h : ArePlainProps args) (h' : ArePlainProps args')
    (hopen : ∀ e ∈ args, Without ['"', ' '] e.2) (hopen' : ∀ e ∈ args', Without ['"', ' '] e.2)
    (heq : written args = written args') : args = args' := by
  induction args generalizing args' with
  | nil =>
    cases args' with
    | nil => rfl
    | cons e args' =>
      rw [written_cons_eq] at heq
      exact absurd (List.cons.inj heq).2.symm (append_ne_end (h' e List.mem_cons_self).1)
  | cons e args ih =>
    obtain ⟨name, v⟩ := e
    obtain ⟨⟨hname, hv⟩, hargs⟩ := List.forall_mem_cons.1 h
    obtain ⟨hfirst, hlater⟩ := List.forall_mem_cons.1 hopen
    cases args' with
    | nil =>
      rw [written_cons_eq] at heq
      exact absurd (List.cons.inj heq).2 (append_ne_end hname)
    | cons e' args' =>
      obtain ⟨name', w⟩ := e'
      obtain ⟨⟨hname', hw⟩, hargs'⟩ := List.forall_mem_cons.1 h'
      obtain ⟨hfirst', hlater'⟩ := List.forall_mem_cons.1 hopen'
      obtain ⟨htake, hdrop⟩ := span_name hname hv args
      obtain ⟨htake', hdrop'⟩ := span_name hname' hw args'
      rw [written_cons_eq, written_cons_eq] at heq
      have hbehind := (List.cons.inj heq).2
      rw [hbehind, htake'] at htake
      rw [hbehind, hdrop'] at hdrop
      obtain ⟨rest, hrest⟩ := exists_written args
      obtain ⟨rest', hrest'⟩ := exists_written args'
      rw [hrest, hrest'] at hdrop
      obtain ⟨rfl, rfl⟩ := prop_inj hv hw hfirst hfirst' hdrop.symm
      have hnames : name' = name := String.toList_inj.1 htake
      rw [hnames, ih hargs hargs' hlater hlater' (hrest.trans hrest'.symm)]

/-- An element of plain props has the same text as another one exactly if it has the same props,
where no quote in a text stands before a blank. -/
theorem element_eq_iff (h : ArePlainProps args) (h' : ArePlainProps args')
    (hopen : ∀ e ∈ args, Without ['"', ' '] e.2) (hopen' : ∀ e ∈ args', Without ['"', ' '] e.2)
    (component : String) : element component args = element component args' ↔ args = args' := by
  refine ⟨fun heq => ?_, fun heq => heq ▸ rfl⟩
  have htexts := congrArg String.toList heq
  rw [toList_element component fun e he => (h e he).1.1,
    toList_element component fun e he => (h' e he).1.1] at htexts
  exact written_inj h h' hopen hopen' (List.append_cancel_left htexts)

/-- A text in which a quote, a blank, a name and the beginning of another text follow each other
passes for two props. -/
theorem element_eq_of_quote {front back : Table Value} {name other : String}
    (hfront : ∀ e ∈ front, e.1 ≠ "") (hback : ∀ e ∈ back, e.1 ≠ "") (hname : name ≠ "")
    (hother : other ≠ "") (component before after : String) :
    element component
        (front ++ (name, .string (before ++ "\" " ++ other ++ "=\"" ++ after)) :: back) =
      element component
        (front ++ (name, .string before) :: (other, .string after) :: back) := by
  have hone (t : String) : ∀ e ∈ front ++ (name, Value.string t) :: back, e.1 ≠ "" :=
    List.forall_mem_append.2 ⟨hfront, List.forall_mem_cons.2 ⟨hname, hback⟩⟩
  have htwo : ∀ e ∈ front ++ (name, Value.string before) :: (other, .string after) :: back,
      e.1 ≠ "" :=
    List.forall_mem_append.2
      ⟨hfront, List.forall_mem_cons.2 ⟨hname, List.forall_mem_cons.2 ⟨hother, hback⟩⟩⟩
  rw [← String.toList_inj, toList_element component (hone _), toList_element component htwo]
  simp [written, prop]

/-- The element of plain props is read as the props exactly if no text among them holds a quote. Up to
a quote before a blank, elements with the same text have the same props. Behind it they need not: what
looks like the end of a text and the beginning of another one passes for them. -/
theorem element_read_back (hargs : ArePlainProps args) (hargs' : ArePlainProps args')
    (component : String) :
    (readElement? component (element component args) = some args ↔
        ∀ e ∈ args, Without ['"'] e.2) ∧
      ((∀ e ∈ args, Without ['"', ' '] e.2) → (∀ e ∈ args', Without ['"', ' '] e.2) →
        (element component args = element component args' ↔ args = args')) ∧
      ∀ front back name other before after, IsPropName other →
        args = front ++ (name, .string (before ++ "\" " ++ other ++ "=\"" ++ after)) :: back →
        element component args =
          element component
            (front ++ (name, .string before) :: (other, .string after) :: back) := by
  refine ⟨readElement?_element hargs component, fun hopen hopen' =>
    element_eq_iff hargs hargs' hopen hopen' component, ?_⟩
  rintro front back name other before after ⟨hother, -⟩ rfl
  obtain ⟨hfront, hback⟩ := List.forall_mem_append.1 hargs
  obtain ⟨⟨⟨hname, -⟩, -⟩, hback⟩ := List.forall_mem_cons.1 hback
  exact element_eq_of_quote (fun e he => (hfront e he).1.1) (fun e he => (hback e he).1.1) hname
    hother component before after

/-- A label in which a text ends and another one begins. -/
def quotedLabel : Table Value :=
  [("label", .string "Save\" size=\"lg"), ("count", .int 3), ("disabled", .bool true)]

/-- The props that such a label passes for. -/
def separateProps : Table Value :=
  [("label", .string "Save"), ("size", .string "lg"), ("count", .int 3), ("disabled", .bool true)]

/-- The label is rendered like the props it passes for, which are read back in its place. -/
theorem element_of_quotedLabel :
    element "Button" quotedLabel = element "Button" separateProps ∧
      readElement? "Button" (element "Button" separateProps) = some separateProps ∧
      readElement? "Button" (element "Button" quotedLabel) ≠ some quotedLabel := by
  have hquoted : ArePlainProps quotedLabel := by
    simp only [ArePlainProps, quotedLabel, List.forall_mem_cons]
    exact ⟨⟨by decide, .string _⟩, ⟨by decide, .int 3⟩, ⟨by decide, .bool true⟩, nofun⟩
  have hseparate : ArePlainProps separateProps := by
    simp only [ArePlainProps, separateProps, List.forall_mem_cons]
    exact ⟨⟨by decide, .string _⟩, ⟨by decide, .string _⟩, ⟨by decide, .int 3⟩,
      ⟨by decide, .bool true⟩, nofun⟩
  obtain ⟨hread, -, hpasses⟩ := element_read_back hquoted hseparate "Button"
  obtain ⟨hback, -, -⟩ := element_read_back hseparate hquoted "Button"
  refine ⟨hpasses [] _ "label" "size" "Save" "lg" (by decide) rfl, hback.2 ?_, fun h => ?_⟩
  · simp only [separateProps, List.forall_mem_cons]
    exact ⟨without_string_iff.2 (by decide), without_string_iff.2 (by decide), nofun, nofun, nofun⟩
  · exact hread.1 h _ List.mem_cons_self _ rfl (by decide)

end StoryRegistry.Docs
