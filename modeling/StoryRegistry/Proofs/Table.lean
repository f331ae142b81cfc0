import Mathlib.Data.List.Induction
import Mathlib.Data.List.Nodup
import StoryRegistry.Table

/-!
# Names in a table

The names of a table say which entries can be found, and setting an entry adds at most its own name.
A table made by setting entries one after another therefore holds each name once, and a table that
holds each name once is made again from its own entries.
-/

set_option autoImplicit false

namespace StoryRegistry.Table

variable {κ α β : Type} [DecidableEq κ]

/-! ## Finding entries -/

/-- What is found in a table is one of its entries. -/
theorem mem_of_get? {name : κ} {v : α} {t : List (κ × α)} (h : get? name t = some v) :
    (name, v) ∈ t := by
  induction t with
  | nil => simp [get?] at h
  | cons head rest ih =>
    obtain ⟨key, entry⟩ := head
    unfold get? at h
    split at h
    · rename_i hkey
      cases h
      simp [hkey]
    · exact List.mem_cons_of_mem _ (ih h)

/-- Nothing is found exactly under the names that the table does not hold. -/
theorem get?_eq_none_iff {name : κ} {t : List (κ × α)} : get? name t = none ↔ name ∉ names t := by
  induction t with
  | nil => simp [get?, names]
  | cons head rest ih =>
    obtain ⟨key, entry⟩ := head
    unfold get?
    by_cases hkey : key = name
    · simp [hkey, names]
    · have hne : name ≠ key := fun h => hkey h.symm
      rw [if_neg hkey, ih]
      simp [names, hne]

/-- A name of the table has an entry. -/
theorem exists_get? {name : κ} {t : List (κ × α)} (h : name ∈ names t) :
    ∃ v, get? name t = some v := by
  cases hget : get? name t with
  | none => exact absurd h (get?_eq_none_iff.1 hget)
  | some v => exact ⟨v, rfl⟩

/-- An entry of a table that holds each name once is found. -/
theorem get?_of_mem {name : κ} {v : α} {t : List (κ × α)} (hdistinct : (names t).Nodup)
    (h : (name, v) ∈ t) : get? name t = some v := by
  induction t with
  | nil => cases h
  | cons head rest ih =>
    obtain ⟨key, entry⟩ := head
    obtain ⟨hnew, hrest⟩ := List.nodup_cons.1 hdistinct
    rcases List.mem_cons.1 h with heq | hmem
    · cases heq
      exact if_pos rfl
    · have hne : key ≠ name := fun heq => hnew (List.mem_map.2 ⟨_, hmem, heq.symm⟩)
      rw [get?, if_neg hne, ih hrest hmem]

/-- What is found in two tables put together is what is found in the first, or else in the second. -/
theorem get?_append (name : κ) (t more : List (κ × α)) :
    get? name (t ++ more) = (get? name t).or (get? name more) := by
  induction t with
  | nil => rfl
  | cons head rest ih =>
    obtain ⟨key, entry⟩ := head
    by_cases h : key = name
    · simp [get?, h]
    · simp [get?, h, ih]

theorem get?_mapEntries (f : α → β) (name : κ) (t : List (κ × α)) :
    get? name (mapEntries f t) = (get? name t).map f := by
  induction t with
  | nil => rfl
  | cons head rest ih =>
    obtain ⟨key, entry⟩ := head
    by_cases h : key = name
    · simp [mapEntries, get?, h]
    · simpa [mapEntries, get?, h] using ih

/-! ## Setting entries -/

/-- Setting an entry adds its name at the end, if the name is new. -/
theorem names_set (name : κ) (v : α) (t : List (κ × α)) :
    names (set name v t) = if name ∈ names t then names t else names t ++ [name] := by
  induction t with
  | nil => simp [set, names]
  | cons head rest ih =>
    obtain ⟨key, entry⟩ := head
    by_cases hkey : key = name
    · simp [set, names, hkey]
    · have hne : name ≠ key := fun h => hkey h.symm
      have hcons : names (set name v ((key, entry) :: rest)) = key :: names (set name v rest) := by
        simp [set, names, hkey]
      rw [hcons, ih]
      by_cases hmem : name ∈ names rest
      · have hmem' : name ∈ names ((key, entry) :: rest) := List.mem_cons_of_mem _ hmem
        rw [if_pos hmem, if_pos hmem']
        rfl
      · have hmem' : name ∉ names ((key, entry) :: rest) := by
          intro h
          rcases List.mem_cons.1 h with h | h
          · exact hne h
          · exact hmem h
        rw [if_neg hmem, if_neg hmem']
        rfl

/-- Setting an entry keeps the names distinct. -/
theorem nodup_names_set {t : List (κ × α)} (h : (names t).Nodup) (name : κ) (v : α) :
    (names (set name v t)).Nodup := by
  rw [names_set]
  split
  · exact h
  · rename_i hnew
    exact List.nodup_append.2 ⟨h, List.nodup_singleton name, fun a ha b hb => by
      rw [List.mem_singleton.1 hb]
      exact fun heq => hnew (heq ▸ ha)⟩

/-- Setting an entry under a new name appends it. -/
theorem set_of_not_mem {name : κ} {t : List (κ × α)} (h : name ∉ names t) (v : α) :
    set name v t = t ++ [(name, v)] := by
  induction t with
  | nil => rfl
  | cons head rest ih =>
    obtain ⟨key, entry⟩ := head
    have hkey : key ≠ name := fun heq => h (by simp [names, heq])
    have hrest : name ∉ names rest := fun hmem => h (List.mem_cons_of_mem _ hmem)
    simp [set, hkey, ih hrest]

/-- Setting an entry that is there changes nothing behind it. -/
theorem set_append_of_mem {name : κ} {t : List (κ × α)} (h : name ∈ names t) (v : α)
    (more : List (κ × α)) : set name v (t ++ more) = set name v t ++ more := by
  induction t with
  | nil => cases h
  | cons head rest ih =>
    obtain ⟨key, old⟩ := head
    rw [List.cons_append, set, set]
    by_cases hkey : key = name
    · rw [if_pos hkey, if_pos hkey, List.cons_append]
    · have hrest : name ∈ names rest := (List.mem_cons.1 h).resolve_left (Ne.symm hkey)
      rw [if_neg hkey, if_neg hkey, ih hrest, List.cons_append]

/-- Changing every entry commutes with setting one. -/
theorem set_mapEntries (f : α → β) (name : κ) (v : α) (t : List (κ × α)) :
    set name (f v) (mapEntries f t) = mapEntries f (set name v t) := by
  induction t with
  | nil => rfl
  | cons head rest ih =>
    obtain ⟨key, entry⟩ := head
    by_cases hkey : key = name
    · simp [set, mapEntries, hkey]
    · have ih' : set name (f v) (mapEntries f rest) = mapEntries f (set name v rest) := ih
      simp only [mapEntries, List.map_cons, set, if_neg hkey] at ih' ⊢
      rw [ih']

/-! ## Setting new entries -/

/-- What is found after an entry was set that was not there yet. -/
theorem get?_setNew (other name : κ) (v : α) (t : List (κ × α)) :
    get? other (setNew name v t) = (get? other t).or (get? other [(name, v)]) := by
  unfold setNew has
  cases hget : get? name t with
  | none => simp [get?_append]
  | some old =>
    by_cases heq : name = other
    · rw [← heq, hget]
      simp [hget]
    · simp [get?, heq]

/-- Each name once, in the order in which the names first come: one more counts if it is new. -/
theorem eraseDups_concat (names : List κ) (name : κ) :
    (names ++ [name]).eraseDups =
      if name ∈ names then names.eraseDups else names.eraseDups ++ [name] := by
  rw [List.eraseDups_append]
  by_cases h : name ∈ names <;> simp [List.removeAll, List.eraseDups_cons, h]

theorem nodup_eraseDups (names : List κ) : names.eraseDups.Nodup := by
  induction names using List.reverseRecOn with
  | nil => exact List.nodup_nil
  | append_singleton front name ih =>
    rw [eraseDups_concat]
    split
    · exact ih
    · rename_i hnew
      exact List.nodup_append.2 ⟨ih, List.nodup_singleton name, fun a ha b hb heq =>
        hnew (by rw [← List.mem_singleton.1 hb, ← heq]; exact List.mem_eraseDups.1 ha)⟩

/-- A table that holds each of some names once, in the order in which they first come, holds one name
more after an entry was set that was not there yet. -/
theorem names_setNew {t : List (κ × α)} {mentioned : List κ} (h : names t = mentioned.eraseDups)
    (name : κ) (v : α) : names (setNew name v t) = (mentioned ++ [name]).eraseDups := by
  have hthere : has name t = true ↔ name ∈ mentioned := by
    rw [has, Option.isSome_iff_ne_none, ne_eq, get?_eq_none_iff, not_not, h, List.mem_eraseDups]
  rw [eraseDups_concat, setNew]
  by_cases hmem : name ∈ mentioned
  · rw [if_pos (hthere.2 hmem), if_pos hmem, h]
  · rw [if_neg (mt hthere.1 hmem), if_neg hmem, ← h]
    simp [names]

/-! ## Tables made from entries -/

/-- Setting entries one after another, from a table on. -/
theorem nodup_names_merge {t : Table α} (h : (names t).Nodup) (more : Table α) :
    (names (merge t more)).Nodup := by
  induction more generalizing t with
  | nil => exact h
  | cons head rest ih => exact ih (nodup_names_set h head.1 head.2)

/-- A table made from entries holds each name once. -/
theorem nodup_names_ofList (entries : List (String × α)) : (names (ofList entries)).Nodup :=
  nodup_names_merge (by simp [names]) entries

theorem ofList_concat (entries : List (String × α)) (last : String × α) :
    ofList (entries ++ [last]) = set last.1 last.2 (ofList entries) := by
  unfold ofList
  rw [List.foldl_append]
  rfl

/-- The names of a table made from entries stand where they first come among the entries. -/
theorem names_ofList (entries : List (String × α)) :
    names (ofList entries) = (names entries).eraseDups := by
  induction entries using List.reverseRecOn with
  | nil => rfl
  | append_singleton front last ih =>
    have hnames : names (front ++ [last]) = names front ++ [last.1] := List.map_append
    rw [ofList_concat, names_set, ih, hnames, eraseDups_concat]
    simp only [List.mem_eraseDups]

/-- New entries with distinct names are appended by merging. -/
theorem merge_eq_append {t more : Table α} (h : (names (t ++ more)).Nodup) :
    merge t more = t ++ more := by
  induction more generalizing t with
  | nil => simp [merge]
  | cons head rest ih =>
    obtain ⟨name, v⟩ := head
    have hsplit : (names t ++ name :: names rest).Nodup := by simpa [names] using h
    have hnew : name ∉ names t := fun hmem =>
      (List.nodup_append.1 hsplit).2.2 name hmem name List.mem_cons_self rfl
    have hmerge : merge t ((name, v) :: rest) = merge (set name v t) rest := rfl
    rw [hmerge, set_of_not_mem hnew, ih (by simpa using h), List.append_assoc]
    rfl

/-- A table that holds each name once is made again from its own entries. -/
theorem ofList_eq_self {t : Table α} (h : (names t).Nodup) : ofList t = t :=
  merge_eq_append (t := []) h

/-- Changing every entry commutes with making a table. -/
theorem ofList_mapEntries (f : α → β) (entries : List (String × α)) :
    ofList (mapEntries f entries) = mapEntries f (ofList entries) := by
  have general : ∀ t : Table α,
      merge (mapEntries f t) (mapEntries f entries) = mapEntries f (merge t entries) := by
    induction entries with
    | nil => intro t; rfl
    | cons head rest ih =>
      intro t
      have hstep : merge (mapEntries f t) (mapEntries f (head :: rest)) =
          merge (set head.1 (f head.2) (mapEntries f t)) (mapEntries f rest) := rfl
      rw [hstep, set_mapEntries, ih]
      rfl
  exact general []

/-- Setting an entry leaves no entry but the others and itself. -/
theorem mem_of_mem_set {name : κ} {v : α} {t : List (κ × α)} {e : κ × α} (h : e ∈ set name v t) :
    e ∈ t ∨ e = (name, v) := by
  induction t with
  | nil => exact Or.inr (by simpa [set] using h)
  | cons head rest ih =>
    obtain ⟨key, entry⟩ := head
    unfold set at h
    split at h
    · rename_i hkey
      rcases List.mem_cons.1 h with heq | hmem
      · exact Or.inr (hkey ▸ heq)
      · exact Or.inl (List.mem_cons_of_mem _ hmem)
    · rcases List.mem_cons.1 h with heq | hmem
      · exact Or.inl (by simp [heq])
      · rcases ih hmem with hold | hnew
        · exact Or.inl (List.mem_cons_of_mem _ hold)
        · exact Or.inr hnew

/-- Every entry of a merged table comes from one of the two. -/
theorem mem_of_mem_merge {t more : Table α} {e : String × α} (h : e ∈ merge t more) :
    e ∈ t ∨ e ∈ more := by
  induction more generalizing t with
  | nil => exact Or.inl h
  | cons head rest ih =>
    rcases ih h with hset | hrest
    · rcases mem_of_mem_set hset with hold | hnew
      · exact Or.inl hold
      · exact Or.inr (by simp [hnew])
    · exact Or.inr (List.mem_cons_of_mem _ hrest)

/-- Every entry of a table made from entries is one of them. -/
theorem mem_of_mem_ofList {entries : List (String × α)} {e : String × α} (h : e ∈ ofList entries) :
    e ∈ entries :=
  (mem_of_mem_merge (t := []) h).resolve_left (by simp)

end StoryRegistry.Table
