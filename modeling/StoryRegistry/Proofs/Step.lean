import Mathlib.Data.List.Forall2
import Mathlib.Order.Defs.Unbundled
import StoryRegistry.Session.Basic

/-!
# What a step comes to

A step, be it in a session or in a file tree, comes to a result or a failure and leaves a state
behind. A step that is put together from others succeeds only if each of them does, one in the state
that the other left.
-/

set_option autoImplicit false

namespace StoryRegistry

variable {ε σ α β : Type}

/-- Where the result of a computation passes a test, there is a result. -/
theorem exists_ok_of_any {outcome : Except ε α} {passes : α → Bool}
    (h : outcome.toOption.any passes = true) : ∃ a, outcome = .ok a ∧ passes a = true := by
  cases outcome with
  | ok a => exact ⟨a, rfl, h⟩
  | error e => cases h

/-- Where what a computation finds passes a test, it finds something. -/
theorem exists_some_of_any {outcome : Except ε (Option α)} {passes : α → Bool}
    (h : outcome.toOption.any (·.any passes) = true) :
    ∃ a, outcome = .ok (some a) ∧ passes a = true := by
  obtain ⟨found, hfound, hpasses⟩ := exists_ok_of_any h
  obtain ⟨a, rfl, ha⟩ := (Option.any_eq_true _ _).1 hpasses
  exact ⟨a, hfound, ha⟩

/-- Where the result of a computation passes for another one, it is that one. -/
theorem eq_ok_of_any [BEq α] [LawfulBEq α] {outcome : Except ε α} {a : α}
    (h : outcome.toOption.any (· == a) = true) : outcome = .ok a := by
  obtain ⟨b, hb, heq⟩ := exists_ok_of_any h
  rw [hb, beq_iff_eq.1 heq]

/-- What a step comes to in a state: a result or a failure, and the state that it leaves. -/
def ends (x : ExceptT ε (StateM σ) α) (s : σ) : Except ε α × σ := x.run.run s

namespace ends

/-- A result leaves the state as it is. -/
@[simp] theorem pure_eq (a : α) (s : σ) :
    ends (Pure.pure a : ExceptT ε (StateM σ) α) s = (.ok a, s) := rfl

/-- A failure leaves the state as it is. -/
@[simp] theorem throw_eq (e : ε) (s : σ) :
    ends (throw e : ExceptT ε (StateM σ) α) s = (.error e, s) := rfl

/-- The second of two steps starts where the first one ended, unless that failed. -/
theorem bind_eq (x : ExceptT ε (StateM σ) α) (f : α → ExceptT ε (StateM σ) β) (s : σ) :
    ends (x >>= f) s =
      match ends x s with
      | (.ok a, s') => ends (f a) s'
      | (.error e, s') => (.error e, s') := by
  unfold ends ExceptT.run StateT.run
  simp only [bind, ExceptT.bind, ExceptT.mk, StateT.bind, ExceptT.bindCont]
  cases x s with
  | mk r s' => cases r <;> rfl

/-- After a step that succeeded the next one starts. -/
theorem bind_of_ok {x : ExceptT ε (StateM σ) α} {f : α → ExceptT ε (StateM σ) β} {s s' : σ} {a : α}
    (h : ends x s = (.ok a, s')) : ends (x >>= f) s = ends (f a) s' := by
  rw [bind_eq, h]

/-- After a step that failed there is no next one. -/
theorem bind_of_error {x : ExceptT ε (StateM σ) α} {f : α → ExceptT ε (StateM σ) β} {s s' : σ}
    {e : ε} (h : ends x s = (.error e, s')) : ends (x >>= f) s = (.error e, s') := by
  rw [bind_eq, h]

/-- A result is worked into another one. -/
theorem bind_pure_of_ok {x : ExceptT ε (StateM σ) α} (f : α → β) {s : σ} {a : α}
    (h : (ends x s).1 = .ok a) :
    (ends (x >>= fun a => (Pure.pure (f a) : ExceptT ε (StateM σ) β)) s).1 = .ok (f a) := by
  have hend : ends x s = (.ok a, (ends x s).2) := Prod.ext h rfl
  rw [bind_of_ok hend]
  rfl

/-- Two steps succeed only if each does. -/
theorem of_bind {x : ExceptT ε (StateM σ) α} {f : α → ExceptT ε (StateM σ) β} {s s'' : σ} {b : β}
    (h : ends (x >>= f) s = (.ok b, s'')) :
    ∃ a s', ends x s = (.ok a, s') ∧ ends (f a) s' = (.ok b, s'') := by
  rw [bind_eq] at h
  cases hx : ends x s with
  | mk r s' =>
    rw [hx] at h
    cases r with
    | error e => cases h
    | ok a => exact ⟨a, s', rfl, h⟩

/-- Two steps fail as the first one does, or else as the second one does where the first one ended. -/
theorem error_of_bind {x : ExceptT ε (StateM σ) α} {f : α → ExceptT ε (StateM σ) β} {s : σ} {e : ε}
    (h : (ends (x >>= f) s).1 = .error e) :
    (ends x s).1 = .error e ∨ ∃ a s', ends x s = (.ok a, s') ∧ (ends (f a) s').1 = .error e := by
  rw [bind_eq] at h
  cases hx : ends x s with
  | mk r s' =>
    rw [hx] at h
    cases r with
    | error e' =>
      cases h
      exact .inl rfl
    | ok a => exact .inr ⟨a, s', rfl, h⟩

/-- Steps for the items of a list succeed only if those before an item, the one for the item and
those after it do. -/
theorem of_forM {f : α → ExceptT ε (StateM σ) PUnit} {before after : List α} {a : α} {s s' : σ}
    (h : ends ((before ++ a :: after).forM f) s = (.ok ⟨⟩, s')) :
    ∃ s₁ s₂, ends (before.forM f) s = (.ok ⟨⟩, s₁) ∧ ends (f a) s₁ = (.ok ⟨⟩, s₂) ∧
      ends (after.forM f) s₂ = (.ok ⟨⟩, s') := by
  induction before generalizing s with
  | nil =>
    obtain ⟨⟨⟩, s₂, hfirst, hrest⟩ := of_bind h
    exact ⟨s, s₂, rfl, hfirst, hrest⟩
  | cons b rest ih =>
    obtain ⟨⟨⟩, t, hfirst, hrest⟩ := of_bind h
    obtain ⟨s₁, s₂, hbefore, hitem, hafter⟩ := ih hrest
    exact ⟨s₁, s₂, (bind_of_ok hfirst).trans hbefore, hitem, hafter⟩

/-- A changed result is what the step comes to, changed. -/
theorem map_eq (f : α → β) (x : ExceptT ε (StateM σ) α) (s : σ) :
    (ends (f <$> x) s).1 = (ends x s).1.map f := by
  rw [← bind_pure_comp, bind_eq]
  cases ends x s with
  | mk r s' => cases r <;> rfl

/-- A changed result is that of a step that succeeds. -/
theorem of_map {f : α → β} {x : ExceptT ε (StateM σ) α} {s s' : σ} {b : β}
    (h : ends (f <$> x) s = (.ok b, s')) : ∃ a, ends x s = (.ok a, s') ∧ f a = b := by
  rw [← bind_pure_comp] at h
  obtain ⟨a, t, hend, hlast⟩ := of_bind h
  cases hlast
  exact ⟨a, hend, rfl⟩

/-- The state is looked at and stays as it is. -/
@[simp] theorem get_eq (s : σ) :
    ends (MonadState.get : ExceptT ε (StateM σ) σ) s = (.ok s, s) := rfl

/-- The state is replaced. -/
@[simp] theorem set_eq (s s' : σ) :
    ends (MonadStateOf.set s' : ExceptT ε (StateM σ) PUnit) s = (.ok ⟨⟩, s') := rfl

/-- The state is changed. -/
@[simp] theorem modify_eq (f : σ → σ) (s : σ) :
    ends (modify f : ExceptT ε (StateM σ) PUnit) s = (.ok ⟨⟩, f s) := rfl

/-- A failure is taken up in the state that it left. -/
theorem tryCatch_eq (x : ExceptT ε (StateM σ) α) (handle : ε → ExceptT ε (StateM σ) α) (s : σ) :
    ends (tryCatch x handle) s =
      match ends x s with
      | (.ok a, s') => (.ok a, s')
      | (.error e, s') => ends (handle e) s' := by
  unfold ends ExceptT.run StateT.run
  simp only [tryCatch, tryCatchThe, MonadExcept.tryCatch, MonadExceptOf.tryCatch,
    ExceptT.tryCatch, ExceptT.mk, bind, StateT.bind]
  cases x s with
  | mk r s' => cases r <;> rfl

end ends

/-! ## What holds whatever a step comes to -/

/-- Whatever the step comes to, the state that it leaves is in a relation to the one before. -/
def Leaves (P : σ → σ → Prop) (x : ExceptT ε (StateM σ) α) : Prop := ∀ s, P s (ends x s).2

namespace Leaves

variable {P : σ → σ → Prop}

/-- Where the step ended, what it leaves is in the relation. -/
theorem of_ends {x : ExceptT ε (StateM σ) α} (hx : Leaves P x) {s s' : σ} {outcome : Except ε α}
    (h : ends x s = (outcome, s')) : P s s' := by
  have hleft := hx s
  rwa [h] at hleft

/-- What a step leaves in one relation it leaves in a weaker one. -/
theorem mono {Q : σ → σ → Prop} {x : ExceptT ε (StateM σ) α} (hx : Leaves P x)
    (h : ∀ s s', P s s' → Q s s') : Leaves Q x := fun s => h s _ (hx s)

/-- A result leaves the state as it is. -/
theorem pure [Std.Refl P] (a : α) : Leaves P (Pure.pure a : ExceptT ε (StateM σ) α) :=
  fun s => refl_of P s

/-- A failure leaves the state as it is. -/
theorem throw [Std.Refl P] (e : ε) : Leaves P (throw e : ExceptT ε (StateM σ) α) :=
  fun s => refl_of P s

/-- Two steps leave what both of them leave. -/
theorem bind [IsTrans σ P] {x : ExceptT ε (StateM σ) α} {f : α → ExceptT ε (StateM σ) β}
    (hx : Leaves P x) (hf : ∀ a, Leaves P (f a)) : Leaves P (x >>= f) := by
  intro s
  have hfirst := hx s
  rw [ends.bind_eq]
  cases hend : ends x s with
  | mk r s' =>
    rw [hend] at hfirst
    cases r with
    | error e => exact hfirst
    | ok a => exact trans_of P hfirst (hf a s')

/-- Two steps leave what the first one leaves, and the second one where the first one succeeds. -/
theorem bind_of_ok [IsTrans σ P] {x : ExceptT ε (StateM σ) α} {f : α → ExceptT ε (StateM σ) β}
    (hx : Leaves P x) (hf : ∀ s a s', ends x s = (.ok a, s') → P s' (ends (f a) s').2) :
    Leaves P (x >>= f) := by
  intro s
  have hfirst := hx s
  rw [ends.bind_eq]
  cases hend : ends x s with
  | mk r s' =>
    rw [hend] at hfirst
    cases r with
    | error e => exact hfirst
    | ok a => exact trans_of P hfirst (hf s a s' hend)

/-- Steps for the items of a list leave what each of them leaves. -/
theorem forM [Std.Refl P] [IsTrans σ P] {f : α → ExceptT ε (StateM σ) PUnit} {items : List α}
    (h : ∀ a ∈ items, Leaves P (f a)) : Leaves P (items.forM f) := by
  induction items with
  | nil => exact .pure PUnit.unit
  | cons a rest ih =>
    refine (h a List.mem_cons_self).bind fun _ => ?_
    exact ih fun b hb => h b (List.mem_cons_of_mem _ hb)

/-- Steps for the items of a list that give results leave what each of them leaves. -/
theorem mapM [Std.Refl P] [IsTrans σ P] {f : α → ExceptT ε (StateM σ) β} {items : List α}
    (h : ∀ a, Leaves P (f a)) : Leaves P (items.mapM f) := by
  induction items with
  | nil => exact .pure []
  | cons a rest ih =>
    rw [List.mapM_cons]
    exact (h a).bind fun b => ih.bind fun more => .pure (b :: more)

/-- So do steps for the items of a list, each from what the one before came to. -/
theorem foldlM [Std.Refl P] [IsTrans σ P] {f : β → α → ExceptT ε (StateM σ) β} {items : List α}
    (h : ∀ b a, Leaves P (f b a)) (start : β) : Leaves P (items.foldlM f start) := by
  induction items generalizing start with
  | nil => exact .pure start
  | cons a rest ih =>
    rw [List.foldlM_cons]
    exact (h start a).bind ih

/-- A step and what takes up its failure leave what both of them leave. -/
theorem tryCatch [IsTrans σ P] {x : ExceptT ε (StateM σ) α} {handle : ε → ExceptT ε (StateM σ) α}
    (hx : Leaves P x) (hhandle : ∀ e, Leaves P (handle e)) : Leaves P (tryCatch x handle) := by
  intro s
  have hfirst := hx s
  rw [ends.tryCatch_eq]
  cases hend : ends x s with
  | mk r s' =>
    rw [hend] at hfirst
    cases r with
    | error e => exact trans_of P hfirst (hhandle e s')
    | ok a => exact hfirst

end Leaves

/-! ## What a step can fail with -/

/-- Whatever the state, the step fails only in a certain way. -/
def FailsWith (P : ε → Prop) (x : ExceptT ε (StateM σ) α) : Prop :=
  ∀ s e, (ends x s).1 = .error e → P e

namespace FailsWith

variable {P : ε → Prop}

/-- A result is no failure. -/
theorem pure (a : α) : FailsWith P (Pure.pure a : ExceptT ε (StateM σ) α) := by
  intro s e h
  cases h

/-- A failure is what the step fails with. -/
theorem throw {e : ε} (h : P e) : FailsWith P (throw e : ExceptT ε (StateM σ) α) := by
  intro s e' he
  cases he
  exact h

/-- Looking at the state is no failure. -/
theorem get : FailsWith P (MonadState.get : ExceptT ε (StateM σ) σ) := by
  intro s e h
  cases h

/-- Changing the state is no failure. -/
theorem modify (f : σ → σ) : FailsWith P (modify f : ExceptT ε (StateM σ) PUnit) := by
  intro s e h
  cases h

/-- Two steps in a row fail as one of them does. -/
theorem bind {x : ExceptT ε (StateM σ) α} {f : α → ExceptT ε (StateM σ) β} (hx : FailsWith P x)
    (hf : ∀ a, FailsWith P (f a)) : FailsWith P (x >>= f) := by
  intro s e h
  rcases ends.error_of_bind h with hfirst | ⟨a, s', -, hsecond⟩
  · exact hx s e hfirst
  · exact hf a s' e hsecond

/-- A step whose failure is taken up fails as what takes it up does. -/
theorem tryCatch {Q : ε → Prop} {x : ExceptT ε (StateM σ) α} {handle : ε → ExceptT ε (StateM σ) α}
    (hx : FailsWith Q x) (hhandle : ∀ e, Q e → FailsWith P (handle e)) :
    FailsWith P (tryCatch x handle) := by
  intro s e h
  rw [ends.tryCatch_eq] at h
  cases hend : ends x s with
  | mk r s' =>
    rw [hend] at h
    cases r with
    | ok a => cases h
    | error e' => exact hhandle e' (hx s e' (congrArg Prod.fst hend)) s' e h

/-- Steps for the items of a list fail as one of them does. -/
theorem mapM {f : α → ExceptT ε (StateM σ) β} {items : List α} (h : ∀ a, FailsWith P (f a)) :
    FailsWith P (items.mapM f) := by
  induction items with
  | nil => exact pure []
  | cons a rest ih =>
    rw [List.mapM_cons]
    exact (h a).bind fun b => ih.bind fun more => pure (b :: more)

/-- Doing a step for each item of a list fails as it does for one of them. -/
theorem forM {f : α → ExceptT ε (StateM σ) PUnit} {items : List α}
    (h : ∀ a ∈ items, FailsWith P (f a)) : FailsWith P (items.forM f) := by
  induction items with
  | nil => exact pure PUnit.unit
  | cons a rest ih =>
    refine (h a List.mem_cons_self).bind fun _ => ?_
    exact ih fun b hb => h b (List.mem_cons_of_mem _ hb)

/-- So do steps for the items of a list, each from what the one before came to. -/
theorem foldlM {f : β → α → ExceptT ε (StateM σ) β} {items : List α}
    (h : ∀ b a, FailsWith P (f b a)) (start : β) : FailsWith P (items.foldlM f start) := by
  induction items generalizing start with
  | nil => exact pure start
  | cons a rest ih =>
    rw [List.foldlM_cons]
    exact (h start a).bind ih

end FailsWith

/-! ## Outcomes -/

/-- Two outcomes in a row succeed exactly if both do. -/
theorem bind_eq_ok_iff {x : Except ε α} {f : α → Except ε β} {b : β} :
    (x >>= f) = .ok b ↔ ∃ a, x = .ok a ∧ f a = .ok b := by
  cases x with
  | error e => exact ⟨nofun, nofun⟩
  | ok a => exact ⟨fun h => ⟨a, rfl, h⟩, fun ⟨_, h, h'⟩ => by cases h; exact h'⟩

/-- An outcome whose failure is told in other words succeeds as it did. -/
theorem eq_ok_of_mapError {δ : Type} {x : Except ε α} {f : ε → δ} {a : α}
    (h : x.mapError f = .ok a) : x = .ok a := by
  cases x with
  | error e => cases h
  | ok b =>
    cases h
    rfl

/-- What comes after an outcome matters only where the outcome succeeds. -/
theorem bind_congr_ok {x : Except ε α} {f g : α → Except ε β} (h : ∀ a, x = .ok a → f a = g a) :
    (x >>= f) = x >>= g := by
  cases x with
  | error e => rfl
  | ok a => exact h a rfl

/-- Outcomes for the items of a list succeed exactly if each does. -/
theorem mapM_eq_ok_iff {f : α → Except ε β} {items : List α} {results : List β} :
    items.mapM f = .ok results ↔ List.Forall₂ (fun a b => f a = .ok b) items results := by
  induction items generalizing results with
  | nil =>
    rw [List.mapM_nil, List.forall₂_nil_left_iff]
    exact ⟨fun h => (Except.ok.inj h).symm, fun h => congrArg Except.ok h.symm⟩
  | cons a rest ih =>
    rw [List.mapM_cons, bind_eq_ok_iff]
    constructor
    · rintro ⟨b, hb, h⟩
      obtain ⟨more, hmore, h⟩ := bind_eq_ok_iff.1 h
      cases h
      exact .cons hb (ih.1 hmore)
    · rintro (_ | ⟨hb, hmore⟩)
      exact ⟨_, hb, bind_eq_ok_iff.2 ⟨_, ih.2 hmore, rfl⟩⟩

/-- Steps that all succeed can be done item by item. -/
theorem exists_mapM {f : α → Except ε β} {items : List α} (h : ∀ a ∈ items, ∃ b, f a = .ok b) :
    ∃ results, items.mapM f = .ok results := by
  induction items with
  | nil => exact ⟨[], rfl⟩
  | cons a rest ih =>
    obtain ⟨b, hb⟩ := h a List.mem_cons_self
    obtain ⟨results, hresults⟩ := ih fun c hc => h c (List.mem_cons_of_mem _ hc)
    refine ⟨b :: results, ?_⟩
    rw [List.mapM_cons, hb, hresults]
    rfl

/-- What a list was made of item by item comes from one of the items. -/
theorem exists_of_forall₂ {R : α → β → Prop} {items : List α} {results : List β}
    (h : List.Forall₂ R items results) {b : β} (hb : b ∈ results) : ∃ a ∈ items, R a b := by
  induction h with
  | nil => cases hb
  | cons hfirst _ ih =>
    rcases List.mem_cons.1 hb with rfl | hb
    · exact ⟨_, List.mem_cons_self, hfirst⟩
    · obtain ⟨a, ha, hab⟩ := ih hb
      exact ⟨a, List.mem_cons_of_mem _ ha, hab⟩

/-! ## What an outcome can fail with -/

/-- If the outcome is a failure, it is one of a certain kind. -/
def FailsOnly (P : ε → Prop) (x : Except ε α) : Prop := ∀ e, x = .error e → P e

namespace FailsOnly

variable {P Q : ε → Prop} {x : Except ε α}

theorem ok (a : α) : FailsOnly P (.ok a : Except ε α) := nofun

theorem error {e : ε} (h : P e) : FailsOnly P (.error e : Except ε α) := by
  intro cause heq
  cases heq
  exact h

theorem mono (hx : FailsOnly P x) (h : ∀ e, P e → Q e) : FailsOnly Q x :=
  fun e he => h e (hx e he)

theorem ite {c : Prop} [Decidable c] {y : Except ε α} (hx : c → FailsOnly P x)
    (hy : ¬c → FailsOnly P y) : FailsOnly P (if c then x else y) := by
  split
  · exact hx ‹_›
  · exact hy ‹_›

theorem bind {f : α → Except ε β} (hx : FailsOnly P x) (hf : ∀ a, x = .ok a → FailsOnly P (f a)) :
    FailsOnly P (x >>= f) := by
  cases x with
  | ok a => exact hf a rfl
  | error e => exact error (hx e rfl)

theorem map (f : α → β) (hx : FailsOnly P x) : FailsOnly P (x.map f) := by
  cases x with
  | ok a => exact ok (f a)
  | error e => exact error (hx e rfl)

theorem mapM {f : α → Except ε β} {items : List α} (h : ∀ a ∈ items, FailsOnly P (f a)) :
    FailsOnly P (items.mapM f) := by
  induction items with
  | nil => exact ok []
  | cons a rest ih =>
    rw [List.mapM_cons]
    refine (h a List.mem_cons_self).bind fun b _ => ?_
    exact (ih fun c hc => h c (List.mem_cons_of_mem _ hc)).bind fun more _ => ok (b :: more)

end FailsOnly

/-! ## Tests that can fail -/

/-- A test that fails nowhere in a list keeps what passes it; what was kept before comes last, in
reverse. -/
theorem filterAuxM_ok {f : α → Except ε Bool} {items kept result : List α}
    (h : items.filterAuxM f kept = .ok result) :
    result = (items.filter fun a => (f a).toOption.getD false).reverse ++ kept := by
  induction items generalizing kept with
  | nil =>
    cases h
    rfl
  | cons a rest ih =>
    rw [List.filterAuxM] at h
    cases ha : f a with
    | error e =>
      rw [ha] at h
      cases h
    | ok passes =>
      rw [ha] at h
      cases passes with
      | false =>
        rw [ih h, List.filter_cons_of_neg (by simp [ha, Except.toOption])]
        rfl
      | true =>
        rw [ih h, List.filter_cons_of_pos (by simp [ha, Except.toOption])]
        simp

/-- A test that fails nowhere in a list keeps what passes it. -/
theorem filterM_ok {f : α → Except ε Bool} {items result : List α}
    (h : items.filterM f = .ok result) :
    result = items.filter fun a => (f a).toOption.getD false := by
  unfold List.filterM at h
  cases hkept : items.filterAuxM f [] with
  | error e =>
    rw [hkept] at h
    cases h
  | ok kept =>
    rw [hkept] at h
    cases h
    rw [filterAuxM_ok hkept, List.append_nil, List.reverse_reverse]

/-- A test that keeps something fails nowhere in the list; what was kept before does not matter. -/
theorem exists_ok_of_filterAuxM {f : α → Except ε Bool} {items kept result : List α}
    (h : items.filterAuxM f kept = .ok result) : ∀ a ∈ items, ∃ passes, f a = .ok passes := by
  induction items generalizing kept with
  | nil => exact fun a ha => nomatch ha
  | cons first rest ih =>
    rw [List.filterAuxM] at h
    cases hfirst : f first with
    | error e =>
      rw [hfirst] at h
      cases h
    | ok passes =>
      rw [hfirst] at h
      rintro a (_ | ⟨_, ha⟩)
      · exact ⟨passes, hfirst⟩
      · exact ih h a ha

/-- A test that keeps something fails nowhere in the list. -/
theorem exists_ok_of_filterM {f : α → Except ε Bool} {items result : List α}
    (h : items.filterM f = .ok result) : ∀ a ∈ items, ∃ passes, f a = .ok passes := by
  unfold List.filterM at h
  cases hkept : items.filterAuxM f [] with
  | error e =>
    rw [hkept] at h
    cases h
  | ok kept => exact exists_ok_of_filterAuxM hkept

/-- A test that fails nowhere in a list keeps something. -/
theorem exists_filterM {f : α → Except ε Bool} {items : List α}
    (h : ∀ a ∈ items, ∃ passes, f a = .ok passes) : ∃ result, items.filterM f = .ok result := by
  have haux (kept : List α) : ∃ result, items.filterAuxM f kept = .ok result := by
    induction items generalizing kept with
    | nil => exact ⟨kept, rfl⟩
    | cons a rest ih =>
      obtain ⟨passes, ha⟩ := h a List.mem_cons_self
      rw [List.filterAuxM, ha]
      exact ih (fun b hb => h b (List.mem_cons_of_mem _ hb)) (cond passes (a :: kept) kept)
  obtain ⟨kept, hkept⟩ := haux []
  exact ⟨kept.reverse, by rw [List.filterM, hkept]; rfl⟩

/-- A test keeps what passes it, unless it fails somewhere in the list. -/
theorem filterM_eq_ok_iff {f : α → Except ε Bool} {items result : List α} :
    items.filterM f = .ok result ↔ (∀ a ∈ items, ∃ passes, f a = .ok passes) ∧
      result = items.filter fun a => (f a).toOption.getD false := by
  constructor
  · exact fun h => ⟨exists_ok_of_filterM h, filterM_ok h⟩
  · rintro ⟨hok, rfl⟩
    obtain ⟨result, hresult⟩ := exists_filterM hok
    rw [hresult, filterM_ok hresult]

end StoryRegistry
