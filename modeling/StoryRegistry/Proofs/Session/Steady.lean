import StoryRegistry.Proofs.Step

/-!
# Steps that only look

Most steps of a pipeline look at the file tree and change nothing but the log, the report and what
is remembered of packages. Whether such a step finds something does not depend on what was told or
noted before, so what many of them in a row come to can be said from the session in which the first
one starts.
-/

set_option autoImplicit false

namespace StoryRegistry

/-- What a report says of the registry: whether it was made, and which one. -/
def Report.outcome (r : Report) : Bool × Option Registry := (r.success, r.registry)

/-- A likeness of sessions that lies in the file tree, and neither in the log nor in what the report
counts. -/
class IsView (R : Session → Session → Prop) : Prop extends IsEquiv Session R where
  /-- Alike sessions have the same file tree. -/
  tree_eq : ∀ {s s' : Session}, R s s' → s'.tree = s.tree
  /-- What is told does not matter. -/
  log : ∀ (s : Session) (lines : List LogLine), R s { s with log := lines }
  /-- What is noted does not matter, as long as it says the same of the registry. -/
  report : ∀ (s : Session) (found : Report), found.outcome = s.report.outcome →
    R s { s with report := found }

/-- The step leaves a session that is like the one before, and comes to the same in alike sessions.
-/
structure Steady {α : Type} (R : Session → Session → Prop) (x : Run α) : Prop where
  leaves : Leaves R x
  agrees : ∀ {s s' : Session}, R s s' → (ends x s').1 = (ends x s).1

/-- What a step comes to is the result of attempting it, and an attempt never fails. -/
theorem ends.attempt_eq {α : Type} (x : Run α) (s : Session) :
    ends (Run.attempt x) s = (.ok (ends x s).1, (ends x s).2) := by
  have hattempt : Run.attempt x = tryCatch (x >>= fun a => pure (Except.ok a))
      fun e => pure (Except.error e) := rfl
  rw [hattempt, ends.tryCatch_eq, ends.bind_eq]
  cases ends x s with
  | mk r s' => cases r <;> rfl

/-- An attempt leaves what the step leaves. -/
theorem Leaves.attempt {α : Type} {P : Session → Session → Prop} {x : Run α} (hx : Leaves P x) :
    Leaves P (Run.attempt x) := by
  intro s
  rw [ends.attempt_eq]
  exact hx s

/-- Looking something up comes to what the file tree says. -/
theorem ends.look_eq {α : Type} (f : FileTree → Except FileError α) (s : Session) :
    ends (Run.look f) s = ((f s.tree).mapError Failure.file, s) := by
  have htree : ends Run.tree s = (.ok s.tree, s) := rfl
  rw [Run.look, ends.bind_of_ok htree]
  cases f s.tree <;> rfl

/-- Looking something up fails as the file tree says. -/
theorem FailsWith.look {α : Type} {P : Failure → Prop} {f : FileTree → Except FileError α}
    (h : ∀ t cause, f t = .error cause → P (.file cause)) : FailsWith P (Run.look f) := by
  intro s e he
  rw [ends.look_eq] at he
  cases hf : f s.tree with
  | ok a => rw [hf] at he; cases he
  | error cause =>
    rw [hf] at he
    cases he
    exact h _ _ hf

/-- An outcome that is made a step succeeds as it stands. -/
theorem Run.eq_ok_of_ofExcept {α : Type} {outcome : Except Failure α} {a : α} {s s' : Session}
    (h : ends (Run.ofExcept outcome) s = (.ok a, s')) : outcome = .ok a := by
  cases outcome with
  | ok b =>
    cases h
    rfl
  | error e => cases h

/-- An outcome that is made a step fails as it stands. -/
theorem Run.eq_error_of_ofExcept {α : Type} {outcome : Except Failure α} {e : Failure} {s : Session}
    (h : (ends (Run.ofExcept outcome) s).1 = .error e) : outcome = .error e := by
  cases outcome with
  | ok a => cases h
  | error cause =>
    cases h
    rfl

/-- A step that may be asked for leaves what it leaves where it is asked for. -/
theorem Leaves.whenAsked {P : Session → Session → Prop} [Std.Refl P] {x : Run Unit} {asked : Bool}
    (hx : asked = true → Leaves P x) : Leaves P (Run.when asked x) := by
  cases asked with
  | false => exact Leaves.pure ()
  | true => exact hx rfl

/-- A step that may be asked for leaves what it leaves if it is done. -/
theorem Leaves.when {P : Session → Session → Prop} [Std.Refl P] {x : Run Unit} (asked : Bool)
    (hx : Leaves P x) : Leaves P (Run.when asked x) :=
  Leaves.whenAsked fun _ => hx

/-- A step that may be asked for fails as it does if it is done. -/
theorem FailsWith.when {P : Failure → Prop} {x : Run Unit} {asked : Bool}
    (hx : asked = true → FailsWith P x) : FailsWith P (Run.when asked x) := by
  cases asked with
  | false => exact .pure ()
  | true => exact hx rfl

namespace Steady

variable {R : Session → Session → Prop} {α β : Type}

/-- Where two steps in a row succeed and the first one is steady, the second one starts in a session
like the first one's. -/
theorem of_bind {x : Run α} {f : α → Run β} (hx : Steady R x) {s s'' : Session} {b : β}
    (h : ends (x >>= f) s = (.ok b, s'')) :
    ∃ a s', ends x s = (.ok a, s') ∧ R s s' ∧ ends (f a) s' = (.ok b, s'') := by
  obtain ⟨a, s', hend, hrest⟩ := ends.of_bind h
  have hlike := hx.leaves s
  rw [hend] at hlike
  exact ⟨a, s', hend, hlike, hrest⟩

/-- A steady step that succeeds in a session succeeds with the same result in a session like it. -/
theorem exists_ok [IsTrans Session R] {x : Run α} (hx : Steady R x) {s s' : Session} {a : α}
    (h : R s s') (hend : (ends x s).1 = .ok a) : ∃ t, ends x s' = (.ok a, t) ∧ R s t :=
  ⟨(ends x s').2, Prod.ext ((hx.agrees h).trans hend) rfl, trans_of R h (hx.leaves s')⟩

/-- What steady steps for the items of a list come to is what each comes to in the first session. -/
theorem mapM_ok {f : α → Run β} (h : ∀ a, Steady R (f a)) {items : List α} {results : List β}
    {s s' : Session} (hend : ends (items.mapM f) s = (.ok results, s')) :
    items.map (fun a => (ends (f a) s).1) = results.map Except.ok := by
  induction items generalizing s results with
  | nil =>
    cases hend
    rfl
  | cons a rest ih =>
    rw [List.mapM_cons] at hend
    obtain ⟨b, t, hfirst, hlike, hmore⟩ := (h a).of_bind hend
    obtain ⟨more, u, hrest, hlast⟩ := ends.of_bind hmore
    cases hlast
    have hsame : rest.map (fun a => (ends (f a) t).1) = rest.map fun a => (ends (f a) s).1 :=
      List.map_congr_left fun a _ => (h a).agrees hlike
    rw [List.map_cons, List.map_cons, hfirst, ← ih hrest, hsame]

/-- Steady steps that succeed for the items of a list, each in the first session, succeed in a row. -/
theorem exists_mapM [IsEquiv Session R] {f : α → Run β} (h : ∀ a, Steady R (f a)) {items : List α}
    {s : Session} (hitems : ∀ a ∈ items, ∃ b, (ends (f a) s).1 = .ok b) :
    ∃ results, (ends (items.mapM f) s).1 = .ok results := by
  induction items generalizing s with
  | nil => exact ⟨[], rfl⟩
  | cons a rest ih =>
    obtain ⟨b, hb⟩ := hitems a List.mem_cons_self
    obtain ⟨t, hend, hlike⟩ := (h a).exists_ok (refl_of R s) hb
    have hrest : ∀ c ∈ rest, ∃ d, (ends (f c) t).1 = .ok d := by
      intro c hc
      obtain ⟨d, hd⟩ := hitems c (List.mem_cons_of_mem _ hc)
      exact ⟨d, ((h c).agrees hlike).trans hd⟩
    obtain ⟨more, hmore⟩ := ih hrest
    refine ⟨b :: more, ?_⟩
    have hlast : ends (rest.mapM f) t = (.ok more, (ends (rest.mapM f) t).2) := Prod.ext hmore rfl
    rw [List.mapM_cons, ends.bind_of_ok hend, ends.bind_of_ok hlast]
    rfl

/-- Steady steps that succeed for the items of a list from whatever the one before came to, each in the
first session, succeed in a row. -/
theorem exists_foldlM [IsEquiv Session R] {f : β → α → Run β} (h : ∀ b a, Steady R (f b a))
    {items : List α} {s : Session} (hitems : ∀ a ∈ items, ∀ b, ∃ c, (ends (f b a) s).1 = .ok c)
    (start : β) : ∃ result, (ends (items.foldlM f start) s).1 = .ok result := by
  induction items generalizing s start with
  | nil => exact ⟨start, rfl⟩
  | cons a rest ih =>
    obtain ⟨b, hb⟩ := hitems a List.mem_cons_self start
    obtain ⟨t, hend, hlike⟩ := (h start a).exists_ok (refl_of R s) hb
    obtain ⟨result, hresult⟩ := @ih t (fun c hc d => by
      obtain ⟨e, he⟩ := hitems c (List.mem_cons_of_mem _ hc) d
      exact ⟨e, ((h d c).agrees hlike).trans he⟩) b
    exact ⟨result, by rw [List.foldlM_cons, ends.bind_of_ok hend, hresult]⟩

/-- What two steady steps in a row come to is what each comes to in the session in which the first one
starts. -/
theorem fst_bind {x : Run α} {f : α → Run β} (hx : Steady R x) (hf : ∀ a, Steady R (f a))
    (s : Session) : (ends (x >>= f) s).1 = (ends x s).1 >>= fun a => (ends (f a) s).1 := by
  have hlike := hx.leaves s
  rw [ends.bind_eq]
  cases hend : ends x s with
  | mk r t =>
    rw [hend] at hlike
    cases r with
    | error e => rfl
    | ok a => exact (hf a).agrees hlike

variable [IsView R]

/-- A result is steady. -/
theorem pure (a : α) : Steady R (Pure.pure a : Run α) := ⟨Leaves.pure a, fun _ => rfl⟩

/-- A failure is steady. -/
theorem throw (e : Failure) : Steady R (throw e : Run α) := ⟨Leaves.throw e, fun _ => rfl⟩

/-- Two steady steps in a row are steady: the second one starts in sessions that are alike. -/
theorem bind {x : Run α} {f : α → Run β} (hx : Steady R x) (hf : ∀ a, Steady R (f a)) :
    Steady R (x >>= f) where
  leaves := hx.leaves.bind fun a => (hf a).leaves
  agrees {s s'} h := by
    rw [fst_bind hx hf, fst_bind hx hf, hx.agrees h]
    exact bind_congr_ok fun a _ => (hf a).agrees h

/-- A steady step whose failure is taken up by a steady one is steady. -/
theorem tryCatch {x : Run α} {handle : Failure → Run α} (hx : Steady R x)
    (hhandle : ∀ e, Steady R (handle e)) : Steady R (tryCatch x handle) where
  leaves := hx.leaves.tryCatch fun e => (hhandle e).leaves
  agrees {s s'} h := by
    have hsame := hx.agrees h
    have hs := hx.leaves s
    have hs' := hx.leaves s'
    rw [ends.tryCatch_eq, ends.tryCatch_eq]
    cases hend : ends x s with
    | mk r t =>
      cases hend' : ends x s' with
      | mk r' t' =>
        rw [hend, hend'] at hsame
        rw [hend] at hs
        rw [hend'] at hs'
        cases hsame
        cases r with
        | error e => exact (hhandle e).agrees (trans_of R (symm_of R hs) (trans_of R h hs'))
        | ok a => rfl

/-- A changed result of a steady step is steady. -/
theorem map {x : Run α} (f : α → β) (hx : Steady R x) : Steady R (f <$> x) := by
  rw [← bind_pure_comp]
  exact hx.bind fun a => pure (f a)

/-- Giving the failure of a steady step as a result is steady. -/
theorem attempt {x : Run α} (hx : Steady R x) : Steady R (Run.attempt x) :=
  tryCatch (hx.bind fun a => pure (Except.ok a)) fun e => pure (Except.error e)

/-- A steady step for each item of a list is steady. -/
theorem mapM {f : α → Run β} {items : List α} (h : ∀ a, Steady R (f a)) :
    Steady R (items.mapM f) := by
  induction items with
  | nil => exact pure []
  | cons a rest ih =>
    rw [List.mapM_cons]
    exact (h a).bind fun b => ih.bind fun more => pure (b :: more)

/-- What steady steps for the items of a list come to is what each comes to in the session in which the
first one starts. -/
theorem fst_mapM {f : α → Run β} (h : ∀ a, Steady R (f a)) (items : List α) (s : Session) :
    (ends (items.mapM f) s).1 = items.mapM fun a => (ends (f a) s).1 := by
  induction items with
  | nil => rfl
  | cons a rest ih =>
    rw [List.mapM_cons, List.mapM_cons,
      fst_bind (h a) fun b => (mapM h).bind fun more => pure (b :: more)]
    refine bind_congr fun b => ?_
    rw [fst_bind (mapM h) fun more => pure (b :: more), ih]
    rfl

/-- Doing a steady step for each item of a list is steady. -/
theorem forM {f : α → Run PUnit} {items : List α} (h : ∀ a, Steady R (f a)) :
    Steady R (items.forM f) := by
  induction items with
  | nil => exact pure PUnit.unit
  | cons a rest ih => exact (h a).bind fun _ => ih

/-- A steady step for each item, from what the one before came to, is steady. -/
theorem foldlM {f : β → α → Run β} {items : List α} (h : ∀ b a, Steady R (f b a)) (start : β) :
    Steady R (items.foldlM f start) := by
  induction items generalizing start with
  | nil => exact pure start
  | cons a rest ih =>
    rw [List.foldlM_cons]
    exact (h start a).bind ih

/-- A steady step that may be asked for is steady. -/
theorem when {x : Run Unit} (asked : Bool) (hx : Steady R x) : Steady R (Run.when asked x) := by
  cases asked with
  | false => exact pure ()
  | true => exact hx

/-- Telling something is steady. -/
theorem tellAll (lines : List LogLine) : Steady R (Run.tellAll lines) :=
  ⟨fun s => IsView.log s _, fun _ => rfl⟩

/-- Telling a line is steady. -/
theorem tell (level : Level) (message : String) : Steady R (Run.tell level message) :=
  tellAll _

/-- Noting something that is not about the registry is steady. -/
theorem note {f : Report → Report} (h : ∀ r, (f r).outcome = r.outcome) :
    Steady R (Run.note f) :=
  ⟨fun s => IsView.report s _ (h s.report), fun _ => rfl⟩

/-- Whether an outcome is a failure does not depend on the session. -/
theorem ofExcept (outcome : Except Failure α) : Steady R (Run.ofExcept outcome) := by
  cases outcome with
  | ok a => exact pure a
  | error e => exact throw e

/-- The file tree is the same in alike sessions. -/
theorem tree : Steady R Run.tree where
  leaves s := refl_of R s
  agrees h := congrArg Except.ok (IsView.tree_eq h)

/-- Looking something up in the file tree is steady. -/
theorem look (f : FileTree → Except FileError α) : Steady R (Run.look f) := by
  refine tree.bind fun t => ?_
  cases f t with
  | ok a => exact pure a
  | error e => exact throw (.file e)

/-- Reading a file is steady. -/
theorem text (p : Path) : Steady R (Run.text p) := look _

end Steady

/-! ## Likenesses -/

/-- The sessions have the same file tree. -/
def SameTree (s s' : Session) : Prop := s'.tree = s.tree

instance : IsView SameTree where
  refl _ := rfl
  trans _ _ _ h h' := Eq.trans h' h
  symm _ _ h := Eq.symm h
  tree_eq h := h
  log _ _ := rfl
  report _ _ _ := rfl

/-- The sessions have the same file tree, and their reports say the same of the registry. -/
def SameReported (s s' : Session) : Prop :=
  s'.tree = s.tree ∧ s'.report.outcome = s.report.outcome

instance : IsView SameReported where
  refl _ := ⟨rfl, rfl⟩
  trans _ _ _ h h' := ⟨h'.1.trans h.1, h'.2.trans h.2⟩
  symm _ _ h := ⟨h.1.symm, h.2.symm⟩
  tree_eq h := h.1
  log _ _ := ⟨rfl, rfl⟩
  report _ _ h := ⟨rfl, h⟩

/-- The sessions have the same file tree and remember the same of packages. -/
def SameMemo (s s' : Session) : Prop := s'.tree = s.tree ∧ s'.versions = s.versions

instance : IsView SameMemo where
  refl _ := ⟨rfl, rfl⟩
  trans _ _ _ h h' := ⟨h'.1.trans h.1, h'.2.trans h.2⟩
  symm _ _ h := ⟨h.1.symm, h.2.symm⟩
  tree_eq h := h.1
  log _ _ := ⟨rfl, rfl⟩
  report _ _ _ := ⟨rfl, rfl⟩

end StoryRegistry
