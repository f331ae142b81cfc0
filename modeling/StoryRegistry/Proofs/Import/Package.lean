import StoryRegistry.Import.Specifier
import StoryRegistry.Proofs.Text.Split

/-!
# Packages and what lies in them

A specifier is the name of a package, or that name with a slash and a path inside the package behind it
(`exists_path`). A package name has no slash, or one behind a scope; so a specifier is its own package
exactly if it has no slash too many (`package_eq_self_iff`).

The filter of component dependencies goes by the text of a specifier, not by its package. It leaves out
what is in the scope of the story framework and what names a package of the framework or of the host
runtime; a path inside one of these packages is kept (`ofComponent_eq`).
-/

set_option autoImplicit false

namespace StoryRegistry.Specifier

open Text

variable {specifier : String}

/-- The specifier begins with a scope. -/
def isScoped (specifier : String) : Bool := beginsWith specifier "@"

/-- The number of slashes in the name of a package. -/
def slashes (specifier : String) : Nat := if isScoped specifier then 1 else 0

/-- The specifier has the form of a package name: no slash, or one behind a scope. -/
def IsPackageName (specifier : String) : Prop := specifier.toList.count '/' ≤ slashes specifier

instance (specifier : String) : Decidable (IsPackageName specifier) :=
  inferInstanceAs (Decidable (_ ≤ _))

/-! ## The package of a specifier -/

theorem package_of_single (h : '/' ∉ specifier.toList) : package specifier = specifier := by
  simp only [package, parts, splitOn_eq_singleton h, List.map_cons, List.map_nil,
    String.ofList_toList]

/-- The package of a specifier that goes on behind its first segment. -/
theorem package_of_cut {first rest : List Char} (hcut : specifier.toList = first ++ '/' :: rest)
    (hfirst : '/' ∉ first) :
    (package specifier).toList =
      if isScoped specifier then first ++ '/' :: (splitOn '/' rest).headD [] else first := by
  have hsplit : splitOn '/' specifier.toList = first :: splitOn '/' rest := by
    rw [hcut, splitOn_append hfirst]
  unfold package parts
  rw [hsplit]
  cases hrest : splitOn '/' rest with
  | nil => exact absurd hrest (splitOn_ne_nil '/' rest)
  | cons name more =>
    cases hscope : beginsWith specifier "@" <;> simp [isScoped, hscope]

/-- A specifier is its package, or its package and a path behind a slash; the name of the package then
has all the slashes that it can have. -/
theorem exists_path (specifier : String) :
    package specifier = specifier ∧ IsPackageName specifier ∨
      ∃ path, specifier.toList = (package specifier).toList ++ '/' :: path ∧
        (package specifier).toList.count '/' = slashes specifier := by
  by_cases hslash : '/' ∈ specifier.toList
  · obtain ⟨first, rest, hcut, hfirst⟩ := List.eq_append_cons_of_mem hslash
    have hpackage := package_of_cut hcut hfirst
    have hnone := List.count_eq_zero.2 hfirst
    cases hscope : isScoped specifier with
    | false =>
      rw [hscope, if_neg Bool.false_ne_true] at hpackage
      exact .inr ⟨rest, by rw [hpackage, hcut], by simp [hpackage, hnone, slashes, hscope]⟩
    | true =>
      rw [hscope, if_pos rfl] at hpackage
      by_cases hmore : '/' ∈ rest
      · obtain ⟨name, path, rfl, hname⟩ := List.eq_append_cons_of_mem hmore
        rw [splitOn_append hname, List.headD_cons] at hpackage
        have hnothing := List.count_eq_zero.2 hname
        refine .inr ⟨path, by rw [hpackage, hcut]; simp, ?_⟩
        simp [hpackage, hnone, hnothing, slashes, hscope]
      · rw [splitOn_eq_singleton hmore, List.headD_cons, ← hcut] at hpackage
        have hnothing := List.count_eq_zero.2 hmore
        refine .inl ⟨String.toList_inj.1 hpackage, ?_⟩
        simp [IsPackageName, hcut, hnone, hnothing, slashes, hscope]
  · have hnone := List.count_eq_zero.2 hslash
    exact .inl ⟨package_of_single hslash, by simp [IsPackageName, hnone]⟩

/-- A specifier is its own package exactly if it has the form of a package name. -/
theorem package_eq_self_iff : package specifier = specifier ↔ IsPackageName specifier := by
  rcases exists_path specifier with ⟨hself, hname⟩ | ⟨path, hcut, hcount⟩
  · exact iff_of_true hself hname
  · have hlonger : package specifier ≠ specifier := by
      intro heq
      have hlength := congrArg List.length hcut
      rw [heq] at hlength
      simp at hlength
    have hmore : ¬IsPackageName specifier := by
      unfold IsPackageName
      rw [hcut]
      simp [hcount]
    exact iff_of_false hlonger hmore

/-- A specifier outside the project is of the kind of packages, and its own package, exactly if it has
the form of a package name. -/
theorem kind_eq_npm_and_package_eq_self_iff (h : isRelative specifier = false) :
    kind specifier = .npm ∧ package specifier = specifier ↔ IsPackageName specifier := by
  rw [package_eq_self_iff]
  refine and_iff_right_of_imp fun hname => ?_
  unfold kind
  rw [h, if_neg Bool.false_ne_true]
  cases hscope : beginsWith specifier "@" with
  | true => rfl
  | false =>
    have hnone : '/' ∉ specifier.toList := by
      rw [← List.count_eq_zero]
      simpa [IsPackageName, slashes, isScoped, hscope] using hname
    simp [hnone]

/-- A specifier begins with its package. -/
theorem exists_append_package (specifier : String) :
    ∃ path, specifier.toList = (package specifier).toList ++ path := by
  rcases exists_path specifier with ⟨hself, -⟩ | ⟨path, hcut, -⟩
  · exact ⟨[], by rw [hself, List.append_nil]⟩
  · exact ⟨_, hcut⟩

/-! ## Scopes -/

theorem isScoped_iff : isScoped specifier = true ↔ specifier.toList.head? = some '@' := by
  rw [isScoped, beginsWith_iff, List.head?_eq_some_iff]
  exact exists_congr fun rest => eq_comm

/-- A specifier has a scope exactly if its package has one. -/
theorem isScoped_package (specifier : String) : isScoped (package specifier) = isScoped specifier := by
  rcases exists_path specifier with ⟨hself, -⟩ | ⟨path, hcut, -⟩
  · rw [hself]
  · rw [Bool.eq_iff_iff, isScoped_iff, isScoped_iff, hcut]
    cases (package specifier).toList <;> simp

/-- A specifier is in the scope of the story framework exactly if its package is. -/
theorem beginsWith_package :
    beginsWith (package specifier) "@storybook/" = beginsWith specifier "@storybook/" := by
  rw [Bool.eq_iff_iff, beginsWith_iff, beginsWith_iff]
  constructor
  · intro h
    obtain ⟨path, hcut⟩ := exists_append_package specifier
    exact hcut ▸ h.trans (List.prefix_append _ _)
  · rintro ⟨rest, hrest⟩
    have hcut : specifier.toList = "@storybook".toList ++ '/' :: rest := hrest.symm
    have hscope : isScoped specifier = true := isScoped_iff.2 (by rw [hcut]; rfl)
    rw [package_of_cut hcut (by decide), hscope, if_pos rfl]
    exact ⟨_, rfl⟩

/-! ## Packages that components do not depend on -/

/-- The package is one of the story framework, or of the host runtime. -/
def IsHostPackage (package : String) : Prop :=
  package ∈ ["storybook", "react", "react-dom"] ∨ beginsWith package "@storybook/" = true

instance (package : String) : Decidable (IsHostPackage package) :=
  inferInstanceAs (Decidable (_ ∨ _))

/-- The specifier goes on behind the name of a package without a scope. -/
def EntersPackage (specifier : String) : Prop :=
  isScoped specifier = false ∧ ¬IsPackageName specifier

instance (specifier : String) : Decidable (EntersPackage specifier) :=
  inferInstanceAs (Decidable (_ ∧ _))

/-- Left out is what lies in a package of the host, paths inside its packages without scope apart. -/
theorem isFramework_or_isHostRuntime_iff (specifier : String) :
    (isFramework specifier || isHostRuntime specifier) = true ↔
      IsHostPackage (package specifier) ∧ ¬EntersPackage specifier := by
  have hnamed : (isFramework specifier || isHostRuntime specifier) = true ↔
      specifier ∈ ["storybook", "react", "react-dom"] ∨ beginsWith specifier "@storybook/" = true := by
    simp only [isFramework, isHostRuntime, Bool.or_eq_true, beq_iff_eq, List.mem_cons,
      List.not_mem_nil, or_false]
    grind
  have hplain : ∀ name ∈ ["storybook", "react", "react-dom"],
      isScoped name = false ∧ IsPackageName name := by decide +kernel
  rw [hnamed, IsHostPackage, beginsWith_package]
  constructor
  · rintro (hname | hscope)
    · obtain ⟨-, hform⟩ := hplain specifier hname
      exact ⟨.inl ((package_eq_self_iff.2 hform).symm ▸ hname), fun henters => henters.2 hform⟩
    · have hscoped : isScoped specifier = true := by
        rw [isScoped, beginsWith_iff]
        exact List.IsPrefix.trans ⟨"storybook/".toList, by decide⟩ (beginsWith_iff.1 hscope)
      exact ⟨.inr hscope, fun henters => Bool.false_ne_true (henters.1.symm.trans hscoped)⟩
  · rintro ⟨hname | hscope, hstays⟩
    · -- the specifier has no scope, as the package has none, and so it is the package
      have hunscoped : isScoped specifier = false := by
        rw [← isScoped_package]
        exact (hplain _ hname).1
      have hform : IsPackageName specifier := by
        by_contra hform
        exact hstays ⟨hunscoped, hform⟩
      rw [package_eq_self_iff.2 hform] at hname
      exact .inl hname
    · exact .inr hscope

/-- The dependencies of a component are the specifiers that lie in no package of the host, or that enter
one without a scope; they are kept in their order. -/
theorem ofComponent_eq (specifiers : List String) :
    ofComponent specifiers = specifiers.filter fun specifier =>
      decide (IsHostPackage (package specifier) → EntersPackage specifier) := by
  unfold ofComponent
  refine List.filter_congr fun specifier _ => ?_
  rw [← Bool.not_or, Bool.eq_iff_iff, Bool.not_eq_true', Bool.eq_false_iff, ne_eq,
    isFramework_or_isHostRuntime_iff, decide_eq_true_eq, not_and_not_right]

end StoryRegistry.Specifier
