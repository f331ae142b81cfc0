import Mathlib.Data.List.Chain
import StoryRegistry.Proofs.Table
import StoryRegistry.Graph.Cycles

/-!
# The path of the search

The frames on the stack of the search make up a path in the graph: there is an edge from each node
to the next one, the nodes are distinct, and what is still to be followed are edges. What is closed
by an edge back to the path is therefore a cycle.
-/

set_option autoImplicit false

namespace StoryRegistry.DependencyGraph

variable {g : DependencyGraph}

/-- There is an edge from a node to another. -/
def Edge (g : DependencyGraph) (u v : String) : Prop := v ∈ targets g u

/-- A node with an edge is one of the files whose dependencies are listed. -/
theorem Edge.mem_names {u v : String} (h : Edge g u v) : u ∈ Table.names g := by
  by_contra hnot
  have hnone : Table.get? u g = none := Table.get?_eq_none_iff.2 hnot
  simp [Edge, targets, hnone] at h

/-- An edge leads to a node of the graph. -/
theorem Edge.mem_nodes {u v : String} (h : Edge g u v) : v ∈ nodes g := by
  obtain ⟨dependencies, hget⟩ := Table.exists_get? h.mem_names
  have hmem : v ∈ dependencies.filterMap Dependency.target? := by
    simpa [Edge, targets, hget] using h
  refine List.mem_append_right _ (List.mem_flatMap.2 ⟨(u, dependencies), ?_, hmem⟩)
  exact Table.mem_of_get? hget

/-- The files whose dependencies are listed are nodes. -/
theorem mem_nodes_of_mem_names {u : String} (h : u ∈ Table.names g) : u ∈ nodes g :=
  List.mem_append_left _ h

/-- Nodes with an edge from each to the next one, and from the last back to the first. -/
structure IsCycle (g : DependencyGraph) (cycle : List String) : Prop where
  /-- The nodes are distinct. -/
  distinct : cycle.Nodup
  /-- There is an edge from each node to the next one. -/
  edges : cycle.IsChain (Edge g)
  /-- There is a first and a last node, and an edge from the last to the first. -/
  closes : ∃ first last, cycle.head? = some first ∧ cycle.getLast? = some last ∧ Edge g last first

/-- The frames make up a path, the top being its end. -/
inductive IsPath (g : DependencyGraph) : List Frame → Prop where
  | nil : IsPath g []
  | cons {node : String} {pending : List String} {below : List Frame} :
      (∀ v ∈ pending, Edge g node v) → onPath below node = false →
      (∀ f ∈ below.head?, Edge g f.node node) → IsPath g below →
      IsPath g (⟨node, pending⟩ :: below)

namespace IsPath

variable {node target : String} {pending : List String} {below stack : List Frame}

/-- The path without its end. -/
theorem tail {f : Frame} (h : IsPath g (f :: below)) : IsPath g below := by
  cases h with
  | cons _ _ _ hbelow => exact hbelow

/-- An edge that was followed is no longer pending. -/
theorem follow (h : IsPath g (⟨node, target :: pending⟩ :: below)) :
    IsPath g (⟨node, pending⟩ :: below) := by
  cases h with
  | cons hpending hnew hlink hbelow =>
    exact .cons (fun v hv => hpending v (List.mem_cons_of_mem _ hv)) hnew hlink hbelow

/-- A pending edge leads from the end of the path. -/
theorem edge (h : IsPath g (⟨node, target :: pending⟩ :: below)) : Edge g node target := by
  cases h with
  | cons hpending _ _ _ => exact hpending target List.mem_cons_self

/-- A pending edge to a node off the path makes the path longer. -/
theorem extend (h : IsPath g (⟨node, target :: pending⟩ :: below))
    (hoff : onPath (⟨node, target :: pending⟩ :: below) target = false) :
    IsPath g (⟨target, targets g target⟩ :: ⟨node, pending⟩ :: below) := by
  refine .cons (fun v hv => hv) hoff ?_ h.follow
  intro f hf
  have hf' : f = ⟨node, pending⟩ := by simpa using hf.symm
  rw [hf']
  exact h.edge

/-- The path of a single node. -/
theorem single (start : String) : IsPath g [⟨start, targets g start⟩] :=
  .cons (fun _ hv => hv) rfl (by simp) .nil

/-- Against the direction of the edges, the nodes are linked from the end of the path on. -/
theorem isChain (h : IsPath g stack) :
    (stack.map Frame.node).IsChain (fun u v => Edge g v u) := by
  induction h with
  | nil => exact List.isChain_nil
  | @cons node pending below _ _ hlink _ ih =>
    cases below with
    | nil => exact List.isChain_singleton node
    | cons f rest => exact List.isChain_cons_cons.2 ⟨hlink f rfl, ih⟩

/-- The nodes of a path are distinct. -/
theorem nodup (h : IsPath g stack) : (stack.map Frame.node).Nodup := by
  induction h with
  | nil => exact List.nodup_nil
  | cons _ hnew _ _ ih =>
    refine List.nodup_cons.2 ⟨?_, ih⟩
    simpa [onPath] using hnew

end IsPath

/-! ## What an edge back to the path closes -/

/-- What is closed is the end of the path. -/
theorem closed_suffix (stack : List Frame) (target : String) :
    closed stack target <:+ (stack.map Frame.node).reverse := by
  rw [← List.map_reverse]
  exact List.dropWhile_suffix _

/-- What is closed starts at the node that the edge leads to. -/
theorem head?_closed {stack : List Frame} {target : String} (h : onPath stack target = true) :
    (closed stack target).head? = some target := by
  have hmem : target ∈ stack.reverse.map Frame.node := by
    rw [List.map_reverse, List.mem_reverse]
    simpa [onPath] using h
  unfold closed
  generalize stack.reverse.map Frame.node = path at hmem
  induction path with
  | nil => exact absurd hmem List.not_mem_nil
  | cons a rest ih =>
    by_cases ha : a = target
    · simp [ha]
    · have hrest : target ∈ rest := by
        rcases List.mem_cons.1 hmem with heq | hrest
        · exact absurd heq.symm ha
        · exact hrest
      rw [List.dropWhile_cons_of_pos (by simpa using ha)]
      exact ih hrest

/-- What is closed ends at the end of the path. -/
theorem getLast?_closed {f : Frame} {below : List Frame} {target : String}
    (h : onPath (f :: below) target = true) :
    (closed (f :: below) target).getLast? = some f.node := by
  obtain ⟨front, hfront⟩ := closed_suffix (f :: below) target
  have hne : closed (f :: below) target ≠ [] := by
    intro hnil
    have hhead := head?_closed h
    rw [hnil] at hhead
    cases hhead
  have hlast : (front ++ closed (f :: below) target).getLast? = some f.node := by
    rw [hfront]
    simp
  rw [List.getLast?_append_of_ne_nil _ hne] at hlast
  exact hlast

/-- An edge from the end of the path back to the path closes a cycle. -/
theorem IsPath.isCycle_closed {node target : String} {pending : List String} {below : List Frame}
    (h : IsPath g (⟨node, target :: pending⟩ :: below))
    (hon : onPath (⟨node, target :: pending⟩ :: below) target = true) :
    IsCycle g (closed (⟨node, target :: pending⟩ :: below) target) where
  distinct := (List.nodup_reverse.2 h.nodup).sublist (closed_suffix _ _).sublist
  edges := by
    have hchain := List.isChain_reverse.2 h.isChain
    exact hchain.suffix (closed_suffix _ _)
  closes := ⟨target, node, head?_closed hon, getLast?_closed hon, h.edge⟩

/-! ## The steps of the search -/

section Steps

variable {fresh : List String} {node target : String} {pending : List String} {below : List Frame}

/-- With nothing on the path the search is over. -/
theorem search_over : search g fresh [] = (fresh, []) := by
  rw [search]

/-- A node without edges to follow leaves the path. -/
theorem search_leave : search g fresh (⟨node, []⟩ :: below) = search g fresh below := by
  rw [search]

/-- An edge back to the path closes a cycle. -/
theorem search_close (hon : onPath (⟨node, target :: pending⟩ :: below) target = true) :
    search g fresh (⟨node, target :: pending⟩ :: below) =
      ((search g fresh (⟨node, pending⟩ :: below)).1,
        closed (⟨node, target :: pending⟩ :: below) target ::
          (search g fresh (⟨node, pending⟩ :: below)).2) := by
  rw [search, if_pos hon]

/-- An edge to a fresh node makes the path longer. -/
theorem search_enter (hoff : ¬onPath (⟨node, target :: pending⟩ :: below) target = true)
    (hfresh : target ∈ fresh) :
    search g fresh (⟨node, target :: pending⟩ :: below) =
      search g (without target fresh)
        (⟨target, targets g target⟩ :: ⟨node, pending⟩ :: below) := by
  rw [search, if_neg hoff, if_pos hfresh]

/-- An edge to any other node is passed over. -/
theorem search_pass (hoff : ¬onPath (⟨node, target :: pending⟩ :: below) target = true)
    (hseen : target ∉ fresh) :
    search g fresh (⟨node, target :: pending⟩ :: below) =
      search g fresh (⟨node, pending⟩ :: below) := by
  rw [search, if_neg hoff, if_neg hseen]

end Steps

/-! ## What the search closes -/

/-- From a path on, the search closes only cycles. -/
theorem isCycle_of_mem_search {fresh : List String} {stack : List Frame} (h : IsPath g stack) :
    ∀ cycle ∈ (search g fresh stack).2, IsCycle g cycle := by
  induction fresh, stack using search.induct g with
  | case1 fresh =>
    intro cycle hmem
    rw [search_over] at hmem
    exact absurd hmem List.not_mem_nil
  | case2 fresh node below ih =>
    rw [search_leave]
    exact ih h.tail
  | case3 fresh node target pending below left cycles heq hon ih =>
    intro cycle hmem
    rw [search_close hon] at hmem
    rcases List.mem_cons.1 hmem with hclosed | hmem
    · rw [hclosed]
      exact h.isCycle_closed hon
    · exact ih h.follow cycle hmem
  | case4 fresh node target pending below hfresh hoff ih =>
    rw [search_enter hoff hfresh]
    exact ih (h.extend (by simpa using hoff))
  | case5 fresh node target pending below hseen hoff ih =>
    rw [search_pass hoff hseen]
    exact ih h.follow

/-- Whatever the starts, the search closes only cycles. -/
theorem isCycle_of_mem_searchFrom {fresh starts : List String} :
    ∀ cycle ∈ searchFrom g fresh starts, IsCycle g cycle := by
  induction starts generalizing fresh with
  | nil =>
    intro cycle hmem
    exact absurd hmem List.not_mem_nil
  | cons start rest ih =>
    intro cycle hmem
    by_cases hfresh : start ∈ fresh
    · rw [searchFrom, if_pos hfresh] at hmem
      rcases List.mem_append.1 hmem with hmem | hmem
      · exact isCycle_of_mem_search (IsPath.single start) cycle hmem
      · exact ih cycle hmem
    · rw [searchFrom, if_neg hfresh] at hmem
      exact ih cycle hmem

end StoryRegistry.DependencyGraph
