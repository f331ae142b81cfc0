import Mathlib.Logic.Relation
import StoryRegistry.Proofs.Graph.Path

/-!
# The cycles that the search reports

A node is settled once each of its edges closes a reported cycle or leads to a node that was settled
before. The search settles every node from which there is an edge, in the order in which the nodes
leave the path. Along edges that close nothing one comes from settled nodes only to nodes settled
before them, and so never back: every closed walk goes along an edge that closes a reported cycle.

What is reported is a simple chain of files of the graph: each has an internal dependency that
resolves to the next one, and the last has one that resolves to the first. The invariant of the search
(the stack is a path) gives the chain along the edges that the search follows; here those edges are
spelled out as dependencies. A file that imports itself is reported on its own: the edge that closes
some cycle leads from the file to itself, and a cycle with the same first and last node has no other
node.
-/

set_option autoImplicit false

namespace StoryRegistry.DependencyGraph

open Relation

/-! ## Closed walks -/

/-- Nodes that are walked along edges, at least one, back to where the walk began. -/
structure IsClosedWalk (g : DependencyGraph) (walk : List String) : Prop where
  /-- The walk goes along an edge at all. -/
  moves : 2 ≤ walk.length
  /-- The walk goes along edges. -/
  edges : walk.IsChain (Edge g)
  /-- The walk ends where it began. -/
  returns : walk.head? = walk.getLast?

/-- The walk goes from the one node right to the other. -/
def Uses (walk : List String) (u v : String) : Prop := [u, v] <:+: walk

/-- The edge leads from the last to the first node of one of the cycles. -/
def Closing (cycles : List (List String)) (u v : String) : Prop :=
  ∃ cycle ∈ cycles, cycle.getLast? = some u ∧ cycle.head? = some v

/-- The edge is there, and closes none of the cycles. -/
def OpenEdge (g : DependencyGraph) (cycles : List (List String)) (u v : String) : Prop :=
  Edge g u v ∧ ¬Closing cycles u v

/-- A cycle is walked around by starting at its first node and coming back to it. -/
theorem IsCycle.isClosedWalk {g : DependencyGraph} {cycle : List String} (h : IsCycle g cycle) :
    ∃ walk, IsClosedWalk g walk := by
  obtain ⟨first, last, hfirst, hlast, hedge⟩ := h.closes
  have hne : cycle ≠ [] := fun hnil => by simp [hnil] at hfirst
  refine ⟨cycle ++ [first], ?_, ?_, ?_⟩
  · have hpos := List.length_pos_iff.2 hne
    rw [List.length_append, List.length_singleton]
    omega
  · refine List.isChain_append.2 ⟨h.edges, List.isChain_singleton _, fun u hu v hv => ?_⟩
    have hu' : last = u := Option.some.inj (hlast.symm.trans hu)
    have hv' : first = v := by simpa using hv
    rw [← hu', ← hv']
    exact hedge
  · rw [List.head?_append_of_ne_nil _ hne, hfirst]
    simp

/-- A closed walk that goes along no closing edge comes back to its first node along open edges. -/
theorem IsClosedWalk.transGen {g : DependencyGraph} (cycles : List (List String))
    {walk : List String} (h : IsClosedWalk g walk)
    (hopen : ∀ u v, Uses walk u v → ¬Closing cycles u v) :
    ∃ u, TransGen (OpenEdge g cycles) u u := by
  have hchain : walk.IsChain (OpenEdge g cycles) := by
    refine List.isChain_iff_forall_rel_of_append_cons_cons.2 fun u v before after heq => ?_
    refine ⟨List.isChain_iff_forall_rel_of_append_cons_cons.1 h.edges heq, hopen u v ?_⟩
    exact ⟨before, after, by simp [heq]⟩
  obtain ⟨hmoves, -, hreturns⟩ := h
  match walk, hmoves, hreturns, hchain with
  | u :: v :: rest, _, hreturns, hchain =>
    obtain ⟨hfirst, hrest⟩ := List.isChain_cons_cons.1 hchain
    have hback : ReflTransGen (OpenEdge g cycles) v ((v :: rest).getLast (List.cons_ne_nil _ _)) :=
      List.relationReflTransGen_of_exists_isChain_cons rest hrest rfl
    have hlast : (v :: rest).getLast (List.cons_ne_nil _ _) = u := by
      have hsome : some u = some ((v :: rest).getLast (List.cons_ne_nil _ _)) := by
        simpa [List.getLast?_eq_some_getLast] using hreturns
      exact (Option.some.inj hsome).symm
    rw [hlast] at hback
    exact ⟨u, TransGen.head' hfirst hback⟩

/-! ## Settled nodes -/

section

variable {g : DependencyGraph} {cycles : List (List String)}

/-- Nodes, the latest first, that are settled: each edge closes a cycle or leads to an earlier one.
-/
inductive Settled (g : DependencyGraph) (cycles : List (List String)) : List String → Prop where
  | nil : Settled g cycles []
  | cons {u : String} {rest : List String} :
      (∀ v, OpenEdge g cycles u v → v ∈ rest) → Settled g cycles rest →
      Settled g cycles (u :: rest)

namespace Settled

variable {done : List String}

/-- An open edge leads from a settled node to a settled one. -/
theorem mem_of_openEdge (h : Settled g cycles done) {u v : String} (hu : u ∈ done)
    (hedge : OpenEdge g cycles u v) : v ∈ done := by
  induction h with
  | nil => exact absurd hu List.not_mem_nil
  | cons hhead _ ih =>
    rcases List.mem_cons.1 hu with rfl | hu
    · exact List.mem_cons_of_mem _ (hhead v hedge)
    · exact List.mem_cons_of_mem _ (ih hu)

/-- Open edges lead from a settled node to settled ones. -/
theorem mem_of_reflTransGen (h : Settled g cycles done) {u v : String} (hu : u ∈ done)
    (hreach : ReflTransGen (OpenEdge g cycles) u v) : v ∈ done := by
  induction hreach with
  | refl => exact hu
  | tail _ hedge ih => exact h.mem_of_openEdge ih hedge

/-- No open edges lead from a settled node back to it. -/
theorem not_transGen (h : Settled g cycles done) {u : String} (hu : u ∈ done) :
    ¬TransGen (OpenEdge g cycles) u u := by
  induction h with
  | nil => exact absurd hu List.not_mem_nil
  | @cons w rest hhead hrest ih =>
    rcases List.mem_cons.1 hu with rfl | hu
    · -- all that is reached from the latest node was settled earlier, so it would have been itself
      intro hloop
      obtain ⟨v, hedge, hreach⟩ := TransGen.head'_iff.1 hloop
      exact ih (hrest.mem_of_reflTransGen (hhead v hedge) hreach) hloop
    · exact ih hu

end Settled

/-! ## Under way -/

/-- Each open edge of a frame's node is still to be followed, leads to a settled node, or leads to
the node of the frame `above`. -/
inductive Explored (g : DependencyGraph) (cycles : List (List String)) (done : List String) :
    Option String → List Frame → Prop where
  | nil {above : Option String} : Explored g cycles done above []
  | cons {above : Option String} {f : Frame} {below : List Frame} :
      (∀ v, OpenEdge g cycles f.node v → v ∈ f.pending ∨ v ∈ done ∨ above = some v) →
      Explored g cycles done (some f.node) below → Explored g cycles done above (f :: below)

/-- How far the search has come: some nodes are settled, the edges on the path are explored, and
each node is fresh, on the path or settled. -/
structure Progress (g : DependencyGraph) (cycles : List (List String)) (fresh done : List String)
    (stack : List Frame) : Prop where
  settled : Settled g cycles done
  explored : Explored g cycles done none stack
  met : ∀ v ∈ nodes g, v ∈ fresh ∨ onPath stack v = true ∨ v ∈ done

/-- What is explored stays explored when one more node is settled. -/
theorem Explored.mono {done : List String} {above : Option String} {stack : List Frame}
    (node : String) (h : Explored g cycles done above stack) :
    Explored g cycles (node :: done) above stack := by
  induction h with
  | nil => exact .nil
  | cons hedges _ ih =>
    refine .cons (fun v hedge => ?_) ih
    rcases hedges v hedge with hpending | hdone | habove
    · exact Or.inl hpending
    · exact Or.inr (Or.inl (List.mem_cons_of_mem _ hdone))
    · exact Or.inr (Or.inr habove)

/-- What is explored stays explored when the node above is settled. -/
theorem Explored.settle {done : List String} {node : String} {stack : List Frame}
    (h : Explored g cycles done (some node) stack) :
    Explored g cycles (node :: done) none stack := by
  cases h with
  | nil => exact .nil
  | cons hedges hbelow =>
    refine .cons (fun v hedge => ?_) (hbelow.mono node)
    rcases hedges v hedge with hpending | hdone | habove
    · exact Or.inl hpending
    · exact Or.inr (Or.inl (List.mem_cons_of_mem _ hdone))
    · cases habove
      exact Or.inr (Or.inl List.mem_cons_self)

namespace Progress

variable {fresh done : List String} {node target : String} {pending : List String}
  {below : List Frame}

/-- A node that leaves the path is settled. -/
theorem leave (h : Progress g cycles fresh done (⟨node, []⟩ :: below)) :
    Progress g cycles fresh (node :: done) below where
  settled := by
    cases h.explored with
    | cons hedges _ =>
      refine .cons (fun v hedge => ?_) h.settled
      rcases hedges v hedge with hpending | hdone | habove
      · exact absurd hpending List.not_mem_nil
      · exact hdone
      · cases habove
  explored := by
    cases h.explored with
    | cons _ hbelow => exact hbelow.settle
  met v hv := by
    rcases h.met v hv with hfresh | hon | hdone
    · exact Or.inl hfresh
    · have hsplit : v = node ∨ onPath below v = true := by simpa [onPath] using hon
      rcases hsplit with rfl | hbelow
      · exact Or.inr (Or.inr List.mem_cons_self)
      · exact Or.inr (Or.inl hbelow)
    · exact Or.inr (Or.inr (List.mem_cons_of_mem _ hdone))

/-- An edge that closes a cycle or leads to a settled node has been dealt with. -/
theorem follow (h : Progress g cycles fresh done (⟨node, target :: pending⟩ :: below))
    (hdealt : Closing cycles node target ∨ target ∈ done) :
    Progress g cycles fresh done (⟨node, pending⟩ :: below) where
  settled := h.settled
  explored := by
    cases h.explored with
    | cons hedges hbelow =>
      refine .cons (fun v hedge => ?_) hbelow
      rcases hedges v hedge with hpending | hrest
      · rcases List.mem_cons.1 hpending with rfl | hpending
        · rcases hdealt with hclosing | hdone
          · exact absurd hclosing hedge.2
          · exact Or.inr (Or.inl hdone)
        · exact Or.inl hpending
      · exact Or.inr hrest
  met := h.met

/-- An edge to a fresh node puts that node on the path. -/
theorem enter (h : Progress g cycles fresh done (⟨node, target :: pending⟩ :: below)) :
    Progress g cycles (without target fresh) done
      (⟨target, targets g target⟩ :: ⟨node, pending⟩ :: below) where
  settled := h.settled
  explored := by
    cases h.explored with
    | cons hedges hbelow =>
      refine .cons (fun v hedge => Or.inl hedge.1) (.cons (fun v hedge => ?_) hbelow)
      rcases hedges v hedge with hpending | hdone | habove
      · rcases List.mem_cons.1 hpending with rfl | hpending
        · exact Or.inr (Or.inr rfl)
        · exact Or.inl hpending
      · exact Or.inr (Or.inl hdone)
      · cases habove
  met v hv := by
    by_cases htarget : v = target
    · exact Or.inr (Or.inl (by simp [onPath, htarget]))
    · rcases h.met v hv with hfresh | hon | hdone
      · exact Or.inl (List.mem_filter.2 ⟨hfresh, by simpa using htarget⟩)
      · refine Or.inr (Or.inl ?_)
        have hsplit : v = node ∨ onPath below v = true := by simpa [onPath] using hon
        rcases hsplit with rfl | hbelow
        · simp [onPath]
        · simp only [onPath, List.contains_iff_mem] at hbelow ⊢
          exact List.mem_cons_of_mem _ (List.mem_cons_of_mem _ hbelow)
      · exact Or.inr (Or.inr hdone)

/-- A search from a fresh node begins with that node on the path. -/
theorem start (h : Progress g cycles fresh done []) :
    Progress g cycles (without node fresh) done [⟨node, targets g node⟩] where
  settled := h.settled
  explored := .cons (fun _ hedge => Or.inl hedge.1) .nil
  met v hv := by
    by_cases hnode : v = node
    · exact Or.inr (Or.inl (by simp [onPath, hnode]))
    · rcases h.met v hv with hfresh | hon | hdone
      · exact Or.inl (List.mem_filter.2 ⟨hfresh, by simpa using hnode⟩)
      · exact absurd hon (by simp [onPath])
      · exact Or.inr (Or.inr hdone)

end Progress

/-! ## The search settles what it meets -/

/-- From a path on, the search settles the nodes of the path, if the cycles that it closes are among
the given ones. -/
theorem exists_progress_search {fresh done : List String} {stack : List Frame}
    (hpath : IsPath g stack) (h : Progress g cycles fresh done stack)
    (hcycles : ∀ cycle ∈ (search g fresh stack).2, cycle ∈ cycles) :
    ∃ settled, Progress g cycles (search g fresh stack).1 settled [] ∧
      (∀ v ∈ done, v ∈ settled) ∧ ∀ v, onPath stack v = true → v ∈ settled := by
  induction fresh, stack using search.induct g generalizing done with
  | case1 fresh =>
    rw [search_over]
    exact ⟨done, h, fun v hv => hv, fun v hv => absurd hv (by simp [onPath])⟩
  | case2 fresh node below ih =>
    rw [search_leave] at hcycles ⊢
    obtain ⟨settled, hprogress, hdone, hpathDone⟩ := ih hpath.tail h.leave hcycles
    refine ⟨settled, hprogress, fun v hv => hdone v (List.mem_cons_of_mem _ hv), fun v hv => ?_⟩
    have hsplit : v = node ∨ onPath below v = true := by simpa [onPath] using hv
    rcases hsplit with rfl | hbelow
    · exact hdone v List.mem_cons_self
    · exact hpathDone v hbelow
  | case3 fresh node target pending below left found heq hon ih =>
    rw [search_close hon] at hcycles ⊢
    -- the cycle that the edge closes is reported here, so the edge may stay unexplored
    have hclosing : Closing cycles node target :=
      ⟨_, hcycles _ List.mem_cons_self, getLast?_closed hon, head?_closed hon⟩
    exact ih hpath.follow (h.follow (Or.inl hclosing))
      fun cycle hmem => hcycles cycle (List.mem_cons_of_mem _ hmem)
  | case4 fresh node target pending below hfresh hoff ih =>
    rw [search_enter hoff hfresh] at hcycles ⊢
    obtain ⟨settled, hprogress, hdone, hpathDone⟩ :=
      ih (hpath.extend (by simpa using hoff)) h.enter hcycles
    refine ⟨settled, hprogress, hdone, fun v hv => hpathDone v ?_⟩
    simp only [onPath, List.contains_iff_mem] at hv ⊢
    exact List.mem_cons_of_mem _ hv
  | case5 fresh node target pending below hseen hoff ih =>
    rw [search_pass hoff hseen] at hcycles ⊢
    -- every node is fresh, on the path or done, and the first two were ruled out
    have hdone : target ∈ done := by
      rcases h.met target hpath.edge.mem_nodes with hfresh | hon | hdone
      · exact absurd hfresh hseen
      · exact absurd hon hoff
      · exact hdone
    exact ih hpath.follow (h.follow (Or.inr hdone)) hcycles

/-- Whatever the starts, each of them is settled in the end, if the cycles that are closed are among
the given ones. -/
theorem exists_settled_searchFrom {fresh done starts : List String}
    (h : Progress g cycles fresh done []) (hstarts : ∀ start ∈ starts, start ∈ nodes g)
    (hcycles : ∀ cycle ∈ searchFrom g fresh starts, cycle ∈ cycles) :
    ∃ settled, Settled g cycles settled ∧ (∀ v ∈ done, v ∈ settled) ∧
      ∀ start ∈ starts, start ∈ settled := by
  induction starts generalizing fresh done with
  | nil => exact ⟨done, h.settled, fun v hv => hv, fun v hv => absurd hv List.not_mem_nil⟩
  | cons start rest ih =>
    have hrest : ∀ next ∈ rest, next ∈ nodes g :=
      fun next hnext => hstarts next (List.mem_cons_of_mem _ hnext)
    by_cases hfresh : start ∈ fresh
    · rw [searchFrom, if_pos hfresh] at hcycles
      obtain ⟨met, hprogress, hmet, hpath⟩ := exists_progress_search (IsPath.single start) h.start
        fun cycle hmem => hcycles cycle (List.mem_append_left _ hmem)
      obtain ⟨settled, hsettled, hdone, hall⟩ := ih hprogress hrest
        fun cycle hmem => hcycles cycle (List.mem_append_right _ hmem)
      refine ⟨settled, hsettled, fun v hv => hdone v (hmet v hv), fun next hnext => ?_⟩
      rcases List.mem_cons.1 hnext with rfl | hnext
      · exact hdone next (hpath next (by simp [onPath]))
      · exact hall next hnext
    · -- a start that is not fresh was settled from an earlier one
      rw [searchFrom, if_neg hfresh] at hcycles
      obtain ⟨settled, hsettled, hdone, hall⟩ := ih h hrest hcycles
      refine ⟨settled, hsettled, hdone, fun next hnext => ?_⟩
      rcases List.mem_cons.1 hnext with rfl | hnext
      · rcases h.met next (hstarts next List.mem_cons_self) with hmem | hon | hmem
        · exact absurd hmem hfresh
        · exact absurd hon (by simp [onPath])
        · exact hdone next hmem
      · exact hall next hnext

/-- Along edges that close no reported cycle no node leads back to itself. -/
theorem openEdge_acyclic (g : DependencyGraph) (u : String) :
    ¬TransGen (OpenEdge g (DependencyGraph.cycles g)) u u := by
  intro hloop
  have hinitial : Progress g (DependencyGraph.cycles g) (nodes g) [] [] :=
    ⟨.nil, .nil, fun v hv => Or.inl hv⟩
  obtain ⟨settled, hsettled, -, hall⟩ := exists_settled_searchFrom hinitial
    (fun start hstart => mem_nodes_of_mem_names hstart) fun cycle hmem => hmem
  obtain ⟨v, hedge, -⟩ := TransGen.head'_iff.1 hloop
  exact hsettled.not_transGen (hall u hedge.1.mem_names) hloop

/-- The search is complete: every closed walk goes along an edge that closes a reported cycle, so
that without those edges no node leads back to itself, and no cycle is reported exactly when there
is no closed walk. -/
theorem cycles_complete (g : DependencyGraph) :
    (∀ walk, IsClosedWalk g walk → ∃ u v, Uses walk u v ∧ Closing (DependencyGraph.cycles g) u v) ∧
      (∀ u, ¬TransGen (OpenEdge g (DependencyGraph.cycles g)) u u) ∧
      (DependencyGraph.cycles g = [] ↔ ∀ walk, ¬IsClosedWalk g walk) := by
  have hwalk : ∀ walk, IsClosedWalk g walk →
      ∃ u v, Uses walk u v ∧ Closing (DependencyGraph.cycles g) u v := by
    intro walk h
    by_contra hnone
    obtain ⟨u, hloop⟩ := h.transGen (DependencyGraph.cycles g)
      fun u v huses hclosing => hnone ⟨u, v, huses, hclosing⟩
    exact openEdge_acyclic g u hloop
  refine ⟨hwalk, openEdge_acyclic g, ?_⟩
  constructor
  · intro hempty walk h
    obtain ⟨u, v, -, cycle, hmem, -⟩ := hwalk walk h
    rw [hempty] at hmem
    exact absurd hmem List.not_mem_nil
  · intro hnone
    refine List.eq_nil_iff_forall_not_mem.2 fun cycle hmem => ?_
    obtain ⟨walk, h⟩ := (isCycle_of_mem_searchFrom cycle hmem).isClosedWalk
    exact hnone walk h

end

/-! ## Only cycles are reported -/

variable {g : DependencyGraph}

/-- The graph lists an internal dependency of the one file that is resolved to the other path. -/
def Imports (g : DependencyGraph) (u v : String) : Prop :=
  ∃ dependencies, Table.get? u g = some dependencies ∧
    ∃ d ∈ dependencies, d.kind = .internal ∧ d.path = some v ∧ v ≠ ""

/-- A dependency leads to a path if it is internal and resolved to that path. -/
theorem target?_eq_some_iff {d : Dependency} {v : String} :
    d.target? = some v ↔ d.kind = .internal ∧ d.path = some v ∧ v ≠ "" := by
  unfold Dependency.target?
  split
  · rename_i hkind
    rw [Option.filter_eq_some_iff]
    simp [hkind]
  · rename_i hkind
    simp [hkind]

/-- The edges that the search follows are the internal dependencies with a resolved path. -/
theorem edge_iff_imports {u v : String} : Edge g u v ↔ Imports g u v := by
  unfold Edge Imports targets
  cases hget : Table.get? u g with
  | none => simp
  | some dependencies => simp [List.mem_filterMap, target?_eq_some_iff]

/-- The nodes of a cycle are files of the graph: an edge leaves each of them. -/
theorem IsCycle.mem_names {cycle : List String} (h : IsCycle g cycle) :
    ∀ u ∈ cycle, u ∈ Table.names g := by
  intro u hu
  obtain ⟨first, last, -, hlast, hback⟩ := h.closes
  obtain ⟨before, after, rfl⟩ := List.append_of_mem hu
  cases after with
  | nil =>
    -- the last node is the one that the closing edge leaves
    have hu : u = last := by simpa using hlast
    rw [hu]
    exact hback.mem_names
  | cons next after =>
    have hedge : Edge g u next := List.isChain_iff_forall_rel_of_append_cons_cons.1 h.edges rfl
    exact hedge.mem_names

/-- A cycle whose first node is its last has no other node. -/
theorem IsCycle.eq_singleton {cycle : List String} (h : IsCycle g cycle) {u : String}
    (hfirst : cycle.head? = some u) (hlast : cycle.getLast? = some u) : cycle = [u] := by
  cases cycle with
  | nil => simp at hfirst
  | cons first rest =>
    have hu : first = u := by simpa using hfirst
    subst hu
    cases rest with
    | nil => rfl
    | cons next rest =>
      have hmem : first ∈ next :: rest := by
        rw [List.getLast?_cons_cons] at hlast
        exact List.mem_of_getLast? hlast
      exact absurd hmem (List.nodup_cons.1 h.distinct).1

/-- A file with an edge to itself is reported as a cycle of one node. -/
theorem singleton_mem_cycles {u : String} (h : Edge g u u) : [u] ∈ cycles g := by
  have hclosing : Closing (cycles g) u u := by
    by_contra hopen
    exact openEdge_acyclic g u (Relation.TransGen.single ⟨h, hopen⟩)
  obtain ⟨cycle, hmem, hlast, hfirst⟩ := hclosing
  rwa [← (isCycle_of_mem_searchFrom cycle hmem).eq_singleton hfirst hlast]

/-- The search is sound: each list it reports is a non-empty list of distinct files of the graph, each
with an internal dependency that is resolved to the next, and the last with one that is resolved to
the first; and each file that imports itself is reported on its own. -/
theorem cycles_sound (g : DependencyGraph) :
    (∀ cycle ∈ cycles g,
      cycle ≠ [] ∧ cycle.Nodup ∧ (∀ u ∈ cycle, u ∈ Table.names g) ∧ cycle.IsChain (Imports g) ∧
        ∃ first last, cycle.head? = some first ∧ cycle.getLast? = some last ∧
          Imports g last first) ∧
      ∀ u, Imports g u u → [u] ∈ cycles g := by
  constructor
  · intro cycle hmem
    have h : IsCycle g cycle := isCycle_of_mem_searchFrom cycle hmem
    obtain ⟨first, last, hfirst, hlast, hback⟩ := h.closes
    refine ⟨?_, h.distinct, h.mem_names, ?_, first, last, hfirst, hlast, edge_iff_imports.1 hback⟩
    · rintro rfl
      simp at hfirst
    · exact h.edges.imp fun u v hedge => edge_iff_imports.1 hedge
  · intro u himports
    exact singleton_mem_cycles (edge_iff_imports.2 himports)

end StoryRegistry.DependencyGraph
