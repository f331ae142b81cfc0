import StoryRegistry.Graph.Basic

/-!
# Cycles in a dependency graph

A depth-first search with a stack of its own. The stack holds the path from a start to the node
under consideration, each node with the edges that are still to be followed. An edge to a node on
the path closes a cycle; an edge to a fresh node extends the path; any other edge leads to a node
whose search is over.
-/

set_option autoImplicit false

namespace StoryRegistry.DependencyGraph

/-- A node on the path, with the targets of the edges that are still to be followed. -/
structure Frame where
  node : String
  pending : List String
deriving DecidableEq

/-- The nodes from `target` on, along the path to the top of the stack. -/
def closed (stack : List Frame) (target : String) : List String :=
  (stack.reverse.map Frame.node).dropWhile (· != target)

/-- The node is on the path. -/
def onPath (stack : List Frame) (target : String) : Bool :=
  (stack.map Frame.node).contains target

/-- What is left to do on the path. -/
def effort : List Frame → Nat
  | [] => 0
  | frame :: below => frame.pending.length + 1 + effort below

/-- What is left to do at nodes that are still fresh. -/
def freshEffort (g : DependencyGraph) : List String → Nat
  | [] => 0
  | node :: rest => (targets g node).length + 1 + freshEffort g rest

/-- Without a node there is no more left to do. -/
theorem freshEffort_without_le (g : DependencyGraph) (node : String) (fresh : List String) :
    freshEffort g (without node fresh) ≤ freshEffort g fresh := by
  induction fresh with
  | nil => exact Nat.le_refl _
  | cons other rest ih =>
    unfold without at ih ⊢
    by_cases h : other = node
    · rw [List.filter_cons_of_neg (by simpa using h), freshEffort]
      omega
    · rw [List.filter_cons_of_pos (by simpa using h), freshEffort, freshEffort]
      omega

/-- Without a fresh node there is less left to do, by what there is to do at the node. -/
theorem freshEffort_without_of_mem {g : DependencyGraph} {node : String} {fresh : List String}
    (h : node ∈ fresh) :
    (targets g node).length + 1 + freshEffort g (without node fresh) ≤ freshEffort g fresh := by
  induction fresh with
  | nil => exact absurd h List.not_mem_nil
  | cons other rest ih =>
    by_cases hnode : other = node
    · have hrest := freshEffort_without_le g node rest
      unfold without at hrest ⊢
      rw [List.filter_cons_of_neg (by simpa using hnode), freshEffort, hnode]
      omega
    · have hmem : node ∈ rest := by
        rcases List.mem_cons.1 h with heq | hmem
        · exact absurd heq.symm hnode
        · exact hmem
      have hrest := ih hmem
      unfold without at hrest ⊢
      rw [List.filter_cons_of_pos (by simpa using hnode), freshEffort, freshEffort]
      omega

/-- Searches on from the path on the stack, whose top comes first. `fresh` holds the nodes that were
never on a path; the result is what is left of it, and the cycles in the order in which they are
closed. -/
def search (g : DependencyGraph) (fresh : List String) (stack : List Frame) :
    List String × List (List String) :=
  match stack with
  | [] => (fresh, [])
  | ⟨_, []⟩ :: below => search g fresh below
  | ⟨node, target :: pending⟩ :: below =>
    if onPath stack target then
      let (left, cycles) := search g fresh (⟨node, pending⟩ :: below)
      (left, closed stack target :: cycles)
    else if target ∈ fresh then
      search g (without target fresh) (⟨target, targets g target⟩ :: ⟨node, pending⟩ :: below)
    else search g fresh (⟨node, pending⟩ :: below)
termination_by freshEffort g fresh + effort stack
decreasing_by
  · simp [effort]
  · simp [effort]
  · have hfewer := @freshEffort_without_of_mem g target fresh (by assumption)
    simp only [effort, List.length_cons]
    omega
  · simp [effort]

/-- Searches from each of the starts that is still fresh. -/
def searchFrom (g : DependencyGraph) (fresh : List String) : List String → List (List String)
  | [] => []
  | start :: rest =>
    if start ∈ fresh then
      let (left, cycles) := search g (without start fresh) [⟨start, targets g start⟩]
      cycles ++ searchFrom g left rest
    else searchFrom g fresh rest

/-- The cycles that the search closes, in the order in which it closes them. Each is a list of nodes
with an edge from every node to the next one, and from the last to the first. -/
def cycles (g : DependencyGraph) : List (List String) := searchFrom g (nodes g) (Table.names g)

end StoryRegistry.DependencyGraph
