import StoryRegistry.Analysis.Component

/-!
# Dependency graphs

A dependency graph lists the dependencies of each file. Its edges lead to the files that internal
dependencies resolve to.
-/

set_option autoImplicit false

namespace StoryRegistry

/-- The dependencies of each file, in the order in which the files were looked at. -/
abbrev DependencyGraph := Table (List Dependency)

/-- The file that an internal dependency leads to. -/
def Dependency.target? (d : Dependency) : Option String :=
  if d.kind = .internal then d.path.filter (!·.isEmpty) else none

namespace DependencyGraph

/-- The files that a file's internal dependencies lead to. -/
def targets (g : DependencyGraph) (node : String) : List String :=
  ((Table.get? node g).getD []).filterMap Dependency.target?

/-- Every file of the graph, and every file that an edge leads to. -/
def nodes (g : DependencyGraph) : List String :=
  Table.names g ++ g.flatMap fun (_, dependencies) => dependencies.filterMap Dependency.target?

/-- The nodes other than `node`. -/
def without (node : String) (nodes : List String) : List String := nodes.filter (· ≠ node)

end DependencyGraph

end StoryRegistry
