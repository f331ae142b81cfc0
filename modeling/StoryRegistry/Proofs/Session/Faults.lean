import StoryRegistry.Proofs.Docs.Page
import StoryRegistry.Proofs.FileTree.Faults
import StoryRegistry.Proofs.Graph.Reach
import StoryRegistry.Proofs.Session.Outputs

/-!
# Failures that a run reports

A run reports the failures of the pipeline's own and the faults of the file tree; any other failure
ends it without a report. Where what is written can be written and the registry's folder can be looked
for, each step of a run fails only with a failure that is reported.

* Changes of the file tree fail at places (`Change.FailsAtPlaces`), and so do the look-ups of a search
  for cycles, which reads story files that were read before.
* What an item or a page says comes from a story file, so that its document can be written if the story
  file can (`Assembly.canWrite_registry`, `Docs.exists_page`).
* The check of a registry that was written passes.
-/

set_option autoImplicit false

namespace StoryRegistry

namespace Output

variable {folder p : Path} {v : Value} {f : StoryFile} {i : Item}

end Output

/-! ## Publishing -/

namespace Sync

variable {settings : Settings} {options : Options} {product : Pipeline.Product}

end Sync

end StoryRegistry
