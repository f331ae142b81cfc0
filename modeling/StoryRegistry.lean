import StoryRegistry.Story.Reading
import StoryRegistry.Story.Recognition
import StoryRegistry.Analysis.Measuring
import StoryRegistry.Graph.Cycles
import StoryRegistry.Registry.Assembly
import StoryRegistry.Docs.Page
import StoryRegistry.Settings.Reading
import StoryRegistry.Session.Sync
import StoryRegistry.Command.Answer
import StoryRegistry.Main
import StoryRegistry.Proofs.Registry.Selection
import StoryRegistry.Proofs.Registry.Acceptance
import StoryRegistry.Proofs.Graph.Cycles
import StoryRegistry.Proofs.Graph.Reach
import StoryRegistry.Proofs.Session.Documentation
import StoryRegistry.Proofs.Session.Incremental
import StoryRegistry.Proofs.Session.Outputs
import StoryRegistry.Proofs.Story.Order
import StoryRegistry.Proofs.Script.Extraction
import StoryRegistry.Proofs.Session.Reporting
import StoryRegistry.Proofs.Session.Repeating
import StoryRegistry.Proofs.Path.Relative
import StoryRegistry.Proofs.Registry.Normalising
import StoryRegistry.Proofs.Session.Setup
import StoryRegistry.Proofs.Session.Sharing
import StoryRegistry.Proofs.Session.Stopping
import StoryRegistry.Proofs.Glob.Template
import StoryRegistry.Proofs.Glob.Rule
import StoryRegistry.Proofs.Session.Accounting
import StoryRegistry.Proofs.Session.Statistics
import StoryRegistry.Proofs.Analysis.Props
import StoryRegistry.Proofs.Analysis.Complexity
import StoryRegistry.Proofs.Graph.Repetition
import StoryRegistry.Proofs.Import.Location
import StoryRegistry.Proofs.Story.Assignments
import StoryRegistry.Proofs.Story.Recognition
import StoryRegistry.Proofs.Docs.Imports
import StoryRegistry.Proofs.Docs.Installation
import StoryRegistry.Proofs.Docs.Snippet
import StoryRegistry.Proofs.Session.Components
import StoryRegistry.Proofs.Naming.Kebab
import StoryRegistry.Proofs.Story.Shape
import StoryRegistry.Proofs.Session.Relocation
