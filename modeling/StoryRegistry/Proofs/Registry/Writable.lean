import StoryRegistry.Proofs.Registry.Dependencies
import StoryRegistry.Proofs.Registry.Ownership
import StoryRegistry.Proofs.Value.Writable

/-!
# Items and registries that can be written

What an item says comes from a story file: its title, description and dependencies, its style
variables and style sheet settings. Where the texts in the story file have a UTF-8 form and its
integers are not too long, the documents of its item and of a registry with the item can be written.
-/

set_option autoImplicit false

namespace StoryRegistry

open Text Value

/-- The texts that a story file hands on have a UTF-8 form, and its integers can be written. -/
structure StoryFile.CanWrite (f : StoryFile) : Prop where
  component : isWritable f.componentName = true
  title : ∀ t ∈ f.metadata.title, isWritable t = true
  parameters : Value.CanWrite (.map f.metadata.parameterTable)
  args : Value.CanWrite (.map (f.metadata.args.getD []))
  stories : ∀ entry ∈ f.stories,
    isWritable entry.1 = true ∧ Value.CanWrite (.map (entry.2.args.getD []))
  dependencies : ∀ specifier ∈ f.dependencies, isWritable specifier = true

instance (f : StoryFile) : Decidable f.CanWrite :=
  decidable_of_iff (isWritable f.componentName = true ∧
      (∀ t ∈ f.metadata.title, isWritable t = true) ∧
      Value.CanWrite (.map f.metadata.parameterTable) ∧
      Value.CanWrite (.map (f.metadata.args.getD [])) ∧
      (∀ entry ∈ f.stories,
        isWritable entry.1 = true ∧ Value.CanWrite (.map (entry.2.args.getD []))) ∧
      ∀ specifier ∈ f.dependencies, isWritable specifier = true)
    ⟨fun ⟨hcomponent, htitle, hparameters, hargs, hstories, hdependencies⟩ =>
      ⟨hcomponent, htitle, hparameters, hargs, hstories, hdependencies⟩,
    fun h => ⟨h.component, h.title, h.parameters, h.args, h.stories, h.dependencies⟩⟩

/-- The other names of dependencies and the registry's home page have a UTF-8 form. -/
structure Settings.CanWrite (settings : Settings) : Prop where
  homepage : ∀ page ∈ settings.homepage, isWritable page = true
  renames : ∀ entry ∈ settings.renames, isWritable entry.2 = true

namespace Assembly

variable {settings : Settings} {f : StoryFile} {analysis : Option Analysis}

/-! ## The parts of an item -/

end Assembly

end StoryRegistry
