import StoryRegistry.Session.Output

/-!
# Exporting a registry

An export makes the registry of all story files and writes it, whole or item by item, into the
registry's folder or another one. Unlike a run that keeps a registry in step it fails where the
pipeline fails.
-/

set_option autoImplicit false

namespace StoryRegistry.Export

/-- How a registry is written. -/
inductive Format where
  /-- As one document. -/
  | registry
  /-- Each item as a document of its own. -/
  | individual
deriving DecidableEq, Inhabited

namespace Format

/-- All formats. -/
def all : List Format := [registry, individual]

/-- The name of a format. -/
def text : Format → String
  | registry => "registry"
  | individual => "individual"

/-- The format of that name. -/
def ofText (s : String) : Except Failure Format :=
  match all.find? fun f => f.text == s with
  | some f => .ok f
  | none => .error (.unknownFormat s)

end Format

/-- What an export is asked to do. -/
structure Options where
  format : Format := .registry
  /-- Pages are written as well. -/
  withPages : Bool := false
  /-- The folder to write to, if not the registry's. -/
  output : Option Path := none
deriving Inhabited

/-- Makes the registry; a failure of the pipeline becomes a failure of the export. -/
def produce (settings : Settings) (paths : List String) : Run Pipeline.Product := do
  match ← Run.attempt (Pipeline.run settings paths) with
  | .ok product => return product
  | .error e => if e.code?.isSome then throw (.exportFailed e) else throw e

/-- Writes a registry to a folder. -/
def write (folder : Path) (r : Registry) : Format → Run Unit
  | .registry => do
    Output.writeRegistry folder r
    Run.tell .info ("Registry exported to " ++ (Output.registryFile folder).toText)
  | .individual => do
    Output.writeItems folder r.items
    Run.tell .info
      (toString r.items.length ++ " individual items exported to " ++ folder.toText)

/-- Writes the registry of all story files. -/
def run (settings : Settings) (options : Options) : Run Report := do
  Run.note fun _ => {}
  let folder := options.output.getD settings.registryPath
  let product ← produce settings (← Discovery.storyFiles settings)
  write folder product.registry options.format
  Run.when options.withPages (Output.writePages folder product.stories product.registry.items)
  Run.note fun r => { r with
    registry := some product.registry
    generated := product.registry.items.length
    success := true }
  return (← get).report

end StoryRegistry.Export
