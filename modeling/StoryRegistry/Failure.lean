import StoryRegistry.FileTree.Error
import StoryRegistry.Settings.Error

/-!
# Failures

Every cause for which a step of the pipeline gives up, with its message, its code and the file it
belongs to.
-/

set_option autoImplicit false

namespace StoryRegistry

/-- Why a step of the pipeline gave up. -/
inductive Failure where
  /-- The story file could not be read. -/
  | unreadableStory (file : String) (cause : FileError)
  /-- The story file has no meta. -/
  | missingMeta (file : String)
  /-- No story file could be read. -/
  | noStoryRead (causes : List Failure)
  /-- The imports of a file could not be collected. -/
  | unreadableImports (file : String) (cause : FileError)
  /-- An item would overwrite the registry document. -/
  | reservedName (name file : String)
  /-- An item breaks the schema; `name` is missing where the document has none. -/
  | invalidItem (name : Option String) (issues : List String) (file : Option String)
  /-- The registry document breaks the schema. -/
  | invalidRegistry (issues : List String)
  /-- There is no export of that format. -/
  | unknownFormat (format : String)
  /-- An export failed for the given cause. -/
  | exportFailed (cause : Failure)
  /-- What was written as the registry document cannot be read again. -/
  | brokenRegistry (file : String)
  /-- An operation on a file failed. -/
  | file (cause : FileError)
  /-- The settings cannot be used. -/
  | settings (cause : SettingsError)
  /-- Reading files was refused, in the words given. -/
  | readRefused (words : String)
  /-- A number has no value of its kind: an integer with too many digits, a date that does not
  exist, or a time that is none. -/
  | badNumber
  /-- An integer lies beyond all numbers of the binary64 format. -/
  | tooLarge
  /-- A document lacks an entry. -/
  | missingEntry (name : String)
  /-- An entry of a document is not of the type that its use asks for. -/
  | wrongType
  /-- An entry of a document lacks the operation that its use asks for. -/
  | wrongOperation
  /-- A text that must not be empty is. -/
  | outOfRange
  /-- A file pattern is empty, or holds `**` inside a longer segment. -/
  | badPattern
  /-- A file pattern is absolute. -/
  | absolutePattern
deriving Inhabited

namespace Failure

/-- The name of the registry document, which no item may take. -/
def registryFileName : String := "registry.json"

mutual

/-- The message. -/
def message : Failure → String
  | unreadableStory _ cause => "Failed to parse story file: " ++ cause.message
  | missingMeta _ => "No default export (meta) found in story file"
  | noStoryRead causes =>
    "Failed to parse any story files. Errors: " ++ "; ".intercalate (messages causes)
  | unreadableImports _ cause => "Failed to analyze dependencies: " ++ cause.message
  | reservedName name _ => "Item name '" ++ name ++ "' is reserved"
  | invalidItem name _ _ =>
    "Generated registry item '" ++ name.getD "<unnamed>" ++ "' is invalid"
  | invalidRegistry _ => "Generated registry is invalid"
  | unknownFormat format => "Unknown export format '" ++ format ++ "'"
  | exportFailed cause => "Export failed: " ++ cause.message
  | brokenRegistry _ => "Written registry is not valid JSON"
  | file cause => cause.message
  | settings cause => cause.message
  | readRefused words => words
  | missingEntry name => Text.literal name
  | badNumber | tooLarge | wrongType | wrongOperation | outOfRange
  | badPattern | absolutePattern => ""

/-- The messages of several causes. -/
def messages : List Failure → List String
  | [] => []
  | cause :: rest => cause.message :: messages rest

end

/-- The machine-readable code, for failures that have one. -/
def code? : Failure → Option String
  | unreadableStory _ _ => some "PARSE_ERROR"
  | missingMeta _ => some "NO_META_EXPORT"
  | noStoryRead _ => some "PARSE_ALL_FAILED"
  | unreadableImports _ _ => some "DEPENDENCY_ANALYSIS_ERROR"
  | reservedName _ _ | invalidItem _ _ _ => some "REGISTRY_ITEM_VALIDATION_ERROR"
  | invalidRegistry _ | brokenRegistry _ => some "REGISTRY_VALIDATION_ERROR"
  | unknownFormat _ | exportFailed _ => some "EXPORT_FAILED"
  | _ => none

/-- The failure is a verdict on a document of the registry. -/
def isVerdict : Failure → Bool
  | reservedName _ _ | invalidItem _ _ _ | invalidRegistry _ | brokenRegistry _ => true
  | _ => false

/-- The file the failure belongs to. -/
def file? : Failure → Option String
  | unreadableStory path _ | missingMeta path | unreadableImports path _ | reservedName _ path
  | brokenRegistry path => some path
  | invalidItem _ _ path => path
  | _ => none

/-- The issues found in a document. -/
def issues : Failure → List String
  | reservedName name _ => ["name: '" ++ name ++ "' would overwrite " ++ registryFileName]
  | invalidItem _ issues _ | invalidRegistry issues => issues
  | _ => []

end Failure

end StoryRegistry
