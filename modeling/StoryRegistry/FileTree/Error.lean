import StoryRegistry.Text.Quoted
import StoryRegistry.Text.Utf8

/-!
# What can go wrong with a file

A fault has a number and a text of its own, and is reported with the path at which it arose. Two more
things can go wrong: the bytes of a file may be no text, and a path or a text may hold what
cannot be written.
-/

set_option autoImplicit false

namespace StoryRegistry

/-- Why a place in a file tree cannot be used in some way. -/
inductive Fault where
  | missing
  | occupied
  | notFolder
  | isFolder
  | nameTooLong
deriving DecidableEq, Inhabited

namespace Fault

/-- The number of a fault. -/
def number : Fault → Nat
  | missing => 2
  | occupied => 17
  | notFolder => 20
  | isFolder => 21
  | nameTooLong => 36

/-- The text of a fault. -/
def text : Fault → String
  | missing => "No such file or directory"
  | occupied => "File exists"
  | notFolder => "Not a directory"
  | isFolder => "Is a directory"
  | nameTooLong => "File name too long"

end Fault

/-- Why an operation on a file failed. -/
inductive FileError where
  /-- The place that the path names cannot be used. -/
  | fault (kind : Fault) (path : String)
  /-- The bytes of the file are no text. -/
  | malformed (bytes : Text.BadBytes)
  /-- The path holds the character NUL. -/
  | nullInPath
  /-- A path or a text has no UTF-8 form. -/
  | unwritable
deriving DecidableEq, Inhabited

namespace FileError

/-- The message. -/
def message : FileError → String
  | fault kind path =>
    "[Errno " ++ toString kind.number ++ "] " ++ kind.text ++ ": " ++ Text.literal path
  | malformed bad =>
    let place :=
      if bad.count == 1 then
        "byte 0x" ++ String.ofList (Text.hexDigits 2 bad.byte) ++ " in position " ++ toString bad.first
      else
        "bytes in position " ++ toString bad.first ++ "-" ++ toString (bad.first + bad.count - 1)
    "'utf-8' codec can't decode " ++ place ++ ": " ++ bad.reason.text
  | nullInPath => "embedded null byte"
  | unwritable => ""

/-- The place is at fault, not the text. -/
def isFault : FileError → Bool
  | fault _ _ => true
  | _ => false

/-- Reading the file failed: its place is at fault or it holds no text. -/
def isUnreadable : FileError → Bool
  | fault _ _ | malformed _ => true
  | _ => false

/-- Nothing is there, or nothing can be there. -/
def isAbsence : FileError → Bool
  | fault .missing _ | fault .notFolder _ | nullInPath | unwritable => true
  | _ => false

end FileError

end StoryRegistry
