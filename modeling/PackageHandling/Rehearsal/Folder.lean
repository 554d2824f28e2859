/-!
# An empty folder

What reading a path gives when the working folder holds no file: a folder cannot be read as
text, and nothing else is there.
-/

namespace PackageHandling
namespace Rehearsal
namespace Folder

/-- Why a path cannot be read. -/
inductive Refusal
  | notFound | isFolder | nameTooLong | zeroCharacter
  deriving DecidableEq, Inhabited

def Refusal.message : Refusal → String
  | notFound => "No such file or directory (os error 2)"
  | isFolder => "Is a directory (os error 21)"
  | nameTooLong => "File name too long (os error 36)"
  | zeroCharacter => "file name contained an unexpected NUL byte"

/-- The longest name and the longest path in bytes. -/
def longestName : Nat := 255

def longestPath : Nat := 4095

/-- A step that stays among the folders that are there. -/
def isPlain (step : String) : Bool := step = "" || step = "." || step = ".."

/-- The first step that leaves the folders that are there decides. -/
def refusal (path : String) : Refusal :=
  if path.toList.contains '\x00' then .zeroCharacter
  else if longestPath < path.utf8ByteSize then .nameTooLong
  else if path = "" then .notFound
  else
    match (path.splitOn "/").find? fun step => !isPlain step with
    | none => .isFolder
    | some step => if longestName < step.utf8ByteSize then .nameTooLong else .notFound

end Folder
end Rehearsal
end PackageHandling
