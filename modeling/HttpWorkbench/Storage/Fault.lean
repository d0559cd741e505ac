import HttpWorkbench.Text.Quoted

/-!
# File faults

Why a file cannot be opened.
-/

namespace HttpWorkbench

/-- Why a path cannot be opened as a file. -/
inductive FileReason where
  | notFound
  | notDirectory
  | isDirectory
  | nameTooLong
  deriving DecidableEq, Repr

/-- A path that cannot be opened, as written. -/
structure FileFault where
  reason : FileReason
  path : Text
  deriving DecidableEq, Repr

namespace FileReason

/-- The number of the system's error. -/
def number : FileReason → Nat
  | .notFound => 2
  | .notDirectory => 20
  | .isDirectory => 21
  | .nameTooLong => 36

/-- The words of the system's error. -/
def message : FileReason → Text
  | .notFound => "No such file or directory"
  | .notDirectory => "Not a directory"
  | .isDirectory => "Is a directory"
  | .nameTooLong => "File name too long"

end FileReason

/-- The fault in words. -/
def FileFault.message (f : FileFault) : Text :=
  "[Errno " ++ toString f.reason.number ++ "] " ++ f.reason.message ++ ": " ++ Text.quoted f.path

end HttpWorkbench
