/-!
# Faults of file operations

Why a file could not be read, written, listed or found, with the text by which the operating system
names the reason.
-/

namespace SdkWiring

/-- Why a file operation failed. -/
inductive Fault
  | notFound
  | alreadyExists
  | notDirectory
  | isDirectory
  | tooManyLinks
  /-- The file does not hold text. -/
  | notText
  /-- Any other reason. -/
  | other (reason : String)
  deriving DecidableEq, Repr

namespace Fault

/-- The reason as the operating system words it. -/
def message : Fault → String
  | notFound => "No such file or directory (os error 2)"
  | alreadyExists => "File exists (os error 17)"
  | notDirectory => "Not a directory (os error 20)"
  | isDirectory => "Is a directory (os error 21)"
  | tooManyLinks => "Too many levels of symbolic links (os error 40)"
  | notText => "stream did not contain valid UTF-8"
  | other reason => reason

end Fault

end SdkWiring
