import Uniproc.File.Path

/-!
What reading a file gives. A view stands for all files at one moment: it answers
every path with the bytes of the file there or with the reason why there is none.
-/

namespace Uniproc

inductive ReadFault
  | notFound
  | denied
  | notDirectory
  | isDirectory
  | nameTooLong
deriving DecidableEq, Repr

/-- The number and the words of the system's own error. -/
def ReadFault.describe : ReadFault → Nat × String
  | .notFound => (2, "No such file or directory")
  | .denied => (13, "Permission denied")
  | .notDirectory => (20, "Not a directory")
  | .isDirectory => (21, "Is a directory")
  | .nameTooLong => (36, "File name too long")

abbrev FileView := Path → Except ReadFault (List UInt8)

end Uniproc
