import Uniproc.Program.Decode
import Uniproc.Text.Lines

/-!
Programs in files.
-/

namespace Uniproc

/-- Names of files are taken from the directory `base`; `limit` is the greatest
length of a program. -/
structure Loader where
  base : Path := .here
  limit : Int := Program.defaultLimit
deriving DecidableEq, Repr, Inhabited

namespace Loader

def resolve (loader : Loader) (name : String) : Path :=
  loader.base.join (.ofString name)

/-- The program in the file of the given name. Line numbers in faults count the lines
as `Text.lines` cuts them. Neither the name nor the text has halves of surrogate pairs. -/
def load (loader : Loader) (files : FileView) (name : String) : Except Fault Program :=
  let path := loader.resolve name
  if path.hasNull then .error .nullInPath
  else match files path with
    | .error _ => .error (.load (.unreadable name))
    | .ok bytes => match Utf8.decode bytes with
      | .error fault => .error (.load (.notText name fault.reason fault.start))
      | .ok text => Program.decode (Text.lines (Text.unifyNewlines text)) name loader.limit

end Loader
end Uniproc
