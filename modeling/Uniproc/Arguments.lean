import Uniproc.Fault
import Uniproc.Text.Digit
import Uniproc.Text.Pieces
import Uniproc.Text.Quoted

/-!
The command line: one program file, and options. An option may be shortened as long
as it stays the only one with that start, and may have its value after `=`. After
`--` everything is a name.
-/

namespace Uniproc

/-- What a command line asks for. -/
inductive Invocation
  | run (program : Path) (settings : Option Path)
  | help
  | misuse (problem : String)
  | failure (cause : Fault)
deriving DecidableEq, Repr

namespace Arguments

def usage : String := "usage: py-procsim [-h] [--config CONFIG] program\n"

def helpText : String :=
  usage ++ "\n" ++
  "Single-CPU process management simulator.\n\n" ++
  "positional arguments:\n" ++
  "  program          initial program file\n\n" ++
  "options:\n" ++
  "  -h, --help       show this help message and exit\n" ++
  "  --config CONFIG  JSON config file\n"

/-- What is said on a command line that cannot be used. -/
def misuseText (problem : String) : String :=
  usage ++ s!"py-procsim: error: {problem}\n"

/-- One argument by itself. Asking for help takes no value. -/
inductive Token
  | operand (text : String)
  | terminator
  | help
  | helpWith (value : String)
  | config (value : Option String)
  | ambiguous (text : String)
  | unknown (text : String)
deriving DecidableEq, Repr

/-- What follows `-h` in one argument: more one-letter options, of which there is only
`h`. Whatever else comes is taken for a value. -/
def helpCluster : List Char → Token
  | [] => .help
  | 'h' :: rest => helpCluster rest
  | c :: rest => .helpWith (String.ofList (c :: rest))

/-- Whether a text is a negative number, which is no option. -/
def isNegativeNumber (s : List Char) : Bool :=
  match s with
  | '-' :: rest =>
    let rest := if rest.getLast? = some '\n' then rest.dropLast else rest
    match rest.dropWhile Text.isDigit with
    | [] => !rest.isEmpty
    | '.' :: digits => !digits.isEmpty && digits.all Text.isDigit
    | _ => false
  | _ => false

/-- An argument that starts like an option but is none. -/
def notAnOption (text : String) : Token :=
  if isNegativeNumber text.toList || text.toList.contains ' ' then .operand text
  else .unknown text

/-- An argument with two dashes: its name up to `=`, and its value. -/
def longOption (text : String) (name : List Char) (value : Option String) : Token :=
  match name.isPrefixOf "--help".toList, name.isPrefixOf "--config".toList with
  | true, true => .ambiguous text
  | true, false => (value.map Token.helpWith).getD .help
  | false, true => .config value
  | false, false => notAnOption text

def classify (text : String) : Token :=
  match text.toList with
  | ['-', '-'] => .terminator
  | '-' :: '-' :: rest =>
    let (name, value) := Text.cut '=' rest
    longOption text ('-' :: '-' :: name) (value.map String.ofList)
  | ['-', 'h', '='] => .helpWith ""
  | '-' :: 'h' :: '=' :: rest | '-' :: 'h' :: rest => helpCluster rest
  | '-' :: _ :: _ => notAnOption text
  | _ => .operand text

/-- The arguments one by one; after a terminator all are operands. -/
def tokens : List String → List Token
  | [] => []
  | text :: rest => match classify text with
    | .terminator => .terminator :: rest.map .operand
    | token => token :: tokens rest

def Token.isOption : Token → Bool
  | .operand _ | .terminator => false
  | _ => true

/-- What has been found so far; `extras` is what nobody asked for. -/
structure Found where
  program : Option String := none
  config : Option String := none
  extras : List String := []

def Found.extra (f : Found) (text : String) : Found :=
  { f with extras := f.extras ++ [text] }

def Found.operand (f : Found) (text : String) : Found :=
  match f.program with
  | none => { f with program := some text }
  | some _ => f.extra text

/-- What has been asked for when all arguments are known. A terminator is no name, even
where it is the value of an option. -/
def Found.invocation (f : Found) : Invocation :=
  match f.program with
  | none => .misuse "the following arguments are required: program"
  | some program =>
    if f.extras.isEmpty then
      if f.config = some "--" then .failure .namelessSettings
      else .run (.ofString program) (f.config.map Path.ofString)
    else .misuse ("unrecognized arguments: " ++ " ".intercalate f.extras)

/-- The arguments after the last option. A terminator goes with the program's name if
it stands next to it. -/
def finish (f : Found) (ts : List Token) : Invocation :=
  let texts := ts.map fun
    | .operand text => text
    | _ => "--"
  let (f, rest) := match f.program, ts with
    | none, .operand text :: .terminator :: _ => ({ f with program := some text }, texts.drop 2)
    | none, .operand text :: _ => ({ f with program := some text }, texts.drop 1)
    | none, .terminator :: .operand text :: _ => ({ f with program := some text }, texts.drop 2)
    | _, _ => (f, texts)
  { f with extras := f.extras ++ rest }.invocation

def ignoredValue (value : String) : Invocation :=
  .misuse s!"argument -h/--help: ignored explicit argument {Text.quoted value}"

def consume (f : Found) (ts : List Token) : Invocation :=
  if !ts.any Token.isOption then finish f ts
  else match ts with
    | [] => finish f []
    | .operand text :: rest => consume (f.operand text) rest
    | .terminator :: rest => consume (f.extra "--") rest
    | .help :: _ => .help
    | .helpWith value :: _ => ignoredValue value
    | .config (some value) :: rest => consume { f with config := some value } rest
    | .config none :: .operand value :: rest => consume { f with config := some value } rest
    | .config none :: _ => .misuse "argument --config: expected one argument"
    | .ambiguous text :: rest | .unknown text :: rest => consume (f.extra text) rest

/-- What a command line asks for. An ambiguous option counts before anything else. -/
def parse (arguments : List String) : Invocation :=
  let ts := tokens arguments
  match ts.findSome? fun | .ambiguous text => some text | _ => none with
  | some text => .misuse s!"ambiguous option: {text} could match --help, --config"
  | none => consume {} ts

end Arguments
end Uniproc
