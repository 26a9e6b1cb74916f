import Uniproc.Text.CaseTable

/-!
Upper-case forms. One character may become several (`ß` becomes `SS`), and two
characters may share a capital (`ſ` and `s`).
-/

namespace Uniproc
namespace Text

def upperChar (c : Char) : List Char :=
  let n := c.toNat
  if n < 0x80 then [c.toUpper]
  else match longCapitals.find? (·.1 == n) with
    | some (_, form) => form.map Char.ofNat
    | none => match caseRuns.find? (·.covers n) with
      | some r => [Char.ofNat (n + r.shift).toNat]
      | none => [c]

def upper (s : List Char) : List Char :=
  s.flatMap upperChar

end Text
end Uniproc
