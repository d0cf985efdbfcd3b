import HostBindings.Text.CaseTable

/-
  Full case mapping of texts.

  Characters map one by one, with a single exception: a
  capital sigma at the end of a word has its own small form.

  Key definitions include:
    * `Text.lowerChar`
    * `Text.upperChar`
    * `Text.endsWord`
    * `Text.lower`
    * `Text.upper`
-/

------------------------------------------------------------
-- Single Characters
------------------------------------------------------------

namespace HostBindings

namespace Text

/- The image of a character beyond ASCII. -/
def mapChar
    (expansions : List (Nat × List Nat))
    (runs : List CaseRun)
    (c : Char) : List Char :=
  match expansions.find? (fun e => e.1 == c.toNat) with
  | some e => e.2.map Char.ofNat
  | none =>
      match runs.findSome? (fun run => run.image? c.toNat) with
      | some n => [Char.ofNat n]
      | none => [c]

/- The lower case of a character taken by itself. -/
def lowerChar (c : Char) : List Char :=
  if c.toNat < 128 then
    [c.toLower]
  else
    mapChar lowerExpansions lowerRuns c

/- The upper case of a character. -/
def upperChar (c : Char) : List Char :=
  if c.toNat < 128 then
    [c.toUpper]
  else
    mapChar upperExpansions upperRuns c

------------------------------------------------------------
-- Words
------------------------------------------------------------

/-
  Whether a cased character follows, at once or after
  characters that do not interrupt a word.
-/
def meetsCased (cs : List Char) : Bool :=
  match cs.dropWhile caseIgnorableRanges.has with
  | [] => false
  | c :: _ => casedRanges.has c

/-
  Whether a word ends between what stands before, nearest
  first, and what stands after.
-/
def endsWord (before after : List Char) : Bool :=
  meetsCased before && !meetsCased after

/- The lower case of a capital sigma in its context. -/
def lowerSigma (before after : List Char) : Char :=
  if endsWord before after then 'ς' else 'σ'

/- Lower-case the rest of a text, given what stands before. -/
def lowerAfter (before : List Char) : List Char → List Char
| [] => []
| c :: rest =>
    let image :=
      if c = 'Σ' then
        [lowerSigma before rest]
      else
        lowerChar c
    image ++ lowerAfter (c :: before) rest

/- The lower case of a text. -/
def lower (s : String) : String :=
  String.ofList (lowerAfter [] s.toList)

/- The upper case of a text. -/
def upper (s : String) : String :=
  String.ofList (s.toList.flatMap upperChar)

end Text

end HostBindings
