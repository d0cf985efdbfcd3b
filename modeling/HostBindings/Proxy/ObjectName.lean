import HostBindings.Fault
import HostBindings.Text.Case

/-
  Names of proxy objects.

  The name of a class splits into a head and a tail.  The
  head is an acronym with digits or else a capitalized word,
  and the tail is empty or starts with a capital and stays on
  one line.  The object is named by the class name with its
  head in lower case.

  Key definitions include:
    * `ObjectName.isCapital`
    * `ObjectName.headLengths`
    * `ObjectName.isTail`
    * `ObjectName.split?`
    * `objectName`
-/

------------------------------------------------------------
-- Heads and Tails
------------------------------------------------------------

namespace HostBindings

namespace ObjectName

/- A capital letter of ASCII. -/
def isCapital (c : Char) : Bool :=
  c.isUpper

/- The numbers from `n` down to one. -/
def downFrom : Nat → List Nat
| 0 => []
| n + 1 => (n + 1) :: downFrom n

/-
  The longest acronym: a run of capitals and the digits right
  after it.
-/
def acronymLength (cs : List Char) : Nat :=
  let capitals := cs.takeWhile isCapital
  let digits :=
    (cs.dropWhile isCapital).takeWhile Char.isDigit
  capitals.length + digits.length

/- The longest word: a capital and what is not one. -/
def wordLength : List Char → Nat
| [] => 0
| _ :: rest => 1 + (rest.takeWhile (!isCapital ·)).length

/-
  The possible lengths of a head, most preferred first:
  acronyms come before words and longer heads before shorter
  ones.
-/
def headLengths (cs : List Char) : List Nat :=
  match cs with
  | [] => []
  | c :: _ =>
      if isCapital c then
        downFrom (acronymLength cs) ++ downFrom (wordLength cs)
      else
        []

/- A tail is empty, or a capital and no further line. -/
def isTail : List Char → Bool
| [] => true
| c :: rest => isCapital c && rest.all (· != '\n')

/- The preferred split into a head and a tail. -/
def split? (cs : List Char) : Option (List Char × List Char) :=
  ((headLengths cs).find? fun n => isTail (cs.drop n)).map
    fun n => (cs.take n, cs.drop n)

end ObjectName

------------------------------------------------------------
-- Object Names
------------------------------------------------------------

/- The name of the object of a class. -/
def objectName (className : String) : Except Fault String :=
  match ObjectName.split? className.toList with
  | some (head, tail) =>
      .ok (Text.lower (String.ofList head) ++
        String.ofList tail)
  | none => .error (.invalidClassName className)

end HostBindings
