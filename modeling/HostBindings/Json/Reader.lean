import HostBindings.Json.Token

/-
  Reading JSON texts.

  Tokens drive a machine whose stack holds the arrays and
  objects that are still open.  The height of the stack is
  limited.  A repeated key keeps its first position and takes
  its last value.

  Key definitions include:
    * `Json.Frame`
    * `Json.Reading`
    * `Json.Reading.step`
    * `Json.ofTokens?`
    * `Json.read`
-/

------------------------------------------------------------
-- The Reading Machine
------------------------------------------------------------

namespace HostBindings

namespace Json

/-
  An open array with its items, newest first, or an open
  object with its members and the key that awaits a value.
-/
inductive Frame where
| items (gathered : List Json)
| members (gathered : Keyed String Json) (key : String)

/-
  What has just been read, within the open frames, innermost
  first.
-/
inductive Reading where
| start (stack : List Frame)
| arrayOpened (stack : List Frame)
| objectOpened (stack : List Frame)
| nextMember
    (gathered : Keyed String Json)
    (stack : List Frame)
| memberKey
    (gathered : Keyed String Json)
    (key : String)
    (stack : List Frame)
| value (v : Json) (stack : List Frame)

namespace Reading

/- Read a token where a value must start. -/
def startValue
    (limit : Nat)
    (stack : List Frame) : Token → Option Reading
| .scalar v => some (.value v stack)
| .openArray =>
    if stack.length < limit then
      some (.arrayOpened stack)
    else
      none
| .openObject =>
    if stack.length < limit then
      some (.objectOpened stack)
    else
      none
| _ => none

/- Read a token where a key must stand. -/
def startMember
    (gathered : Keyed String Json)
    (stack : List Frame) : Token → Option Reading
| .scalar (.string key) => some (.memberKey gathered key stack)
| _ => none

/- Read a token after a value. -/
def afterValue
    (v : Json) :
    List Frame → Token → Option Reading
| .items gathered :: stack, .comma =>
    some (.start (.items (v :: gathered) :: stack))
| .items gathered :: stack, .closeArray =>
    some (.value (.array (v :: gathered).reverse) stack)
| .members gathered key :: stack, .comma =>
    some (.nextMember (Keyed.put key v gathered) stack)
| .members gathered key :: stack, .closeObject =>
    some (.value (.object (Keyed.put key v gathered)) stack)
| _, _ => none

/- Read one token. -/
def step
    (limit : Nat) :
    Reading → Token → Option Reading
| .start stack, token => startValue limit stack token
| .arrayOpened stack, .closeArray =>
    some (.value (.array []) stack)
| .arrayOpened stack, token =>
    startValue limit (.items [] :: stack) token
| .objectOpened stack, .closeObject =>
    some (.value (.object []) stack)
| .objectOpened stack, token => startMember [] stack token
| .nextMember gathered stack, token =>
    startMember gathered stack token
| .memberKey gathered key stack, .colon =>
    some (.start (.members gathered key :: stack))
| .memberKey _ _ _, _ => none
| .value v stack, token => afterValue v stack token

/- The value that has been read when nothing is open. -/
def result? : Reading → Option Json
| .value v [] => some v
| _ => none

end Reading

------------------------------------------------------------
-- Texts
------------------------------------------------------------

/- The value that tokens spell. -/
def ofTokens?
    (limit : Nat)
    (tokens : List Token) : Option Json :=
  (tokens.foldlM (Reading.step limit) (.start [])).bind
    Reading.result?

/- Read a text with a limit on the nesting. -/
def readNested (limit : Nat) (text : String) : Option Json :=
  (Token.cut text.toList).bind (ofTokens? limit)

/- How deep arrays and objects may nest in a file. -/
def maxNesting : Nat :=
  127

/- Read the text of a file. -/
def read (text : String) : Option Json :=
  readNested maxNesting text

end Json

end HostBindings
