import HostBindings.Locale.Catalog
import HostBindings.Log
import HostBindings.Proxy.Class
import HostBindings.Proxy.FunctionName

/-
  Emitters.

  An emitter is called at the start of a run, for every class
  and for every function, and once more at the end.  Each
  call may change its state and may fail.

  Key definitions include:
    * `ProxyFunction`
    * `Call`
    * `Response`
    * `Emitter`
-/

------------------------------------------------------------
-- Functions
------------------------------------------------------------

namespace HostBindings

/- A function as it is emitted. -/
structure ProxyFunction where
  name : String
  nameSpace : Option String
  localizations : Localizations
deriving DecidableEq, Repr

namespace ProxyFunction

/- The name within the namespace. -/
def qualifiedName (function : ProxyFunction) : String :=
  HostBindings.qualifiedName function.nameSpace function.name

end ProxyFunction

------------------------------------------------------------
-- Calls
------------------------------------------------------------

/-
  The calls of a run.  The last one says whether everything
  before it went well.
-/
inductive Call where
| prepare
| object (proxyClass : ProxyClass)
| function
    (proxyClass : ProxyClass)
    (method : Method)
    (function : ProxyFunction)
| finish (success : Bool)
deriving DecidableEq, Repr

/- What a call leads to; a failed call may change the state. -/
structure Response (σ : Type) where
  state : σ
  log : List LogLine
  result : Except Fault Unit

namespace Response

variable {σ : Type}

/- A call that goes well without a word. -/
def ok (state : σ) : Response σ :=
  ⟨state, [], .ok ()⟩

/- A call that fails without a word. -/
def error (state : σ) (fault : Fault) : Response σ :=
  ⟨state, [], .error fault⟩

end Response

/- A state machine over calls. -/
structure Emitter (σ : Type) where
  respond : σ → Call → Response σ

end HostBindings
