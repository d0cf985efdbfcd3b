import HostBindings.Excel.Wrapper
import HostBindings.Proxy.ObjectName

/-
  The bindings that a run has produced so far.

  Key definitions include:
    * `Excel.Options`
    * `Excel.ObjectConstant`
    * `Excel.Bindings`
    * `Excel.Bindings.addObject`
    * `Excel.Bindings.addFunction`
    * `Excel.Bindings.sourceText`
    * `Excel.Bindings.manifest`
-/

------------------------------------------------------------
-- Bindings
------------------------------------------------------------

namespace HostBindings

namespace Excel

/-
  Where the outputs go, which locale the manifest is in, and
  what the source imports.
-/
structure Options where
  sourcePath : String
  manifestPath : String
  defaultLocale : String
  proxyModule : String
  extensionClass : String
  extensionModule : String
deriving DecidableEq, Repr

/- The constant that holds the object of a class. -/
structure ObjectConstant where
  name : String
  className : String
deriving DecidableEq, Repr

/-
  The objects, wrappers and manifest entries so far, and the
  object of the class that was emitted last.
-/
structure Bindings where
  objects : List ObjectConstant
  wrappers : List Wrapper
  entries : List FunctionEntry
  currentObject : Option String
deriving DecidableEq, Repr

namespace Bindings

/- No bindings. -/
def empty : Bindings :=
  ⟨[], [], [], none⟩

/- Add the object of a class. -/
def addObject
    (bindings : Bindings)
    (proxyClass : ProxyClass) : Except Fault Bindings :=
  match objectName proxyClass.name with
  | .error fault => .error fault
  | .ok name =>
      .ok { bindings with
        objects :=
          bindings.objects ++ [⟨name, proxyClass.name⟩]
        currentObject := some name }

/-
  The object on which the methods of a class are called: the
  latest one, or the one of the class if there is none yet.
-/
def objectFor
    (bindings : Bindings)
    (proxyClass : ProxyClass) : Except Fault String :=
  match bindings.currentObject with
  | some name => .ok name
  | none => objectName proxyClass.name

/- Add a method as a function. -/
def addFunction
    (bindings : Bindings)
    (proxyClass : ProxyClass)
    (method : Method)
    (function : ProxyFunction)
    (localized : Option FunctionLocalization) :
    Except Fault Bindings :=
  match bindings.objectFor proxyClass with
  | .error fault => .error fault
  | .ok object =>
      .ok { bindings with
        wrappers :=
          bindings.wrappers ++
            [wrapper object method function]
        entries :=
          bindings.entries ++
            [functionEntry method function localized] }

------------------------------------------------------------
-- Outputs
------------------------------------------------------------

/- An import of names from a module. -/
def importLine (names : String) (source : String) : String :=
  "import \x7b " ++ names ++ " \x7d from \"" ++ source ++
    "\";\n"

/- The import of the proxy classes, if there are any. -/
def proxyImport
    (bindings : Bindings)
    (options : Options) : String :=
  match bindings.objects with
  | [] => ""
  | objects =>
      importLine (commas (objects.map (·.className)))
        options.proxyModule

/- The declaration of an object. -/
def objectLine (object : ObjectConstant) : String :=
  "const " ++ object.name ++ " = new " ++ object.className ++
    "(appExtension);\n"

/- The text of the source. -/
def sourceText
    (bindings : Bindings)
    (options : Options) : String :=
  "// Generated by proxy-generator. Do not edit.\n\n" ++
    importLine options.extensionClass
      options.extensionModule ++
    bindings.proxyImport options ++
    "\nconst appExtension = new " ++ options.extensionClass ++
    "();\n\n" ++
    String.join (bindings.objects.map objectLine) ++
    String.join (bindings.wrappers.map Wrapper.render)

/- The manifest. -/
def manifest (bindings : Bindings) : Json :=
  manifestJson bindings.entries

end Bindings

end Excel

end HostBindings
