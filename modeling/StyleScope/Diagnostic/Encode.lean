import StyleScope.Diagnostic.Basic
import StyleScope.Sheet.Encode

/-!
# Where diagnostics go

A sink only ever grows at its end. `Diagnostics` is the sink that can also be asked what it holds,
and that can be written as JSON.
-/

namespace StyleScope

/-- A receiver of diagnostics that keeps them in the order of their reports. -/
class Sink (S : Type) where
  report : S → Diagnostic → S

instance : Sink (Array Diagnostic) := ⟨Array.push⟩

/-- The diagnostics reported so far, first one first. -/
structure Diagnostics where
  items : Array Diagnostic
deriving DecidableEq, Repr

namespace Diagnostics

def empty : Diagnostics := ⟨#[]⟩

def report (diagnostics : Diagnostics) (diagnostic : Diagnostic) : Diagnostics :=
  ⟨diagnostics.items.push diagnostic⟩

instance : Sink Diagnostics := ⟨report⟩

def toList (diagnostics : Diagnostics) : List Diagnostic := diagnostics.items.toList

def errors (diagnostics : Diagnostics) : List Diagnostic :=
  diagnostics.toList.filter (·.severity = .error)

def warnings (diagnostics : Diagnostics) : List Diagnostic :=
  diagnostics.toList.filter (·.severity = .warning)

def hasErrors (diagnostics : Diagnostics) : Bool := diagnostics.toList.any Diagnostic.isError

def size (diagnostics : Diagnostics) : Nat := diagnostics.items.size

def isEmpty (diagnostics : Diagnostics) : Bool := diagnostics.items.isEmpty

@[simp] theorem toList_empty : empty.toList = [] := rfl

@[simp] theorem toList_report (diagnostics : Diagnostics) (diagnostic : Diagnostic) :
    (diagnostics.report diagnostic).toList = diagnostics.toList ++ [diagnostic] := by
  simp [report, toList]

end Diagnostics

/-! ## As JSON -/

def Diagnostic.toJson (diagnostic : Diagnostic) : Json :=
  .object [("code", .string diagnostic.code), ("phase", .string diagnostic.phase.name),
    ("severity", .string diagnostic.severity.name), ("message", .string diagnostic.message),
    ("location", locationToJson diagnostic.location),
    ("enclosing", locationToJson diagnostic.enclosing)]

namespace Diagnostics

def toJson (diagnostics : Diagnostics) : Json := .list (diagnostics.toList.map Diagnostic.toJson)

def text (diagnostics : Diagnostics) : String := diagnostics.toJson.text

end Diagnostics

end StyleScope
