set_option autoImplicit false

/-! Diagnostics, and the report that collects them. The trace reader and the checker
write into one report; it keeps the diagnostics in the order of arrival and counts
them by level. How they look is the matter of `Diagnostic.render`. -/

namespace Handshake

inductive Level where
  | fatal
  | error
  | warning
  deriving DecidableEq

def Level.severity : Level → String
  | fatal => "bug"
  | error => "error"
  | warning => "warning"

structure Place where
  file : Nat
  start : Nat
  stop : Nat
  deriving DecidableEq

inductive Diagnostic where
  /-- not tied to a place, with notes for additional context -/
  | general (level : Level) (message : String) (notes : List String)
  | located (level : Level) (message : String) (place : Place)
  deriving DecidableEq

namespace Diagnostic

def level : Diagnostic → Level
  | general level _ _ => level
  | located level _ _ => level

def message : Diagnostic → String
  | general _ message _ => message
  | located _ message _ => message

def isError (diagnostic : Diagnostic) : Bool := diagnostic.level ≠ .warning

end Diagnostic

structure SourceFile where
  name : String
  text : String
  deriving DecidableEq

structure Report where
  /-- known files, each named by its index -/
  files : List SourceFile
  diagnostics : List Diagnostic
  deriving DecidableEq

namespace Report

def empty : Report := ⟨[], []⟩

/-- Makes a file known; answers its index. -/
def addFile (report : Report) (name text : String) : Nat × Report :=
  (report.files.length, { report with files := report.files ++ [⟨name, text⟩] })

def add (report : Report) (diagnostic : Diagnostic) : Report :=
  { report with diagnostics := report.diagnostics ++ [diagnostic] }

def addAll (report : Report) (diagnostics : List Diagnostic) : Report :=
  { report with diagnostics := report.diagnostics ++ diagnostics }

def errors (report : Report) : Nat := (report.diagnostics.filter Diagnostic.isError).length

def warnings (report : Report) : Nat :=
  (report.diagnostics.filter (fun diagnostic => !diagnostic.isError)).length

end Report

end Handshake
