import DeferredImports.Failure
import DeferredImports.Raw

/-! What is worth a log line while modules are read and their imports deferred, and the levels of
lines, with the words for the least level that is written. -/

namespace DeferredImports

inductive Level where
  | debug | info | warning | error | critical
deriving DecidableEq

namespace Level

def label : Level → String
  | debug => "debug"
  | info => "info"
  | warning => "warning"
  | error => "error"
  | critical => "critical"

def severity : Level → Nat
  | debug => 10
  | info => 20
  | warning => 30
  | error => 40
  | critical => 50

def ofLabel? (s : String) : Option Level :=
  [debug, info, warning, error, critical].find? fun l => l.label == s

theorem ofLabel?_label (l : Level) : ofLabel? l.label = some l := by
  cases l <;> decide

/-- How a line is laid out when nothing else is said. -/
def plainLayout : String := "%(levelname)s:%(name)s:%(message)s"

/-- The least severity that a word stands for, whatever its case; unknown words stand for `info`.
Two words that name a layout and a table of layouts are known, but stand for no severity. -/
def thresholdOf (word : String) : Except Failure Nat :=
  match Text.upper word with
  | "NOTSET" => .ok 0
  | "DEBUG" => .ok debug.severity
  | "WARNING" | "WARN" => .ok warning.severity
  | "ERROR" => .ok error.severity
  | "CRITICAL" | "FATAL" => .ok critical.severity
  | "BASIC_FORMAT" => .error (.unknownLevel plainLayout)
  | "_STYLES" => .error .unfit
  | _ => .ok info.severity

end Level

inductive Event where
  | moduleSkipped (file : String)
  | importOptedOut (specifier file : String)
  | importBailOut (specifier file : String) (residual : Nat)
  | importDeferred (specifier file : String) (components : List String) (residual : Nat)
  | symbolAmbiguous (specifier name : String) (declarations : Nat)
  | symbolUnresolved (specifier name error : String)
  | moduleUnresolved (specifier file : String)
  | typeUnresolved (name error : String)
  | parseErrorsFound (file : String) (errors : Nat)
  | compileComplete (files emitted : Nat)
deriving DecidableEq

namespace Event

def label : Event → String
  | moduleSkipped .. => "module_skipped"
  | importOptedOut .. => "import_opted_out"
  | importBailOut .. => "import_bail_out"
  | importDeferred .. => "import_rewritten"
  | symbolAmbiguous .. => "symbol_ambiguous"
  | symbolUnresolved .. => "symbol_unresolved"
  | moduleUnresolved .. => "module_unresolved"
  | typeUnresolved .. => "type_unresolved"
  | parseErrorsFound .. => "parse_errors_found"
  | compileComplete .. => "compile_complete"

def level : Event → Level
  | parseErrorsFound .. => .warning
  | _ => .debug

def count (n : Nat) : Raw := .whole n

def details : Event → List (String × Raw)
  | moduleSkipped f => [("file", .text f)]
  | importOptedOut s f => [("specifier", .text s), ("file", .text f)]
  | importBailOut s f r => [("specifier", .text s), ("file", .text f), ("residual", count r)]
  | importDeferred s f cs r =>
    [("specifier", .text s), ("file", .text f), ("components", .list (cs.map .text)),
      ("residual", count r)]
  | symbolAmbiguous s n d => [("specifier", .text s), ("name", .text n), ("declarations", count d)]
  | symbolUnresolved s n e => [("specifier", .text s), ("name", .text n), ("error", .text e)]
  | moduleUnresolved s f => [("specifier", .text s), ("file", .text f)]
  | typeUnresolved n e => [("name", .text n), ("error", .text e)]
  | parseErrorsFound f n => [("file", .text f), ("errors", count n)]
  | compileComplete n m => [("files", count n), ("emitted", count m)]

end Event

end DeferredImports
