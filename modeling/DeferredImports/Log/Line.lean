import DeferredImports.Log.Event
import DeferredImports.Log.Template
import DeferredImports.Table

/-! Log lines: what a logger is told, and the fields that it writes. -/

namespace DeferredImports

/-- An event that a logger of some name is told of, with the context around it. -/
structure LogEntry where
  logger : String
  level : Level
  event : Raw
  context : List (String × Raw)

namespace LogEntry

/-- The logger without a name is the root of all. -/
def loggerLabel (e : LogEntry) : String := if e.logger = "" then "root" else e.logger

/-- What the context has under a name, or nothing. -/
def given (e : LogEntry) (name : String) : Raw := (Raw.field? e.context name).getD .null

/-- The names that no context may use. -/
def reservedNames : List String := ["event", "self", "method_name"]

def usesReservedName (e : LogEntry) : Bool :=
  e.context.any fun f => reservedNames.contains f.1

/-- The values for the directives of the event. A record stands for itself when it is alone in a
list; one with a single field passes for such a list, but has nothing in the first place. -/
def templateValues : Raw → Except Failure Raw
  | .list [.record (f :: fs)] => .ok (.record (f :: fs))
  | .record [_] => .error (.unknownField "0")
  | .list vs => .ok (.list vs)
  | .record fs => .ok (.record fs)
  | .text s => .ok (.text s)
  | _ => .error .unfit

/-- The event with its directives filled, if the context has values for them. -/
def filledEvent (e : LogEntry) : Except Failure Raw := do
  if !(e.given "positional_args").isGiven then return e.event
  let values ← templateValues (e.given "positional_args")
  match e.event with
  | .text template => return .text (← Template.fill template values)
  | .null => .error (.unknownField "event")
  | _ => .error .unfit

/-- What is used up before a line is written. A line has its own time. -/
def usedNames (e : LogEntry) : List String :=
  ["timestamp", "exc_info", "stack_info"] ++
    if (e.given "positional_args").isNull then [] else ["positional_args"]

/-- The fields of the line; its event, level and logger win over the context. The time is left
out. The logger's name cannot be taken from a record of the context. -/
def fields (e : LogEntry) : Except Failure (List (String × Raw)) := do
  if !(e.given "_record").isNull then .error .absentPart
  let event ← e.filledEvent
  let kept := Table.ofList (e.context.filter fun f => !e.usedNames.contains f.1)
  let kept := if event.isNull then kept else kept.insert "event" event
  return ((kept.insert "level" (.text e.level.label)).insert "logger"
    (.text e.loggerLabel)).entries

/-- What is written below a line, as it stands, must be text. -/
def hasPlainTail (e : LogEntry) : Bool :=
  ["stack", "exception"].all fun name =>
    match e.given name with
    | .null | .text _ => true
    | _ => false

end LogEntry

end DeferredImports
