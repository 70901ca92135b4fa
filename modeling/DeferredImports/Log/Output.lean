import DeferredImports.Config.Settings
import DeferredImports.Failure
import DeferredImports.Log.Line

/-! Where log lines go: the threshold, the format, and what each logger remembers of them. -/

namespace DeferredImports

/-- The threshold is fixed by the first configuration for good. A logger keeps the format of its
first line until a reset, and settings that were read once are not read again. -/
structure LogOutput where
  configured : Bool := false
  threshold : Option Nat := none
  jsonLines : Bool := false
  formats : Table Bool := .empty
  settings : Option Settings := none

namespace LogOutput

abbrev Environment : Type := List (String × String)

/-- The settings, which are remembered. -/
def readSettings (environment : Environment) : Effect LogOutput Settings := do
  let s ← Effect.ofExcept (Settings.remembered (← get).settings environment).toExcept
  modify fun o => { o with settings := some s }
  return s

/-- Fixes the threshold, if that is still open. A word that stands for none fixes it, too. -/
def fixThreshold (word : String) : Effect LogOutput Unit := do
  if (← get).threshold.isNone then
    match Level.thresholdOf word with
    | .ok n => modify fun o => { o with threshold := some n }
    | .error f =>
      modify fun o => { o with threshold := some Level.warning.severity }
      throw f

/-- Configures the level and whether lines are JSON. If one of them is missing, the settings are
read, and stand in for it and for a level that counts as not given. -/
def configure (environment : Environment) (level json : Raw) : Effect LogOutput Unit := do
  let (level, jsonLines) ←
    if level.isNull || json.isNull then do
      let s ← readSettings environment
      pure (if level.isGiven then level else .text s.logLevel,
        if json.isNull then s.logJson else json.isGiven)
    else pure (level, json.isGiven)
  let .text word := level | throw .absentPart
  modify fun o => { o with jsonLines := jsonLines }
  fixThreshold word
  modify fun o => { o with configured := true }

/-- The first logger that is asked for configures the output from the settings. -/
def ensureConfigured (environment : Environment) : Effect LogOutput Unit := do
  if !(← get).configured then configure environment .null .null

/-- Forgets the loggers and that the output was configured, but not its threshold. -/
def reset : Effect LogOutput Unit :=
  modify fun o => { o with configured := false, formats := .empty }

/-- Whether a logger writes JSON, which its first line decides. -/
def formatOf (logger : String) : Effect LogOutput Bool := do
  let o ← get
  let jsonLines := (o.formats.get? logger).getD o.jsonLines
  set { o with formats := o.formats.insert logger jsonLines }
  return jsonLines

/-- What becomes of an entry: whether it is written, and its fields if it is written as JSON. -/
structure Line where
  emitted : Bool
  json : Option (List (String × Raw))

/-- Writes an entry, unless it is below the threshold. -/
def log (environment : Environment) (e : LogEntry) : Effect LogOutput Line := do
  ensureConfigured environment
  let jsonLines ← formatOf e.logger
  if e.usesReservedName then throw .unfit
  if !(← get).threshold.all (· ≤ e.level.severity) then return ⟨false, none⟩
  let fields ← Effect.ofExcept e.fields
  if jsonLines then return ⟨true, some fields⟩
  if !e.hasPlainTail then throw .unfit
  return ⟨true, none⟩

/-- Whether two names stand for the same logger. -/
def sameLogger (environment : Environment) (a b : String) : Effect LogOutput Bool := do
  ensureConfigured environment
  return a == b

/-- Once fixed, the threshold stays, whatever is asked for. -/
theorem fixThreshold_of_fixed (o : LogOutput) (word : String) (h : o.threshold.isSome) :
    (fixThreshold word).runFrom o = (.ok (), o) := by
  obtain ⟨n, hn⟩ := Option.isSome_iff_exists.1 h
  cases o
  subst hn
  rfl

end LogOutput

end DeferredImports
