import DeferredImports.Config.Options
import DeferredImports.Text.Basic

/-! Settings from the environment, and the options that start from them. -/

namespace DeferredImports

structure Settings where
  logLevel : String := "INFO"
  logJson : Bool := false
  onlyDefaultExports : Bool := false
  onlyIfFullyRemovable : Bool := false
  frameworkModule : String := "react"
  frameworkRoot : String := "React"
deriving DecidableEq

namespace Settings

/-- What the names of all settings begin with in the environment. -/
def namespaceMark : String := "lazy_transform_"

/-- The variables that set something, by the name of the setting. The case of a variable's name
does not matter. -/
def fieldsOf (environment : List (String × String)) : List (String × Raw) :=
  environment.filterMap fun v =>
    (Text.after? namespaceMark.toList (Text.lower v.1).toList).map fun name =>
      (String.ofList name, .text v.2)

def asText : Raw → Checked String
  | .text s => .valid s
  | _ => Raw.refuse .notText

def ofEnvironment (environment : List (String × String)) : Checked Settings :=
  let fields := fieldsOf environment
  let base : Settings := {}
  let flag (name : String) (default : Bool) := Raw.check fields name default Raw.asFlag
  let text (name default : String) := Raw.check fields name default asText
  Settings.mk <$> text "log_level" base.logLevel
    <*> flag "log_json" base.logJson
    <*> flag "only_default_exports" base.onlyDefaultExports
    <*> flag "only_rewrite_if_fully_removable" base.onlyIfFullyRemovable
    <*> text "framework_module" base.frameworkModule
    <*> text "framework_root" base.frameworkRoot

/-- The options that the settings stand for, with given fields in place of theirs. -/
def options (s : Settings) (fields : List (String × Raw)) : Checked Options :=
  (Framework.ofFields [("module_specifier", .text s.frameworkModule),
    ("root_identifier", .text s.frameworkRoot)]).andThen fun framework =>
    Options.ofFields
      { onlyDefaultExports := s.onlyDefaultExports
        onlyIfFullyRemovable := s.onlyIfFullyRemovable
        framework := framework } fields

/-- The settings that were read before, or those of the environment. -/
def remembered (cache : Option Settings) (environment : List (String × String)) :
    Checked Settings :=
  match cache with
  | some s => .valid s
  | none => ofEnvironment environment

/-- Only settings that could be read are remembered. -/
def remember (cache : Option Settings) : Checked Settings → Option Settings
  | .valid s => some s
  | .invalid _ => cache

end Settings

end DeferredImports
