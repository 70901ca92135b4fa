import DeferredImports.Config.Check
import DeferredImports.Syntax.Node

/-! What a caller decides about deferring imports, and the names by which a UI framework is known in
source text. -/

namespace DeferredImports

/-- The module that a file must import to be considered, the identifier bound to the framework,
the class that components extend, the type that they return and its namespace, and the member
that wraps a loader by default. -/
structure Framework where
  moduleSpecifier : String := "react"
  rootIdentifier : String := "React"
  baseComponentName : String := "Component"
  elementTypeName : String := "Element"
  elementNamespace : String := "JSX"
  lazyMember : String := "lazy"
deriving DecidableEq

namespace Framework

/-- Unknown fields are ignored, and no name may be empty. -/
def ofFields (fields : List (String × Raw)) : Checked Framework :=
  let base : Framework := {}
  let name (field default : String) := Raw.check fields field default Raw.asName
  Framework.mk <$> name "module_specifier" base.moduleSpecifier
    <*> name "root_identifier" base.rootIdentifier
    <*> name "base_component_name" base.baseComponentName
    <*> name "element_type_name" base.elementTypeName
    <*> name "element_namespace" base.elementNamespace
    <*> name "lazy_member" base.lazyMember

def ofRaw : Raw → Checked Framework
  | .record fields => ofFields fields
  | _ => Raw.refuse .notRecord

/-- A framework cannot be changed in place. A name that begins with an underscore stands for
something beside the fields, and to set it changes none of them. -/
def assign (f : Framework) (name : String) (_ : Raw) : Checked Framework :=
  if Text.begins "_" name then .valid f else .invalid [⟨[name], .frozen⟩]

end Framework

/-- A hook that is `none` has its default: every statement is allowed, components are wrapped by
the framework's own member, and no import is injected. -/
structure Options where
  onlyDefaultExports : Bool := false
  onlyIfFullyRemovable : Bool := false
  allowed : Option (String → String → Bool) := none
  wrapper : Option Node := none
  injected : Option (String → Option Node) := none
  framework : Framework := {}

namespace Options

/-- Whether an import of the specifier in the file may be deferred. -/
def allows (o : Options) (specifier file : String) : Bool :=
  match o.allowed with
  | none => true
  | some f => f specifier file

/-- What is called with the loader of a component. -/
def wrapperExpression (o : Options) : Node :=
  o.wrapper.getD (.propertyAccess (.identifier o.framework.rootIdentifier) o.framework.lazyMember)

/-- The import put before the new statements in the file. -/
def injectedImport (o : Options) (file : String) : Option Node :=
  match o.injected with
  | none => none
  | some f => f file

/-- Fields that are given take the place of the base's; hooks cannot be given untyped. -/
def ofFields (base : Options) (fields : List (String × Raw)) : Checked Options :=
  Options.mk <$> Raw.check fields "only_default_exports" base.onlyDefaultExports Raw.asFlag
    <*> Raw.check fields "only_rewrite_if_fully_removable" base.onlyIfFullyRemovable Raw.asFlag
    <*> Raw.check fields "should_rewrite" base.allowed Raw.asCallable
    <*> Raw.check fields "create_wrapper_expression" base.wrapper Raw.asOptionalCallable
    <*> Raw.check fields "create_import_declaration" base.injected Raw.asCallable
    <*> Raw.check fields "framework" base.framework Framework.ofRaw

end Options

end DeferredImports
