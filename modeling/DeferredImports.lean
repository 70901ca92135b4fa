import DeferredImports.Log.Output
import DeferredImports.Project.Compile
import DeferredImports.Syntax.Equality
import DeferredImports.Proofs.Contract
import DeferredImports.Proofs.PlainImport
import DeferredImports.Proofs.PlanShape
import DeferredImports.Proofs.Evaluation
import DeferredImports.Proofs.NamePreservation
import DeferredImports.Proofs.PlanPrint
import DeferredImports.Proofs.Reading
import DeferredImports.Proofs.Splice
import DeferredImports.Proofs.CircularExports
import DeferredImports.Proofs.ProgramOracle
import DeferredImports.Proofs.QueryHistory
import DeferredImports.Proofs.NameReading
import DeferredImports.Proofs.NameResolution
import DeferredImports.Proofs.BuiltPlan
import DeferredImports.Proofs.FrameworkGate
import DeferredImports.Proofs.StatementPlans
import DeferredImports.Proofs.ResidualImport
import DeferredImports.Proofs.RootBinding
import DeferredImports.Proofs.SteadyOracle
import DeferredImports.Proofs.RepeatedTransform
import DeferredImports.Proofs.FailedLookups
import DeferredImports.Proofs.StarNames
import DeferredImports.Proofs.CompileOutcome
import DeferredImports.Proofs.SplitImport
import DeferredImports.Proofs.FunctionCalls
import DeferredImports.Proofs.FoundNames
import DeferredImports.Proofs.Overloads
import DeferredImports.Proofs.DefaultExports
import DeferredImports.Proofs.TypeOnlyChains
import DeferredImports.Proofs.RelativeSpecifiers
import DeferredImports.Proofs.ExpressionText
import DeferredImports.Proofs.ExportNameTokens
import DeferredImports.Proofs.TypeReferences
import DeferredImports.Proofs.ComponentRules
import DeferredImports.Proofs.RestrictedPlans
import DeferredImports.Proofs.CallTrace
import DeferredImports.Proofs.TreePlaces
import DeferredImports.Proofs.OutermostImports
import DeferredImports.Proofs.OpenFiles
