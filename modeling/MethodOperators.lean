import MethodOperators.Operator.File
import MethodOperators.Registry.Host
import MethodOperators.Suppression
import MethodOperators.Proofs.Interruption
import MethodOperators.Proofs.Retraction
import MethodOperators.Proofs.CalledOffChecks
import MethodOperators.Proofs.ReportLog
import MethodOperators.Proofs.Substitution
import MethodOperators.Proofs.Walk
import MethodOperators.Proofs.Enumeration
import MethodOperators.Proofs.Inheritance
import MethodOperators.Proofs.NearestInstance
import MethodOperators.Proofs.Conversion
import MethodOperators.Proofs.Applicability
import MethodOperators.Proofs.Substitutability
import MethodOperators.Proofs.Instantiation
import MethodOperators.Proofs.MethodCount
import MethodOperators.Proofs.Construction
import MethodOperators.Proofs.Integrity
import MethodOperators.Proofs.Locality
import MethodOperators.Proofs.DeclarationOrder
import MethodOperators.Proofs.MethodNames
import MethodOperators.Proofs.SharedFlags
import MethodOperators.Proofs.Collection
import MethodOperators.Proofs.FirstMatch
import MethodOperators.Proofs.BoundedParameters
import MethodOperators.Proofs.NestedArrays
import MethodOperators.Proofs.SubtypeOrder
import MethodOperators.Proofs.OperatorChains
import MethodOperators.Proofs.OpenParameters
import MethodOperators.Proofs.TopAndBottom
import MethodOperators.Proofs.ExpressionCalls
import MethodOperators.Proofs.Dictionaries
import MethodOperators.Proofs.Composition
import MethodOperators.Proofs.ByteOrder
import MethodOperators.Proofs.Configuration
import MethodOperators.Proofs.Layers
import MethodOperators.Proofs.Termination
