import MatrixCalculator.Main
import MatrixCalculator.Registry.BuiltinText
import MatrixCalculator.Proofs.AssignmentSides
import MatrixCalculator.Proofs.FailedCommands
import MatrixCalculator.Proofs.PostfixOrder
import MatrixCalculator.Proofs.SessionCapacity
import MatrixCalculator.Proofs.TreeEvaluation
import MatrixCalculator.Proofs.AtomBoundaries
import MatrixCalculator.Proofs.TokenReading
import MatrixCalculator.Proofs.Literals
import MatrixCalculator.Proofs.WrittenExpression
import MatrixCalculator.Proofs.ReorderingSteps
import MatrixCalculator.Proofs.OperandBalance
import MatrixCalculator.Proofs.SeveralNames
import MatrixCalculator.Proofs.MissingOperators
import MatrixCalculator.Proofs.TokenNames
import MatrixCalculator.Proofs.MentionedNames
import MatrixCalculator.Proofs.Locality
import MatrixCalculator.Proofs.AssignedNames
import MatrixCalculator.Proofs.Parentheses
import MatrixCalculator.Proofs.ArgumentCounters
import MatrixCalculator.Proofs.NamedArguments
import MatrixCalculator.Proofs.DeclaredArguments
import MatrixCalculator.Proofs.SessionSizes
import MatrixCalculator.Proofs.ServiceErrors
import MatrixCalculator.Proofs.RowMajorValues
import MatrixCalculator.Proofs.CommandHistory
import MatrixCalculator.Proofs.BoundNames
import MatrixCalculator.Proofs.RegistryIndex
import MatrixCalculator.Proofs.QuotedText
import MatrixCalculator.Proofs.CompoundAssignment
import MatrixCalculator.Proofs.SingularMatrices
import MatrixCalculator.Proofs.Determinants
import MatrixCalculator.Proofs.ExactDoubles
import MatrixCalculator.Proofs.MatrixPowers
import MatrixCalculator.Proofs.Ranks
import MatrixCalculator.Proofs.TriangularFactors
import MatrixCalculator.Proofs.ArithmeticOperands
import MatrixCalculator.Proofs.EncodedValues
import MatrixCalculator.Proofs.DocumentCells
import MatrixCalculator.Proofs.AtomSplitting
import MatrixCalculator.Proofs.NumericAtoms
import MatrixCalculator.Proofs.NamedResults
import MatrixCalculator.Proofs.SubRanges
import MatrixCalculator.Proofs.ColumnSummaries
import MatrixCalculator.Proofs.ShownValues
import MatrixCalculator.Proofs.InteractiveRuns
import MatrixCalculator.Proofs.IntegerArguments
import MatrixCalculator.Proofs.ParameterNames
import MatrixCalculator.Proofs.ProductCells
