import GoLowering.Constant.Basic
import GoLowering.Constant.Binary64
import GoLowering.Constant.Exact
import GoLowering.Constant.Fold
import GoLowering.Constant.Literal
import GoLowering.Diagnostic.Basic
import GoLowering.Diagnostic.Report
import GoLowering.Environment.Basic
import GoLowering.Environment.Registry
import GoLowering.Environment.Standard
import GoLowering.Host.Execution
import GoLowering.Host.Grammar
import GoLowering.Host.Imports
import GoLowering.Host.Layout
import GoLowering.Host.Marking
import GoLowering.Host.Nesting
import GoLowering.Host.Printer
import GoLowering.Host.Rendering
import GoLowering.Host.Scanner
import GoLowering.Host.Syntax
import GoLowering.Keyed
import GoLowering.Lowering.Access
import GoLowering.Lowering.Assignments
import GoLowering.Lowering.Blocks
import GoLowering.Lowering.Calls
import GoLowering.Lowering.Coercion
import GoLowering.Lowering.Composites
import GoLowering.Lowering.Comprehensions
import GoLowering.Lowering.ControlFlow
import GoLowering.Lowering.Declarations
import GoLowering.Lowering.ErrorWraps
import GoLowering.Lowering.Expressions
import GoLowering.Lowering.Iteration
import GoLowering.Lowering.Lambdas
import GoLowering.Lowering.Literals
import GoLowering.Lowering.Members
import GoLowering.Lowering.NameUse
import GoLowering.Lowering.Nodes
import GoLowering.Lowering.Operators
import GoLowering.Lowering.State
import GoLowering.Lowering.Statements
import GoLowering.Lowering.TypeExpressions
import GoLowering.Lowering.Unit
import GoLowering.Lowering.ValueSpecs
import GoLowering.Names
import GoLowering.Operator
import GoLowering.Outline
import GoLowering.Outline.Indexed
import GoLowering.Proofs.Agreement
import GoLowering.Proofs.AgreementExpressions
import GoLowering.Proofs.AgreementStatements
import GoLowering.Proofs.BalancedBlocks
import GoLowering.Proofs.BalancedCalls
import GoLowering.Proofs.BalancedDeclarations
import GoLowering.Proofs.BalancedExpressions
import GoLowering.Proofs.BalancedOperands
import GoLowering.Proofs.BalancedStatements
import GoLowering.Proofs.Balances
import GoLowering.Proofs.BigInitializers
import GoLowering.Proofs.BinaryOperations
import GoLowering.Proofs.CallArguments
import GoLowering.Proofs.Collecting
import GoLowering.Proofs.CommonTypes
import GoLowering.Proofs.CompoundAssignments
import GoLowering.Proofs.ComprehensionResults
import GoLowering.Proofs.Comprehensions
import GoLowering.Proofs.ConstantDeclarations
import GoLowering.Proofs.ConstantExpressions
import GoLowering.Proofs.ConstantPlaces
import GoLowering.Proofs.ConstantRanges
import GoLowering.Proofs.ConstantRules
import GoLowering.Proofs.ControlTransfers
import GoLowering.Proofs.ConvertedConstants
import GoLowering.Proofs.CursorMoves
import GoLowering.Proofs.DeclarationNames
import GoLowering.Proofs.DefinedNames
import GoLowering.Proofs.Descent
import GoLowering.Proofs.Effects
import GoLowering.Proofs.ElementIndexes
import GoLowering.Proofs.EntryFunction
import GoLowering.Proofs.ErrorBlocks
import GoLowering.Proofs.ErrorClosures
import GoLowering.Proofs.ExpressionGrammar
import GoLowering.Proofs.FailedOperands
import GoLowering.Proofs.FailedValues
import GoLowering.Proofs.Filling
import GoLowering.Proofs.FloatWords
import GoLowering.Proofs.Frame
import GoLowering.Proofs.FrameDeclarations
import GoLowering.Proofs.FrameExpressions
import GoLowering.Proofs.FrameStatements
import GoLowering.Proofs.FrameTexts
import GoLowering.Proofs.GeneratedNames
import GoLowering.Proofs.GroundedBodies
import GoLowering.Proofs.GroundedDeclarations
import GoLowering.Proofs.GroundedExpressions
import GoLowering.Proofs.GroundedParts
import GoLowering.Proofs.GroundedStatements
import GoLowering.Proofs.Halting
import GoLowering.Proofs.HeaderLiterals
import GoLowering.Proofs.HeaderOrder
import GoLowering.Proofs.Histories
import GoLowering.Proofs.HoistedStatements
import GoLowering.Proofs.HostAssignability
import GoLowering.Proofs.HostComparisons
import GoLowering.Proofs.IntegerArithmetic
import GoLowering.Proofs.InvalidOperands
import GoLowering.Proofs.IterationNames
import GoLowering.Proofs.IterationPlans
import GoLowering.Proofs.KnownValues
import GoLowering.Proofs.LambdaLiterals
import GoLowering.Proofs.LinePositions
import GoLowering.Proofs.LiteralElements
import GoLowering.Proofs.LoopControl
import GoLowering.Proofs.LoweredBodies
import GoLowering.Proofs.MarkerLines
import GoLowering.Proofs.MarkerOrder
import GoLowering.Proofs.MarkerVisits
import GoLowering.Proofs.NestedLoops
import GoLowering.Proofs.NestedStatements
import GoLowering.Proofs.NumberLiterals
import GoLowering.Proofs.Numerals
import GoLowering.Proofs.OperandFamilies
import GoLowering.Proofs.Outcomes
import GoLowering.Proofs.OutlineHistories
import GoLowering.Proofs.OutlineOrder
import GoLowering.Proofs.PathSpellings
import GoLowering.Proofs.Phases
import GoLowering.Proofs.PrintedExpressions
import GoLowering.Proofs.PrintedImports
import GoLowering.Proofs.PrintedPieces
import GoLowering.Proofs.PrintedTraces
import GoLowering.Proofs.PromotedFields
import GoLowering.Proofs.PropagatedErrors
import GoLowering.Proofs.QuotedTexts
import GoLowering.Proofs.Records
import GoLowering.Proofs.Redeclarations
import GoLowering.Proofs.Regimes
import GoLowering.Proofs.RegisteredOperations
import GoLowering.Proofs.RelativePaths
import GoLowering.Proofs.Reports
import GoLowering.Proofs.ResolvedReferences
import GoLowering.Proofs.RuneLiterals
import GoLowering.Proofs.Runs
import GoLowering.Proofs.ScannedTokens
import GoLowering.Proofs.ScopeBindings
import GoLowering.Proofs.ScopeChains
import GoLowering.Proofs.ScopeHistories
import GoLowering.Proofs.Situations
import GoLowering.Proofs.SpelledTypes
import GoLowering.Proofs.StillParts
import GoLowering.Proofs.TargetOperations
import GoLowering.Proofs.Termination
import GoLowering.Proofs.TextBytes
import GoLowering.Proofs.TypeIdentity
import GoLowering.Proofs.TypeNames
import GoLowering.Proofs.TypedPlaces
import GoLowering.Proofs.UnderlyingTypes
import GoLowering.Proofs.ValueHistories
import GoLowering.Proofs.WrappedOperands
import GoLowering.Proofs.WrittenNumbers
import GoLowering.Proofs.ZeroValues
import GoLowering.Run
import GoLowering.Scopes
import GoLowering.Settings.Basic
import GoLowering.Settings.Reading
import GoLowering.Settings.Search
import GoLowering.Settings.Verbosity
import GoLowering.Settling
import GoLowering.Source.Basic
import GoLowering.Source.Path
import GoLowering.Source.Text
import GoLowering.Surface.Draft
import GoLowering.Surface.Moves
import GoLowering.Surface.Syntax
import GoLowering.Text.Json
import GoLowering.Text.Quoted
import GoLowering.Text.Uppercase
import GoLowering.Text.Visible
import GoLowering.Toml.Basic
import GoLowering.Toml.Document
import GoLowering.Toml.Reader
import GoLowering.Toml.Strings
import GoLowering.Types.Basic
import GoLowering.Types.Indexed
import GoLowering.Types.Spelling
