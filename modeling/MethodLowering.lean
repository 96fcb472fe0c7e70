import MethodLowering.Batch
import MethodLowering.Bindings
import MethodLowering.Bytecode.Decoding
import MethodLowering.Bytecode.Descriptor
import MethodLowering.Bytecode.Encoding
import MethodLowering.Bytecode.Forms
import MethodLowering.Bytecode.Instruction
import MethodLowering.Bytecode.Opcode
import MethodLowering.Bytecode.SymbolTable
import MethodLowering.Bytecode.Verification
import MethodLowering.Callable.Basic
import MethodLowering.Callable.Convention
import MethodLowering.Callable.Kind
import MethodLowering.Callable.Scope
import MethodLowering.Error
import MethodLowering.Frame.Block
import MethodLowering.Frame.Prologue
import MethodLowering.Frame.ReturnShape
import MethodLowering.Frame.SlotRole
import MethodLowering.Frame.SlotTable
import MethodLowering.Json.Form
import MethodLowering.Json.Parser
import MethodLowering.Json.Printer
import MethodLowering.Json.Value
import MethodLowering.Number.Double
import MethodLowering.Number.Shortest
import MethodLowering.Signature.CodeMetadata
import MethodLowering.Signature.Fault
import MethodLowering.Signature.Forms
import MethodLowering.Signature.Parameter
import MethodLowering.Signature.ParameterList
import MethodLowering.Target.Basic
import MethodLowering.Target.Toml
import MethodLowering.Text.Parse
import MethodLowering.Text.Quoted
import MethodLowering.Text.Unprintable
import MethodLowering.Toml.Document
import MethodLowering.Toml.Parser
import MethodLowering.Toml.Scalar
import MethodLowering.Toml.Text
import MethodLowering.Proofs.DeclarationOrder
import MethodLowering.Proofs.Classification
import MethodLowering.Proofs.ParameterGrammar
import MethodLowering.Proofs.PrologueCode
import MethodLowering.Proofs.LoweringMeaning
import MethodLowering.Proofs.LoweringOutcome
import MethodLowering.Proofs.DescriptorGrammar
import MethodLowering.Proofs.ReturnAgreement
import MethodLowering.Proofs.OpStream
import MethodLowering.Proofs.SymbolIndices
import MethodLowering.Proofs.TableRuns
import MethodLowering.Proofs.EncodingRoundTrip
import MethodLowering.Proofs.EncodingEffects
import MethodLowering.Proofs.BatchReport
import MethodLowering.Proofs.WorkerPool
import MethodLowering.Proofs.Encodability
import MethodLowering.Proofs.ArgumentDelivery
import MethodLowering.Proofs.BindingTables
import MethodLowering.Proofs.IntrospectionLayout
import MethodLowering.Proofs.TextReading
import MethodLowering.Proofs.JsonText
import MethodLowering.Proofs.JsonForms
import MethodLowering.Proofs.ParameterForms
import MethodLowering.Proofs.ShapedRuns
import MethodLowering.Proofs.ShapeNormalForm
import MethodLowering.Proofs.CodeByArity
import MethodLowering.Proofs.StackDepth
import MethodLowering.Proofs.MethodTypes
import MethodLowering.Proofs.ShortestEncoding
import MethodLowering.Proofs.FrameByPosition
import MethodLowering.Proofs.PrologueOutcome
import MethodLowering.Proofs.ReadingPastFaults
