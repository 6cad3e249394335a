import JvmUnits.Access
import JvmUnits.Builtins
import JvmUnits.Bytes
import JvmUnits.ClassFile.Annotation
import JvmUnits.ClassFile.Basic
import JvmUnits.ClassFile.Constant
import JvmUnits.ClassFile.Fault
import JvmUnits.ClassFile.Layout
import JvmUnits.ClassFile.ModifiedUtf8
import JvmUnits.ClassFile.Pool
import JvmUnits.ClassFile.Reader
import JvmUnits.ClassPath.Index
import JvmUnits.ClassPath.Pattern
import JvmUnits.ClassPath.Services
import JvmUnits.Code.Decode
import JvmUnits.Code.Instruction
import JvmUnits.Code.Walk
import JvmUnits.CommandLine.Options
import JvmUnits.CommandLine.Run
import JvmUnits.CommandLine.Usage
import JvmUnits.Compiler.Artifact
import JvmUnits.Compiler.Failure
import JvmUnits.Compiler.Manifest
import JvmUnits.Compiler.Progress
import JvmUnits.Compiler.Session
import JvmUnits.Compiler.Stage
import JvmUnits.Compiler.State
import JvmUnits.Compiler.WorkList
import JvmUnits.Decimal.Binary
import JvmUnits.Decimal.Layout
import JvmUnits.Decimal.Shortest
import JvmUnits.Descriptor.Reader
import JvmUnits.Descriptor.Stepwise
import JvmUnits.Descriptor.Token
import JvmUnits.Disk.Basic
import JvmUnits.Disk.OsError
import JvmUnits.Disk.Path
import JvmUnits.Disk.Tree
import JvmUnits.Error
import JvmUnits.Json.Basic
import JvmUnits.Main
import JvmUnits.Mention
import JvmUnits.Naming
import JvmUnits.Opcode
import JvmUnits.Proofs.AccessFlags
import JvmUnits.Proofs.Alignment
import JvmUnits.Proofs.AlikeDisks
import JvmUnits.Proofs.ArgumentBlocks
import JvmUnits.Proofs.BranchTargets
import JvmUnits.Proofs.CanonicalOpcodes
import JvmUnits.Proofs.ClassErrors
import JvmUnits.Proofs.ClassNames
import JvmUnits.Proofs.ClassPatterns
import JvmUnits.Proofs.ClassRoundTrip
import JvmUnits.Proofs.ClassWriter
import JvmUnits.Proofs.ClosedWorld
import JvmUnits.Proofs.ControlFlow
import JvmUnits.Proofs.DecodingDeeds
import JvmUnits.Proofs.Descriptors
import JvmUnits.Proofs.DiskFrames
import JvmUnits.Proofs.Encoding
import JvmUnits.Proofs.Failures
import JvmUnits.Proofs.FileListing
import JvmUnits.Proofs.FirstMentions
import JvmUnits.Proofs.HandledOnce
import JvmUnits.Proofs.InstructionLengths
import JvmUnits.Proofs.JsonText
import JvmUnits.Proofs.Labels
import JvmUnits.Proofs.LinearDecoding
import JvmUnits.Proofs.ListingOrder
import JvmUnits.Proofs.LookupNames
import JvmUnits.Proofs.Mention
import JvmUnits.Proofs.MergedIndex
import JvmUnits.Proofs.MoreBuiltins
import JvmUnits.Proofs.Naming
import JvmUnits.Proofs.NativeFiles
import JvmUnits.Proofs.Noninterference
import JvmUnits.Proofs.OutputFiles
import JvmUnits.Proofs.Paths
import JvmUnits.Proofs.PoolSlots
import JvmUnits.Proofs.PrefixFree
import JvmUnits.Proofs.Reachability
import JvmUnits.Proofs.ReadValues
import JvmUnits.Proofs.References
import JvmUnits.Proofs.RejectedDescriptors
import JvmUnits.Proofs.Rendering
import JvmUnits.Proofs.SelectedClasses
import JvmUnits.Proofs.ServiceLines
import JvmUnits.Proofs.Signatures
import JvmUnits.Proofs.StepwiseDecoding
import JvmUnits.Proofs.StrippedSignatures
import JvmUnits.Proofs.SwitchTables
import JvmUnits.Proofs.Termination
import JvmUnits.Proofs.Texts
import JvmUnits.Proofs.VoidTypes
import JvmUnits.Proofs.WorkList
import JvmUnits.Text.Blank
import JvmUnits.Text.CodeRange
import JvmUnits.Text.Combining
import JvmUnits.Text.Hex
import JvmUnits.Text.Pieces
import JvmUnits.Text.Quoted
import JvmUnits.Text.Unprintable
import JvmUnits.Text.Utf8
import JvmUnits.Unit.Basic
import JvmUnits.Unit.Node
import JvmUnits.Unit.References
import JvmUnits.Unit.Render
import JvmUnits.Unit.Translate
