import CodeAtlas.Artifact.Compilation
import CodeAtlas.Artifact.Config
import CodeAtlas.Artifact.Fragment
import CodeAtlas.Artifact.Output
import CodeAtlas.Artifact.Recall
import CodeAtlas.Assembly.Block
import CodeAtlas.Assembly.PcTable
import CodeAtlas.Assembly.Preamble
import CodeAtlas.Ast.Declaration
import CodeAtlas.Ast.Dialect
import CodeAtlas.Ast.Literals
import CodeAtlas.Ast.Node
import CodeAtlas.Ast.Unit
import CodeAtlas.Bytecode.Instruction
import CodeAtlas.Bytecode.Opcode
import CodeAtlas.Bytecode.Selector
import CodeAtlas.Combined.Artifact
import CodeAtlas.Combined.Output
import CodeAtlas.Contract.Basic
import CodeAtlas.Contract.Builder
import CodeAtlas.Contract.Inheritance
import CodeAtlas.Contract.Kind
import CodeAtlas.Contract.Model
import CodeAtlas.Contract.Query
import CodeAtlas.Double
import CodeAtlas.Error
import CodeAtlas.Hex
import CodeAtlas.Json.Basic
import CodeAtlas.Json.Decode
import CodeAtlas.Json.Printer
import CodeAtlas.Json.Reader
import CodeAtlas.Keccak
import CodeAtlas.Literal.Basic
import CodeAtlas.Literal.Collection
import CodeAtlas.Memo
import CodeAtlas.Source.Catalog
import CodeAtlas.Source.Excerpt
import CodeAtlas.Source.FileTree
import CodeAtlas.Source.Files
import CodeAtlas.Span
import CodeAtlas.Standard.Artifact
import CodeAtlas.Standard.Diagnostic
import CodeAtlas.Standard.Input
import CodeAtlas.Standard.Output
import CodeAtlas.Text.Alphabetic
import CodeAtlas.Text.Combining
import CodeAtlas.Text.Lowercase
import CodeAtlas.Text.Numeral
import CodeAtlas.Text.Printable
import CodeAtlas.Text.Split
import CodeAtlas.Text.Utf8
import CodeAtlas.Version.Basic
import CodeAtlas.Version.Parser
import CodeAtlas.Version.Pragma
import CodeAtlas.Version.Registry
import CodeAtlas.Version.Requirement
import CodeAtlas.Proofs.Artifact.AbsentPc
import CodeAtlas.Proofs.Artifact.FileIndexes
import CodeAtlas.Proofs.Artifact.Fragment
import CodeAtlas.Proofs.Artifact.Loading
import CodeAtlas.Proofs.Artifact.Nearest
import CodeAtlas.Proofs.Artifact.Recall
import CodeAtlas.Proofs.Artifact.Record
import CodeAtlas.Proofs.Artifact.SameCode
import CodeAtlas.Proofs.Artifact.Selection
import CodeAtlas.Proofs.Artifact.Shapes
import CodeAtlas.Proofs.Artifact.ShortName
import CodeAtlas.Proofs.Artifact.YulEntry
import CodeAtlas.Proofs.Assembly.Jumps
import CodeAtlas.Proofs.Assembly.Layout
import CodeAtlas.Proofs.Assembly.Listing
import CodeAtlas.Proofs.Assembly.OutOfStep
import CodeAtlas.Proofs.Assembly.Preamble
import CodeAtlas.Proofs.Assembly.Record
import CodeAtlas.Proofs.Assembly.Simulation
import CodeAtlas.Proofs.Assembly.Table
import CodeAtlas.Proofs.Ast.Invocations
import CodeAtlas.Proofs.Ast.Literals
import CodeAtlas.Proofs.Ast.Outline
import CodeAtlas.Proofs.Ast.Rendering
import CodeAtlas.Proofs.Bytecode.Digits
import CodeAtlas.Proofs.Bytecode.Dispatch
import CodeAtlas.Proofs.Bytecode.Layout
import CodeAtlas.Proofs.Bytecode.Lossless
import CodeAtlas.Proofs.Bytecode.Printing
import CodeAtlas.Proofs.Bytecode.Scan
import CodeAtlas.Proofs.Bytecode.Window
import CodeAtlas.Proofs.Contract.Ancestors
import CodeAtlas.Proofs.Contract.Forms
import CodeAtlas.Proofs.Contract.InPlace
import CodeAtlas.Proofs.Contract.Index
import CodeAtlas.Proofs.Contract.Inheritance
import CodeAtlas.Proofs.Contract.MethodLookup
import CodeAtlas.Proofs.Contract.Pruning
import CodeAtlas.Proofs.Contract.UnitOrder
import CodeAtlas.Proofs.Json.Faithful
import CodeAtlas.Proofs.Json.Places
import CodeAtlas.Proofs.Literal.Number
import CodeAtlas.Proofs.Literal.Values
import CodeAtlas.Proofs.Lookup
import CodeAtlas.Proofs.Memo
import CodeAtlas.Proofs.Memo.Accounting
import CodeAtlas.Proofs.Outcome
import CodeAtlas.Proofs.Source.Excerpt
import CodeAtlas.Proofs.Source.Lines
import CodeAtlas.Proofs.SourceMap
import CodeAtlas.Proofs.Span
import CodeAtlas.Proofs.Text.Numeral
import CodeAtlas.Proofs.Text.Order
import CodeAtlas.Proofs.Text.Reading
import CodeAtlas.Proofs.Text.Utf8
import CodeAtlas.Proofs.Text.Words
import CodeAtlas.Proofs.Version.Bare
import CodeAtlas.Proofs.Version.Bound
import CodeAtlas.Proofs.Version.Fallback
import CodeAtlas.Proofs.Version.Order
import CodeAtlas.Proofs.Version.Pragma
import CodeAtlas.Proofs.Version.Registry
import CodeAtlas.Proofs.Version.Spelling
