import JvmSignature.AccessFlags
import JvmSignature.ClassStub
import JvmSignature.ClassTable.Basic
import JvmSignature.ClassTable.Platform
import JvmSignature.ClassTable.Subtyping
import JvmSignature.Data.Datum
import JvmSignature.Data.Decode
import JvmSignature.Data.Records
import JvmSignature.Decimal.Basic
import JvmSignature.Decimal.Shortest
import JvmSignature.Descriptor.Basic
import JvmSignature.Descriptor.Encoded
import JvmSignature.Descriptor.Error
import JvmSignature.Descriptor.Expansion
import JvmSignature.Descriptor.Name
import JvmSignature.Descriptor.Nested
import JvmSignature.Dictionary
import JvmSignature.Json.Number
import JvmSignature.Json.Quoted
import JvmSignature.Json.Value
import JvmSignature.LogFilter
import JvmSignature.LogFilter.Directives
import JvmSignature.Member
import JvmSignature.Method
import JvmSignature.Primitive
import JvmSignature.Proofs.Registry.Commutation
import JvmSignature.Proofs.Registry.Lookup
import JvmSignature.Registry
import JvmSignature.Resolver
import JvmSignature.Settings
import JvmSignature.SettingsDocument
import JvmSignature.Signature.Comment
import JvmSignature.Signature.Declaration
import JvmSignature.Signature.Error
import JvmSignature.Signature.LogLine
import JvmSignature.Signature.Matching
import JvmSignature.Signature.Parts
import JvmSignature.Signature.Ranking
import JvmSignature.Signature.TypeList
import JvmSignature.Signature.TypeText
import JvmSignature.Signature.TypeVariables
import JvmSignature.SourceOutline
import JvmSignature.Stamp
import JvmSignature.Table
import JvmSignature.Text.Alphanumeric
import JvmSignature.Text.Basic
import JvmSignature.Text.Blank
import JvmSignature.Text.Entity
import JvmSignature.Text.Printable
import JvmSignature.Text.Quoted
import JvmSignature.Text.Reader
import JvmSignature.Text.TopLevel
import JvmSignature.Toml.Document
import JvmSignature.Toml.Lexical
import JvmSignature.Toml.Moment
import JvmSignature.Toml.Number
import JvmSignature.Toml.Quoted
import JvmSignature.Toml.Tree
import JvmSignature.Toml.Value
import JvmSignature.TypeSystem
import JvmSignature.Proofs.Registry.History
import JvmSignature.Proofs.Text.Cuts
import JvmSignature.Proofs.Text.Names
import JvmSignature.Proofs.Text.TopLevel
import JvmSignature.Proofs.Descriptor.Reading
import JvmSignature.Proofs.Descriptor.Naming
import JvmSignature.Proofs.Signature.LogLine
import JvmSignature.Proofs.Signature.Spelling
import JvmSignature.Proofs.ClassTable.Resolution
import JvmSignature.Proofs.Resolver.SelfLookup
import JvmSignature.Proofs.Signature.Splitting
import JvmSignature.Proofs.Resolver.ClassNames
import JvmSignature.Proofs.Signature.Declaration
import JvmSignature.Proofs.Signature.Ranking
import JvmSignature.Proofs.Signature.MemberDeclaration
import JvmSignature.Proofs.Signature.Erasure
import JvmSignature.Proofs.ClassTable.Reachability
import JvmSignature.Proofs.ClassTable.Assignability
import JvmSignature.Proofs.Descriptor.Grammar
import JvmSignature.Proofs.Signature.Alignment
import JvmSignature.Proofs.Signature.Walk
import JvmSignature.Proofs.Signature.TypeList
import JvmSignature.Proofs.Registry.Effect
import JvmSignature.Proofs.Resolver.Priority
import JvmSignature.Proofs.Resolver.Constructors
import JvmSignature.Proofs.Resolver.ErasedTypes
import JvmSignature.Proofs.ClassTable.Search
import JvmSignature.Proofs.ClassTable.Arrays
import JvmSignature.Proofs.Descriptor.BinaryName
import JvmSignature.Proofs.Signature.EncodedList
import JvmSignature.Proofs.Descriptor.Expansion
import JvmSignature.Proofs.Signature.Relaxation
import JvmSignature.Proofs.ClassTable.DeclaredTypes
import JvmSignature.Proofs.Resolver.StoredTypes
import JvmSignature.Proofs.Signature.FirstBest
import JvmSignature.Proofs.Signature.NamedLines
import JvmSignature.Proofs.Descriptor.Stability
import JvmSignature.Proofs.LogFilter.Library
import JvmSignature.Proofs.LogFilter.Lists
import JvmSignature.Proofs.LogFilter.Refinement
import JvmSignature.Proofs.Text.Joined
import JvmSignature.Proofs.Descriptor.NestedType
import JvmSignature.Proofs.Descriptor.NormalForm
