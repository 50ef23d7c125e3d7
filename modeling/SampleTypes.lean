import SampleTypes.Assoc
import SampleTypes.ClassModule
import SampleTypes.Command.Arguments
import SampleTypes.Command.Places
import SampleTypes.Command.Run
import SampleTypes.Command.Session
import SampleTypes.Configuration
import SampleTypes.Decimal.Binary64
import SampleTypes.Decimal.Numeral
import SampleTypes.Decimal.Shortest
import SampleTypes.Declaration
import SampleTypes.Discovery
import SampleTypes.Fault
import SampleTypes.Files.FileSystem
import SampleTypes.Files.Path
import SampleTypes.Identifier
import SampleTypes.Json.Printer
import SampleTypes.Json.Reader
import SampleTypes.Json.Value
import SampleTypes.Main
import SampleTypes.Model
import SampleTypes.Model.Ambient
import SampleTypes.Model.Validation
import SampleTypes.Outline
import SampleTypes.Plan
import SampleTypes.Position
import SampleTypes.Proofs.Assoc.Bindings
import SampleTypes.Proofs.Command.Actions
import SampleTypes.Proofs.Command.Agreement
import SampleTypes.Proofs.Command.Atomicity
import SampleTypes.Proofs.Command.Building
import SampleTypes.Proofs.Command.Declarations
import SampleTypes.Proofs.Command.Escapes
import SampleTypes.Proofs.Command.FatalWarnings
import SampleTypes.Proofs.Command.Printing
import SampleTypes.Proofs.Command.RootClasses
import SampleTypes.Proofs.Command.Samples
import SampleTypes.Proofs.Command.Stages
import SampleTypes.Proofs.Command.Stems
import SampleTypes.Proofs.Command.Targets
import SampleTypes.Proofs.Command.Unreported
import SampleTypes.Proofs.Command.Words
import SampleTypes.Proofs.Decimal.WholeNumbers
import SampleTypes.Proofs.Discovery.ModuleNames
import SampleTypes.Proofs.Discovery.SourceFiles
import SampleTypes.Proofs.Files.Listings
import SampleTypes.Proofs.Files.Paths
import SampleTypes.Proofs.Files.Trees
import SampleTypes.Proofs.Files.Writing
import SampleTypes.Proofs.Identifier.Attributes
import SampleTypes.Proofs.Identifier.Keys
import SampleTypes.Proofs.Identifier.Numbering
import SampleTypes.Proofs.Identifier.RefusedName
import SampleTypes.Proofs.Identifier.Spelling
import SampleTypes.Proofs.Identifier.Stability
import SampleTypes.Proofs.Identifier.Words
import SampleTypes.Proofs.Json.DistinctKeys
import SampleTypes.Proofs.Json.Documents
import SampleTypes.Proofs.Json.Strings
import SampleTypes.Proofs.Loops
import SampleTypes.Proofs.Models.Attributes
import SampleTypes.Proofs.Models.Buildable
import SampleTypes.Proofs.Models.Building
import SampleTypes.Proofs.Models.Checking
import SampleTypes.Proofs.Models.Documents
import SampleTypes.Proofs.Models.FullModels
import SampleTypes.Proofs.Models.Making
import SampleTypes.Proofs.Models.Nesting
import SampleTypes.Proofs.Models.Removal
import SampleTypes.Proofs.Models.RoundTrip
import SampleTypes.Proofs.Models.Stability
import SampleTypes.Proofs.Models.Winners
import SampleTypes.Proofs.Ownership.Address
import SampleTypes.Proofs.Ownership.Definitions
import SampleTypes.Proofs.Ownership.NestedTypes
import SampleTypes.Proofs.Ownership.Owner
import SampleTypes.Proofs.Ownership.TransportedReferences
import SampleTypes.Proofs.Ownership.Warnings
import SampleTypes.Proofs.Rendering.Agreement
import SampleTypes.Proofs.Rendering.Aliases
import SampleTypes.Proofs.Rendering.Classes
import SampleTypes.Proofs.Rendering.Documentation
import SampleTypes.Proofs.Rendering.Lines
import SampleTypes.Proofs.Rendering.Names
import SampleTypes.Proofs.Rendering.Rebinding
import SampleTypes.Proofs.Rendering.Repositories
import SampleTypes.Proofs.Rendering.ReservedNames
import SampleTypes.Proofs.Rendering.Transport
import SampleTypes.Proofs.Repository.Runs
import SampleTypes.Proofs.Schedule.Canonical
import SampleTypes.Proofs.Schedule.Cycles
import SampleTypes.Proofs.Schedule.Greedy
import SampleTypes.Proofs.Schedule.Order
import SampleTypes.Proofs.Schedule.Queue
import SampleTypes.Proofs.Settings.ScaffoldPaths
import SampleTypes.Proofs.Source.EntityClasses
import SampleTypes.Proofs.Source.ImportLines
import SampleTypes.Proofs.Source.Imports
import SampleTypes.Proofs.Source.Lexemes
import SampleTypes.Proofs.Source.LineEnds
import SampleTypes.Proofs.Source.Lines
import SampleTypes.Proofs.Source.Names
import SampleTypes.Proofs.Source.Parsing
import SampleTypes.Proofs.Source.ReservedWords
import SampleTypes.Proofs.Source.Tokens
import SampleTypes.Proofs.Text.Splitting
import SampleTypes.Proofs.Walk.Contribution
import SampleTypes.Proofs.Walk.Frame
import SampleTypes.Proofs.Walk.Shape
import SampleTypes.Registry
import SampleTypes.Rendering
import SampleTypes.Repository
import SampleTypes.Resolution
import SampleTypes.Sample
import SampleTypes.Scaffold
import SampleTypes.Schedule
import SampleTypes.Setting
import SampleTypes.Settings
import SampleTypes.Source.Defect
import SampleTypes.Source.Entities
import SampleTypes.Source.Grammar
import SampleTypes.Source.Pattern
import SampleTypes.Source.Reading
import SampleTypes.Source.Soundness
import SampleTypes.Source.Statement
import SampleTypes.Source.Token
import SampleTypes.Synthesis
import SampleTypes.Text.Blank
import SampleTypes.Text.CharClass
import SampleTypes.Text.LaterClass
import SampleTypes.Text.Literal
import SampleTypes.Text.Order
import SampleTypes.Text.Upper
import SampleTypes.Text.Utf8
import SampleTypes.Toml.Moment
import SampleTypes.Toml.Reader
import SampleTypes.Transport
