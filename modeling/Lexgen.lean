import Lexgen.Text.Blank
import Lexgen.Text.Quoted
import Lexgen.Name.Entity
import Lexgen.Data.Entries
import Lexgen.Data.Sorted
import Lexgen.Code.Writer
import Lexgen.Code.Imports
import Lexgen.TypeScript.Declaration
import Lexgen.TypeScript.Value
import Lexgen.TypeScript.Function
import Lexgen.TypeScript.Module
import Lexgen.Text.Position
import Lexgen.Json.Printer
import Lexgen.Json.Reader
import Lexgen.Lexicon.Document
import Lexgen.Lexicon.Schema
import Lexgen.Lexicon.Decoding
import Lexgen.Lexicon.Basic
import Lexgen.Types.Leaf
import Lexgen.Types.Resolution
import Lexgen.Types.Module
import Lexgen.Client.Module
import Lexgen.Client.Manifest
import Lexgen.Routes.Config
import Lexgen.Main
import Lexgen.Proofs.Types.Naming
import Lexgen.Proofs.Types.Lifting
import Lexgen.Proofs.Types.Unfolding
import Lexgen.Data.Steps
import Lexgen.Proofs.Types.Drafts
import Lexgen.Proofs.Types.Plain
import Lexgen.Proofs.Types.Names
import Lexgen.Proofs.Types.References
import Lexgen.Proofs.Client.Agreement
import Lexgen.Proofs.Types.Failure
import Lexgen.Proofs.Toml.Settings
import Lexgen.Proofs.Client.Manifest
import Lexgen.Proofs.Name.Casing
import Lexgen.Proofs.Code.Writer
import Lexgen.Proofs.Routes.Collection
import Lexgen.Proofs.TypeScript.Doc
import Lexgen.Proofs.Client.Collection
import Lexgen.Proofs.Files.Path
import Lexgen.Proofs.Files.Access
import Lexgen.Proofs.Project.Store
import Lexgen.Proofs.Command.Plan
import Lexgen.Proofs.Client.Latest
import Lexgen.Proofs.Command.Client
import Lexgen.Proofs.Command.Routes
import Lexgen.Proofs.Types.Emission
import Lexgen.Proofs.Types.Parentheses
import Lexgen.Proofs.Project.Changes
import Lexgen.Proofs.Command.Changes
import Lexgen.Proofs.Command.Concurrency
import Lexgen.Proofs.Lexicon.Annotations
import Lexgen.Proofs.Types.Annotations
import Lexgen.Proofs.TypeScript.Value
import Lexgen.Proofs.Routes.Config
import Lexgen.Proofs.Files.Destination
import Lexgen.Proofs.Project.Specifier
import Lexgen.Proofs.Name.Inflection
import Lexgen.Proofs.Types.LiteralUnion
import Lexgen.Proofs.Data.Distinct
import Lexgen.Proofs.Command.Place
import Lexgen.Proofs.TypeScript.Imports
import Lexgen.Proofs.Types.BuiltIns
import Lexgen.Proofs.Client.Captures
import Lexgen.Proofs.Code.Behind
import Lexgen.Proofs.TypeScript.Sections
import Lexgen.Proofs.TypeScript.Comment
import Lexgen.Proofs.Lexicon.Required
import Lexgen.Proofs.Types.Required
import Lexgen.Proofs.TypeScript.Key
import Lexgen.Proofs.Types.FullText
import Lexgen.Proofs.Types.Arrangement
import Lexgen.Proofs.Lexicon.Distinct
import Lexgen.Proofs.Types.Members
import Lexgen.Proofs.Text.ByteOrder
import Lexgen.Proofs.TypeScript.Collected
import Lexgen.Proofs.Text.Casing
import Lexgen.Proofs.Name.Pascal
import Lexgen.Proofs.Routes.Known
import Lexgen.Proofs.Json.Strings
import Lexgen.Proofs.Json.Numbers
import Lexgen.Proofs.Json.Keys
import Lexgen.Proofs.Json.Layout
import Lexgen.Proofs.Lexicon.Search
import Lexgen.Proofs.Lexicon.Labels
import Lexgen.Proofs.Code.Growth
import Lexgen.Proofs.Text.Position
import Lexgen.Proofs.Lexicon.Malformed
import Lexgen.Proofs.Client.Marked
import Lexgen.Proofs.Types.Identifiers
import Lexgen.Proofs.Types.Kept
