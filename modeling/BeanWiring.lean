import BeanWiring.Assembly.Aspect
import BeanWiring.Assembly.Bean
import BeanWiring.Assembly.Names
import BeanWiring.Assembly.Value
import BeanWiring.Bean.Definition
import BeanWiring.Bean.Json
import BeanWiring.Bean.Value
import BeanWiring.Command.Arguments
import BeanWiring.Command.Run
import BeanWiring.Entries
import BeanWiring.Error
import BeanWiring.Files.Path
import BeanWiring.Files.Tree
import BeanWiring.Import.DocumentSet
import BeanWiring.Import.Resolution
import BeanWiring.Json
import BeanWiring.Main
import BeanWiring.Markup.Document
import BeanWiring.Markup.Element
import BeanWiring.Markup.Event
import BeanWiring.Markup.Reference
import BeanWiring.Markup.Tag
import BeanWiring.Notice
import BeanWiring.Proofs.Assembly.Arrays
import BeanWiring.Proofs.Assembly.Aspects
import BeanWiring.Proofs.Assembly.Bean
import BeanWiring.Proofs.Assembly.Counter
import BeanWiring.Proofs.Assembly.Declaration
import BeanWiring.Proofs.Assembly.Dependencies
import BeanWiring.Proofs.Assembly.Draft
import BeanWiring.Proofs.Assembly.Effect
import BeanWiring.Proofs.Assembly.Faults
import BeanWiring.Proofs.Assembly.FirstFault
import BeanWiring.Proofs.Assembly.History
import BeanWiring.Proofs.Assembly.Names
import BeanWiring.Proofs.Assembly.Numbering
import BeanWiring.Proofs.Assembly.Overlay
import BeanWiring.Proofs.Assembly.Pointcuts
import BeanWiring.Proofs.Assembly.Reading
import BeanWiring.Proofs.Assembly.References
import BeanWiring.Proofs.Assembly.Rereading
import BeanWiring.Proofs.Assembly.Selection
import BeanWiring.Proofs.Assembly.Session
import BeanWiring.Proofs.Assembly.Sound
import BeanWiring.Proofs.Assembly.Stability
import BeanWiring.Proofs.Assembly.Winner
import BeanWiring.Proofs.Bean.Keys
import BeanWiring.Proofs.Bean.RoundTrip
import BeanWiring.Proofs.Bean.SameData
import BeanWiring.Proofs.Command.AllOrNothing
import BeanWiring.Proofs.Command.Report
import BeanWiring.Proofs.Command.Startup
import BeanWiring.Proofs.Entries
import BeanWiring.Proofs.Files.Absolute
import BeanWiring.Proofs.Files.Location
import BeanWiring.Proofs.Files.Spelling
import BeanWiring.Proofs.Import.Declared
import BeanWiring.Proofs.Import.Encounter
import BeanWiring.Proofs.Import.Frame
import BeanWiring.Proofs.Import.Gifts
import BeanWiring.Proofs.Import.Graph
import BeanWiring.Proofs.Import.Insertion
import BeanWiring.Proofs.Import.Journey
import BeanWiring.Proofs.Import.Places
import BeanWiring.Proofs.Import.Progress
import BeanWiring.Proofs.Import.Resolution
import BeanWiring.Proofs.Import.RootSpelling
import BeanWiring.Proofs.Import.Search
import BeanWiring.Proofs.Json
import BeanWiring.Proofs.Markup.Bare
import BeanWiring.Proofs.Markup.CharacterData
import BeanWiring.Proofs.Markup.Defects
import BeanWiring.Proofs.Markup.Following
import BeanWiring.Proofs.Markup.Growth
import BeanWiring.Proofs.Markup.Ids
import BeanWiring.Proofs.Markup.Lines
import BeanWiring.Proofs.Markup.Order
import BeanWiring.Proofs.Markup.Outline
import BeanWiring.Proofs.Markup.Parsing
import BeanWiring.Proofs.Markup.Place
import BeanWiring.Proofs.Markup.Reference
import BeanWiring.Proofs.Markup.Rendering
import BeanWiring.Proofs.Markup.RoundTrip
import BeanWiring.Proofs.Markup.Search
import BeanWiring.Proofs.Markup.Segment
import BeanWiring.Proofs.Markup.Tag
import BeanWiring.Proofs.Markup.Wording
import BeanWiring.Proofs.Source.Answer
import BeanWiring.Proofs.Source.Asking
import BeanWiring.Proofs.Source.Family
import BeanWiring.Proofs.Source.Giving
import BeanWiring.Proofs.Source.Interleaving
import BeanWiring.Proofs.Source.Lookup
import BeanWiring.Proofs.Source.Order
import BeanWiring.Proofs.Source.Plan
import BeanWiring.Proofs.Source.Snapshot
import BeanWiring.Proofs.Source.Stability
import BeanWiring.Proofs.Source.Watch
import BeanWiring.Proofs.Text.Numbers
import BeanWiring.Proofs.Text.Trimming
import BeanWiring.Settings.Composition
import BeanWiring.Settings.Logging
import BeanWiring.Source.Chain
import BeanWiring.Source.Documents
import BeanWiring.Source.Plan
import BeanWiring.Source.Store
import BeanWiring.Text.Blank
import BeanWiring.Text.Offset
import BeanWiring.Text.Pieces
import BeanWiring.Toml.Number
import BeanWiring.Toml.Reader
import BeanWiring.Toml.Text
import BeanWiring.Toml.Value
