import Scaffold.Main
import Scaffold.Component
import Scaffold.ComponentName
import Scaffold.Settings.Initial
import Scaffold.Settings.Listing
import Scaffold.Settings.Resolve
import Scaffold.Yaml.Document
import Scaffold.Proofs.Script.Setup.Decisions
import Scaffold.Proofs.Script.Setup.Imports
import Scaffold.Proofs.Script.Setup.References
import Scaffold.Proofs.Script.Setup.Layout
import Scaffold.Proofs.Script.Setup.Channels
import Scaffold.Proofs.Script.Options.Decisions
import Scaffold.Proofs.Script.Options.Layout
import Scaffold.Proofs.Script.Options.Binding
import Scaffold.Proofs.Script.Agreement
import Scaffold.Proofs.Script.Bracketing
import Scaffold.Proofs.Script.Erasure
import Scaffold.Proofs.Script.Tags
import Scaffold.Proofs.Script.ReadSets
import Scaffold.Proofs.Command.Protection
import Scaffold.Proofs.Command.Printing
import Scaffold.Proofs.Command.Initialization
import Scaffold.Proofs.Settings.Listing
import Scaffold.Proofs.Settings.Flattening
import Scaffold.Proofs.Settings.Presentation
import Scaffold.Proofs.ComponentName.Grammar
import Scaffold.Proofs.Settings.Answers
import Scaffold.Proofs.Settings.Lookup
import Scaffold.Proofs.Settings.Unknown
import Scaffold.Proofs.Context.History
import Scaffold.Proofs.Script.Fragments
import Scaffold.Proofs.ComponentName.PascalCase
import Scaffold.Proofs.Settings.Nearest
import Scaffold.Proofs.Command.Nearest
