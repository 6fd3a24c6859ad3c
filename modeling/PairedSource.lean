import PairedSource.Main
import PairedSource.Proofs.Concurrent.Agreement
import PairedSource.Proofs.Include.Exact
import PairedSource.Proofs.Naming.Members
import PairedSource.Proofs.Population.Contexts
import PairedSource.Proofs.Text.Lines
import PairedSource.Proofs.ObjectiveC.Interface
import PairedSource.Proofs.ObjectiveC.Matching
import PairedSource.Proofs.ObjectiveC.Distinct
import PairedSource.Proofs.ObjectiveC.Reserved
import PairedSource.Proofs.Concurrent.Writes
import PairedSource.Proofs.Toml.Leading
import PairedSource.Proofs.Assembly.Contents
import PairedSource.Proofs.Concurrent.Misled
import PairedSource.Proofs.Concurrent.Confined
import PairedSource.Proofs.Assembly.Collisions
import PairedSource.Proofs.Assembly.Locality
import PairedSource.Proofs.ObjectiveC.Targets
import PairedSource.Proofs.ObjectiveC.Markers
import PairedSource.Proofs.Output.Framed
import PairedSource.Proofs.Concurrent.Accounted
import PairedSource.Proofs.ObjectiveC.Filled
import PairedSource.Proofs.ObjectiveC.LiteralReader
import PairedSource.Proofs.Output.Rerun
import PairedSource.Proofs.ObjectiveC.Naming
import PairedSource.Proofs.ObjectiveC.Imports
import PairedSource.Proofs.Population.UnitByUnit
import PairedSource.Proofs.FileTree.WriteModes
import PairedSource.Proofs.Inputs.Spellings
import PairedSource.Proofs.CommandLine.Configs
import PairedSource.Proofs.Manifest.Pointing
import PairedSource.Proofs.RuleTable.Registrations
import PairedSource.Proofs.Color.Reading
import PairedSource.Proofs.Manifest.Models
import PairedSource.Proofs.Assembly.Fragments
import PairedSource.Proofs.Text.Selection
import PairedSource.Proofs.CodeBuilder.Shifted
import PairedSource.Proofs.Assembly.Reordered
import PairedSource.Proofs.ObjectiveC.Heads
