import Teletype.Main
import Teletype.Proofs.Command.ExitCode
import Teletype.Proofs.Command.Verbosity
import Teletype.Proofs.Law
import Teletype.Proofs.Settings.History
import Teletype.Proofs.Settings.Layering
import Teletype.Proofs.Settings.Merging
import Teletype.Proofs.Terminal.Agreement
import Teletype.Proofs.Terminal.Collection
import Teletype.Proofs.Terminal.Consumption
import Teletype.Proofs.Terminal.Faults
import Teletype.Proofs.Terminal.Hoisting
import Teletype.Proofs.Terminal.Interruption
import Teletype.Proofs.Terminal.Layers
import Teletype.Proofs.Terminal.Raising
import Teletype.Proofs.Terminal.Reading
import Teletype.Proofs.Terminal.RoundTrip
import Teletype.Proofs.Terminal.Schedule
import Teletype.Recipe.Session
import Teletype.Terminal.Steps
import Teletype.Proofs.Text.Newlines
import Teletype.Proofs.Terminal.Demand
import Teletype.Proofs.Settings.Placing
import Teletype.Proofs.Settings.Variables
import Teletype.Proofs.Number.Exact
import Teletype.Proofs.Settings.Naming
import Teletype.Proofs.Settings.Walking
import Teletype.Proofs.Console.Deriving
import Teletype.Proofs.Command.Grammar
import Teletype.Proofs.Text.Quotation
import Teletype.Proofs.Command.Trace
import Teletype.Proofs.Terminal.Forcing
