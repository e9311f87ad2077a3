import Switchboard.Main
import Switchboard.Metrics.Exposition
import Switchboard.Rehearsal
import Switchboard.Proofs.Maps
import Switchboard.Proofs.Registry.Holdings
import Switchboard.Proofs.Registry.Step
import Switchboard.Proofs.Registry.Sound
import Switchboard.Proofs.Registry.Chronicle
import Switchboard.Proofs.Registry.Counts
import Switchboard.Proofs.Pipeline.Connect
import Switchboard.Proofs.Registry.Reachable
import Switchboard.Proofs.Registry.Fate
import Switchboard.Proofs.Config.Catalogue
import Switchboard.Proofs.Preset
import Switchboard.Proofs.Host.Roster
import Switchboard.Proofs.Host.Simulation
import Switchboard.Proofs.Registry.Reentry
import Switchboard.Proofs.Registry.Tenure
import Switchboard.Proofs.Registry.Live
import Switchboard.Proofs.Pipeline.Rollback
import Switchboard.Proofs.Host.Correlation
import Switchboard.Proofs.Host.Start
import Switchboard.Proofs.Host.Lines
import Switchboard.Proofs.Rehearsal
import Switchboard.Proofs.Registry.Balance
import Switchboard.Proofs.Registry.Routing
import Switchboard.Proofs.Registry.Commute
import Switchboard.Proofs.Rpc.Inbound
import Switchboard.Proofs.Host.Untroubled
import Switchboard.Proofs.Rpc.Language
import Switchboard.Proofs.Rpc.RoundTrip
import Switchboard.Proofs.Metrics.Exposition
import Switchboard.Proofs.Metrics.Histogram
import Switchboard.Proofs.Pipeline.Refusal
import Switchboard.Proofs.Registry.Bulk
import Switchboard.Proofs.Registry.Teardown
import Switchboard.Proofs.Pipeline.Accounting
import Switchboard.Proofs.Config.Breach
import Switchboard.Proofs.Scope
import Switchboard.Proofs.Config.Lookup
import Switchboard.Proofs.Json.Members
import Switchboard.Proofs.Rpc.Members
