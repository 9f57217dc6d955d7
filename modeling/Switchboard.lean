import Switchboard.Command.Printer
import Switchboard.Exchange.Run
import Switchboard.Main
import Switchboard.Proofs.Ids.Canonical
import Switchboard.Proofs.Ids.Refinement
import Switchboard.Proofs.Results.Sections
import Switchboard.Proofs.Results.Store
import Switchboard.Proofs.Text.Json
import Switchboard.Proofs.Token
import Switchboard.Proofs.Handler.DistinctWords
import Switchboard.Proofs.Exchange.Steps
import Switchboard.Proofs.Exchange.Correlation
import Switchboard.Proofs.Admin.Framing
import Switchboard.Proofs.Admin.Reassembly
import Switchboard.Proofs.Admin.SessionRun
import Switchboard.Proofs.Admin.Delivery
import Switchboard.Proofs.Admin.LinkSteps
import Switchboard.Proofs.Admin.Standings
import Switchboard.Proofs.Admin.LoginGuard
import Switchboard.Proofs.Admin.CommandOrder
import Switchboard.Proofs.Admin.Listeners
import Switchboard.Proofs.Admin.ShownStates
import Switchboard.Proofs.Admin.OversizeCommands
import Switchboard.Proofs.Exchange.Whereabouts
import Switchboard.Proofs.Exchange.Reservations
import Switchboard.Proofs.Exchange.IssuedIds
import Switchboard.Proofs.Exchange.Shutdown
import Switchboard.Proofs.Exchange.Commands
import Switchboard.Proofs.Exchange.Setup
import Switchboard.Proofs.Exchange.Refusals
import Switchboard.Proofs.Text.Boundaries
import Switchboard.Proofs.Results.Draining
import Switchboard.Proofs.Exchange.BreakingOff
import Switchboard.Proofs.Exchange.ReplySizes
import Switchboard.Proofs.Exchange.AfterShutdown
import Switchboard.Proofs.Exchange.Secrecy
import Switchboard.Proofs.Exchange.Registrations
import Switchboard.Proofs.Admin.Origins
import Switchboard.Proofs.Admin.LatestParts
import Switchboard.Proofs.Crc32
import Switchboard.Proofs.Admin.Corruption
import Switchboard.Proofs.Admin.IdleTimes
import Switchboard.Proofs.Admin.IdleChecks
import Switchboard.Proofs.Text.Fields
import Switchboard.Proofs.Command.Grammar
import Switchboard.Proofs.Workers.Crew
import Switchboard.Proofs.Exchange.SessionNames
import Switchboard.Proofs.Exchange.SingleLines
import Switchboard.Proofs.Terminal.Transcripts
