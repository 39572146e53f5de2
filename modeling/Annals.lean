import Annals.Rehearsal.Basic
import Annals.Rehearsal.Solo
import Annals.Config
import Annals.LogFilter
import Annals.Proofs.Bank.Concurrency
import Annals.Proofs.Following
import Annals.Proofs.Outbox.Delivery
import Annals.Proofs.Outbox.EarlyClaims
import Annals.Proofs.Outbox.Punctuality
import Annals.Proofs.Broker.Conservation
import Annals.Proofs.Broker.Redelivery
import Annals.Proofs.Store.OneLog
import Annals.Proofs.RoundTrip
import Annals.Proofs.Bank.ReadModel
import Annals.Proofs.Broker.Published
import Annals.Proofs.Pipeline.Flow
import Annals.Proofs.Pipeline.Fidelity
import Annals.Proofs.Aggregate.Calls
import Annals.Proofs.Bank.Commands
import Annals.Proofs.Store.ClaimHistory
import Annals.Proofs.Bank.Conflicts
import Annals.Proofs.Broker.Independence
import Annals.Proofs.Store.Verdicts
import Annals.Proofs.Store.Pages
import Annals.Proofs.Outbox.RelayedTime
import Annals.Proofs.Truncation
import Annals.Proofs.CatchingUp
import Annals.Proofs.Bank.Reordering
import Annals.Proofs.Settings
import Annals.Proofs.ConfigFile
import Annals.Proofs.Worker.Rehearsal
import Annals.Proofs.Broker.OneShot
