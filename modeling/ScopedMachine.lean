import ScopedMachine.Scenario.Run
import ScopedMachine.Proofs.Records
import ScopedMachine.Proofs.Hearing
import ScopedMachine.Proofs.Holding
import ScopedMachine.Proofs.Inbox
import ScopedMachine.Proofs.Rest
import ScopedMachine.Proofs.Settled
import ScopedMachine.Proofs.Custody
import ScopedMachine.Proofs.Stopped
import ScopedMachine.Proofs.Closing
import ScopedMachine.Proofs.Phases
import ScopedMachine.Proofs.Ideal
import ScopedMachine.Proofs.Above
import ScopedMachine.Proofs.Rollback
import ScopedMachine.Proofs.Delegation
import ScopedMachine.Proofs.Agreement
import ScopedMachine.Proofs.Order
import ScopedMachine.Proofs.Transparency
import ScopedMachine.Proofs.Portrait
import ScopedMachine.Proofs.Forecast
import ScopedMachine.Proofs.Beginning
import ScopedMachine.Proofs.AllOrNothing
import ScopedMachine.Proofs.Signals
import ScopedMachine.Proofs.Noninterference
import ScopedMachine.Proofs.Clocks
import ScopedMachine.Proofs.Beats
import ScopedMachine.Proofs.Ticks
import ScopedMachine.Proofs.Advances
import ScopedMachine.Proofs.Forward
import ScopedMachine.Proofs.Timers
import ScopedMachine.Proofs.Punctual
import ScopedMachine.Proofs.Piecewise
import ScopedMachine.Proofs.Collecting
import ScopedMachine.Proofs.Cycles
import ScopedMachine.Proofs.Renaming
import ScopedMachine.Proofs.Rearming
import ScopedMachine.Proofs.Allowance
import ScopedMachine.Proofs.Culprits
import ScopedMachine.Proofs.Failures
import ScopedMachine.Proofs.Routing
import ScopedMachine.Proofs.Dispatching
import ScopedMachine.Proofs.Timestamps
import ScopedMachine.Proofs.Codecs
import ScopedMachine.Proofs.Disposal
import ScopedMachine.Proofs.Answers
