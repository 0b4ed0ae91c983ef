import Flotilla.Bus.Exchange
import Flotilla.Closure
import Flotilla.Event.Line
import Flotilla.Fleet.Session
import Flotilla.Notice
import Flotilla.Subscriber.Session
import Flotilla.Proofs.Moves
import Flotilla.Proofs.View
import Flotilla.Proofs.Step
import Flotilla.Proofs.ViewFields
import Flotilla.Proofs.Change
import Flotilla.Proofs.Leads
import Flotilla.Proofs.Simulation.Calls
import Flotilla.Proofs.Simulation.Stop
import Flotilla.Proofs.Simulation.Bots
import Flotilla.Proofs.Simulation.Waiters
import Flotilla.Proofs.Simulation
import Flotilla.Proofs.Reach
import Flotilla.Proofs.Course
import Flotilla.Proofs.Line
import Flotilla.Proofs.Registry
import Flotilla.Proofs.Slots
import Flotilla.Proofs.Waits
import Flotilla.Proofs.History
import Flotilla.Proofs.Invariants
import Flotilla.Proofs.Occurrence
import Flotilla.Proofs.WorkConserving
import Flotilla.Proofs.Termination
import Flotilla.Proofs.Awaiting
import Flotilla.Proofs.PassedOver
import Flotilla.Proofs.Standing
import Flotilla.Proofs.Telling
import Flotilla.Proofs.Replay
import Flotilla.Proofs.RunOrder
import Flotilla.Proofs.Enrolment
import Flotilla.Proofs.Registrations
import Flotilla.Proofs.Protocol
import Flotilla.Proofs.Completion
import Flotilla.Proofs.Effort
import Flotilla.Proofs.ComingToRest
import Flotilla.Proofs.Feedback
import Flotilla.Proofs.Lockstep
import Flotilla.Proofs.Lockstep.Calls
import Flotilla.Proofs.Lockstep.Runs
import Flotilla.Proofs.Lockstep.Moves
import Flotilla.Proofs.Lockstep.Kept
import Flotilla.Proofs.Sessions
import Flotilla.Proofs.Lockstep.Commands
import Flotilla.Proofs.Feeds
import Flotilla.Proofs.Stations
import Flotilla.Proofs.Accounts
import Flotilla.Proofs.Crowding
import Flotilla.Proofs.Sets
import Flotilla.Proofs.Closing
import Flotilla.Proofs.Panics
import Flotilla.Proofs.Independence
import Flotilla.Proofs.Losses
import Flotilla.Proofs.Alike
import Flotilla.Proofs.Endings
import Flotilla.Proofs.Privacy
import Flotilla.Proofs.Books
import Flotilla.Proofs.Readers
import Flotilla.Proofs.Caps
import Flotilla.Proofs.UnreachedCap
import Flotilla.Proofs.Aside
import Flotilla.Proofs.Aside.Turns
import Flotilla.Proofs.Unheard
import Flotilla.Proofs.Timers
import Flotilla.Proofs.Aside.Waiter
import Flotilla.Proofs.Aside.Clock
import Flotilla.Proofs.Aside.Commands
import Flotilla.Proofs.Interrupted
import Flotilla.Proofs.Refusals
import Flotilla.Proofs.Strays
import Flotilla.Proofs.Unfailing
import Flotilla.Proofs.Quoting
import Flotilla.Proofs.EventLines
import Flotilla.Proofs.Hostmasks
import Flotilla.Proofs.Overlaps
