import ShortMessage.Simulation.Stack
import ShortMessage.Wire.Reading
import ShortMessage.Proofs.Transaction.Slots
import ShortMessage.Proofs.Transaction.Mailboxes
import ShortMessage.Proofs.Transaction.Release
import ShortMessage.Proofs.Transaction.Tasks
import ShortMessage.Proofs.Relay.Steps
import ShortMessage.Proofs.Transaction.Run
import ShortMessage.Proofs.Relay.History
import ShortMessage.Proofs.Relay.Outcome
import ShortMessage.Proofs.Relay.Tracking
import ShortMessage.Proofs.Relay.Correlation
import ShortMessage.Proofs.Control.Rules
import ShortMessage.Proofs.Control.Steps
import ShortMessage.Proofs.Control.Orderly
import ShortMessage.Proofs.Control.History
import ShortMessage.Proofs.Control.Tasks
import ShortMessage.Proofs.Control.Trace
import ShortMessage.Proofs.Control.Sending
import ShortMessage.Proofs.Control.Deadline
import ShortMessage.Proofs.Codec.Reads
import ShortMessage.Proofs.Codec.Fields
import ShortMessage.Proofs.Calendar.Civil
import ShortMessage.Proofs.Calendar.Timestamp
import ShortMessage.Proofs.Calendar.Validity
import ShortMessage.Proofs.Alphabet.Text
import ShortMessage.Proofs.Alphabet.Spelling
import ShortMessage.Proofs.Alphabet.Packing
import ShortMessage.Proofs.Codec.Address
import ShortMessage.Proofs.Codec.Digits
import ShortMessage.Proofs.Codec.CodeUnits
import ShortMessage.Proofs.Codec.Text
import ShortMessage.Proofs.Codec.UserData
import ShortMessage.Proofs.Codec.Continuation
import ShortMessage.Proofs.Codec.Parameters
import ShortMessage.Proofs.Codec.Transfer
import ShortMessage.Proofs.Codec.Relay
import ShortMessage.Proofs.Codec.Control
import ShortMessage.Proofs.Codec.ControlFormat
import ShortMessage.Proofs.Codec.Rewriting
import ShortMessage.Proofs.Codec.MessageRewriting
import ShortMessage.Proofs.Codec.HeaderFormat
import ShortMessage.Proofs.Codec.Faults
import ShortMessage.Proofs.Codec.UnknownTypes
import ShortMessage.Proofs.Codec.Streaming
import ShortMessage.Proofs.Codec.AddressRules
import ShortMessage.Proofs.Machine.Steps
import ShortMessage.Proofs.Machine.Alphabet
import ShortMessage.Proofs.Machine.BitStream
import ShortMessage.Proofs.Machine.Address
import ShortMessage.Proofs.Machine.Fields
import ShortMessage.Proofs.Machine.UserData
import ShortMessage.Proofs.Codec.Lengths
import ShortMessage.Proofs.Machine.Transfer
import ShortMessage.Proofs.Machine.Messages
import ShortMessage.Proofs.Machine.Truncation
import ShortMessage.Proofs.Transaction.Tenants
import ShortMessage.Proofs.Link.Line
import ShortMessage.Proofs.Link.Sides
import ShortMessage.Proofs.Link.Queues
import ShortMessage.Proofs.Link.Stages
import ShortMessage.Proofs.Link.Turns
import ShortMessage.Proofs.Link.Clients
import ShortMessage.Proofs.Link.Servers
import ShortMessage.Proofs.Link.Moves
import ShortMessage.Proofs.Link.Answers
import ShortMessage.Proofs.Link.Lasting
import ShortMessage.Proofs.Link.Agreement
import ShortMessage.Proofs.Link.Quiet
import ShortMessage.Proofs.Control.Serving
import ShortMessage.Proofs.Relay.Emissions
import ShortMessage.Proofs.Transaction.Occupancy
import ShortMessage.Proofs.Relay.Occupancy
import ShortMessage.Proofs.Control.Occupancy
import ShortMessage.Proofs.Answering.Service
import ShortMessage.Proofs.Answering.Relay
import ShortMessage.Proofs.Answering.Control
import ShortMessage.Proofs.Control.Consumption
import ShortMessage.Proofs.Control.Exclusion
import ShortMessage.Proofs.Link.Traffic
import ShortMessage.Proofs.Transaction.Renumbering
import ShortMessage.Proofs.Control.Renumbering
import ShortMessage.Proofs.Control.Calls
import ShortMessage.Proofs.Control.Repetition
import ShortMessage.Proofs.Transaction.Insertion
import ShortMessage.Proofs.Relay.Refusal
import ShortMessage.Proofs.Control.Reception
import ShortMessage.Proofs.Control.Refusal
import ShortMessage.Proofs.Control.Judging
import ShortMessage.Proofs.Calendar.Writing
import ShortMessage.Proofs.Transaction.Operations
import ShortMessage.Proofs.Transaction.Rotation
import ShortMessage.Proofs.Transaction.Ownership
