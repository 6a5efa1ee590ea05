import Wwan.Stream.Sink
import Wwan.Stream.Source
import Wwan.Span
import Wwan.Text.Box
import Wwan.Text.Json
import Wwan.Value.Body
import Wwan.Value.Cursor
import Wwan.Value.Encoder
import Wwan.Message.Inbox
import Wwan.Message.Outbox
import Wwan.Command
import Wwan.Client.Calls
import Wwan.Modem.FccLock
import Wwan.Modem.Network
import Wwan.Modem.Request
import Wwan.Modem.BringUp
import Wwan.Modem.Rehearsal
import Wwan.Mux.Bridge
import Wwan.Cli.Output
import Wwan.Cli.Status
import Wwan.Device.Endpoint
import Wwan.Device.Tree
import Wwan.Device.Tunnel
import Wwan.Cli.Run
import Wwan.Cli.Usage
import Wwan.Cli.Rehearsal
import Wwan.Main
import Wwan.Proofs.Client.Entries
import Wwan.Proofs.Client.Record
import Wwan.Proofs.Client.Ledger
import Wwan.Proofs.Message.Outbox
import Wwan.Proofs.Client.Answers
import Wwan.Proofs.Client.Courses
import Wwan.Proofs.Client.Transactions
import Wwan.Proofs.Client.Delivery
import Wwan.Proofs.Client.Reader
import Wwan.Proofs.Message.Framing
import Wwan.Proofs.Client.Unobserved
import Wwan.Proofs.Client.Turns
import Wwan.Proofs.Client.Noise
import Wwan.Proofs.Client.Observers
import Wwan.Proofs.Client.Renaming
import Wwan.Proofs.Client.Removal
import Wwan.Proofs.Mux.Chain
import Wwan.Proofs.Mux.Draft
import Wwan.Proofs.Mux.Edits
import Wwan.Proofs.Mux.Batch
import Wwan.Proofs.Value.Reading
import Wwan.Proofs.Value.Fields
import Wwan.Proofs.Mux.Downlink
import Wwan.Proofs.Mux.BackToBack
import Wwan.Proofs.Modem.Dialogue
import Wwan.Proofs.Modem.Order
import Wwan.Proofs.Modem.Waiting
import Wwan.Proofs.Modem.Wire
import Wwan.Proofs.Modem.Failure
import Wwan.Proofs.Modem.Station
import Wwan.Proofs.Modem.Vain
import Wwan.Proofs.Modem.Loss
import Wwan.Proofs.Client.Closing
import Wwan.Proofs.Message.Sending
import Wwan.Proofs.Message.Torn
import Wwan.Proofs.Client.Mislaid
import Wwan.Proofs.Mux.Capacity
import Wwan.Proofs.Mux.Estimate
import Wwan.Proofs.Mux.Trailer
import Wwan.Proofs.Mux.Counters
import Wwan.Proofs.Mux.Numbering
import Wwan.Proofs.Message.Bounds
import Wwan.Proofs.Client.Survival
import Wwan.Proofs.Client.Plain
import Wwan.Proofs.Client.Notices
import Wwan.Proofs.Client.Reuse
import Wwan.Proofs.Value.Grammar
import Wwan.Proofs.Value.Locality
import Wwan.Proofs.Mux.Sheet
import Wwan.Proofs.Mux.Pieces
import Wwan.Proofs.Mux.Chores
import Wwan.Proofs.Mux.Interruptions
import Wwan.Proofs.Value.Rebuilding
import Wwan.Proofs.Value.Halting
import Wwan.Proofs.Cli.Decoding
import Wwan.Proofs.Value.Writing
import Wwan.Proofs.Message.Errands
import Wwan.Proofs.Message.Extraction
import Wwan.Proofs.Client.Without
import Wwan.Proofs.Client.Unsent
import Wwan.Proofs.Client.Posted
import Wwan.Proofs.Modem.Thread
import Wwan.Proofs.Modem.Attach
import Wwan.Proofs.Client.Hearing
import Wwan.Proofs.Modem.Staged
import Wwan.Proofs.Value.Parts
import Wwan.Proofs.Modem.AccessPoint
import Wwan.Proofs.Modem.NameServers
import Wwan.Proofs.Modem.Polling
import Wwan.Proofs.Client.Conclusion
import Wwan.Proofs.Modem.Listening
import Wwan.Proofs.Modem.ModeSet
import Wwan.Proofs.Value.Attempts
