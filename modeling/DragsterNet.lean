import DragsterNet.Lib.Steps
import DragsterNet.Lib.Serial
import DragsterNet.Lib.WindowRing
import DragsterNet.Lib.Frames
import DragsterNet.Console.Cells
import DragsterNet.Console.Checksum
import DragsterNet.Console.Shim
import DragsterNet.Console.Transport
import DragsterNet.Console.Desk
import DragsterNet.Console.Facts
import DragsterNet.Console.Ticks
import DragsterNet.Console.Record
import DragsterNet.Match.Seat
import DragsterNet.Match.Errand
import DragsterNet.Match.Receive
import DragsterNet.Match.Watermark
import DragsterNet.Match.Pace
import DragsterNet.Match.Lockstep
import DragsterNet.Match.Agreement
import DragsterNet.Lib.Dict
import DragsterNet.Lib.Matching
import DragsterNet.Relay.Server
import DragsterNet.Lib.Agenda
import DragsterNet.Relay.Loop
import DragsterNet.Relay.Pairing
import DragsterNet.Relay.Service
import DragsterNet.Relay.Play
import DragsterNet.Relay.Segments
import DragsterNet.CRelay.Program
import DragsterNet.CRelay.Main
import DragsterNet.CRelay.Partner
import DragsterNet.Refine.Seating
import DragsterNet.Refine.Mirror
import DragsterNet.Refine.Dispatch
import DragsterNet.Lib.Framing
import DragsterNet.Lib.Ledger
import DragsterNet.Relay.Books
import DragsterNet.Refine.Verdict
import DragsterNet.Refine.Bound
import DragsterNet.Lib.Roll
import DragsterNet.Relay.Registry
import DragsterNet.CRelay.Registry
import DragsterNet.Refine.Registry
import DragsterNet.Console.Session
import DragsterNet.Refine.Greeting
import DragsterNet.Match.Detect
import DragsterNet.Match.Repair
import DragsterNet.Console.Clock
import DragsterNet.Match.Intake
import DragsterNet.Console.Mailbox
import DragsterNet.Console.Watchdog
import DragsterNet.Relay.Reassembly
import DragsterNet.CRelay.Each
import DragsterNet.CRelay.Posts
import DragsterNet.CRelay.Reassembly
import DragsterNet.CRelay.Backlog
import DragsterNet.CRelay.Headroom
import DragsterNet.CRelay.Delivery
import DragsterNet.CRelay.Saturation
import DragsterNet.Refine.Naming
import DragsterNet.Refine.Repr
import DragsterNet.Refine.Laps
import DragsterNet.Lib.Outbox
import DragsterNet.Lib.Rounds
import DragsterNet.Lib.Pacing
import DragsterNet.Relay.Publisher
import DragsterNet.CRelay.Publisher
import DragsterNet.Refine.Publishing
import DragsterNet.Refine.Json
import DragsterNet.Refine.Pacing
import DragsterNet.Refine.Admission
import DragsterNet.Refine.Encoding
import DragsterNet.Console.Parting
import DragsterNet.Refine.Waiting
import DragsterNet.Refine.Repr
import DragsterNet.Lib.Layout
import DragsterNet.Lib.Descent
import DragsterNet.Disasm.Map
import DragsterNet.Disasm.Opcodes
import DragsterNet.Disasm.Program
import DragsterNet.Disasm.Assembler
import DragsterNet.Disasm.Walk
import DragsterNet.Disasm.Labels
import DragsterNet.Disasm.Sound
import DragsterNet.Disasm.Operands
import DragsterNet.Disasm.Bytes
import DragsterNet.Disasm.Emission
import DragsterNet.Disasm.Roundtrip
