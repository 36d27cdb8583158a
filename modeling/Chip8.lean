import Chip8.Calendar
import Chip8.Capacity
import Chip8.Config.Document
import Chip8.Config.Read
import Chip8.Config.Settings
import Chip8.Cycle
import Chip8.Debug.Breakpoint
import Chip8.Debug.Debugger
import Chip8.Decimal.FloatText
import Chip8.Decimal.Reading
import Chip8.Decimal.Shortest
import Chip8.Display
import Chip8.Document
import Chip8.Fault
import Chip8.Fault.Told
import Chip8.Host
import Chip8.Image
import Chip8.Instruction.Arithmetic
import Chip8.Instruction.Execute
import Chip8.Instruction.Form
import Chip8.Instruction.Operation
import Chip8.Keypad
import Chip8.Listing
import Chip8.Machine
import Chip8.Memory.Bus
import Chip8.Memory.Device
import Chip8.Memory.Error
import Chip8.Memory.Map
import Chip8.Place
import Chip8.Proofs.Config.Reading
import Chip8.Proofs.Debug.Breakpoint
import Chip8.Proofs.Debug.Run
import Chip8.Proofs.Debug.Running
import Chip8.Proofs.Host.Calls
import Chip8.Proofs.Host.Events
import Chip8.Proofs.Host.Failure
import Chip8.Proofs.Host.Invariant
import Chip8.Proofs.Instruction.Action
import Chip8.Proofs.Instruction.Cycle
import Chip8.Proofs.Instruction.Effect
import Chip8.Proofs.Instruction.Word
import Chip8.Proofs.Machine.Operations
import Chip8.Proofs.Machine.Representation
import Chip8.Proofs.Memory.Layout
import Chip8.Proofs.Memory.Transfer
import Chip8.Random.Stream
import Chip8.Random.Twister
import Chip8.Registers
import Chip8.Script
import Chip8.Setup
import Chip8.Text.Base64
import Chip8.Text.Basic
import Chip8.Text.Blank
import Chip8.Text.Case
import Chip8.Text.Digit
import Chip8.Text.Hex
import Chip8.Text.Numeral
import Chip8.Text.Printable
import Chip8.Text.Quoted
import Chip8.Tone
import Chip8.Value
import Chip8.Yaml.Cursor
import Chip8.Yaml.Error
import Chip8.Yaml.Graph
import Chip8.Yaml.Graph.Merge
import Chip8.Yaml.Graph.Tokens
import Chip8.Yaml.Layout
import Chip8.Yaml.Property
import Chip8.Yaml.Reading
import Chip8.Yaml.Scalar.Block
import Chip8.Yaml.Scalar.Plain
import Chip8.Yaml.Scalar.Quoted
import Chip8.Yaml.Scalar.Reading
import Chip8.Yaml.Tag
import Chip8.Yaml.Timestamp
import Chip8.Yaml.Token
import Chip8.Yaml.TokenStream
import Chip8.Proofs.Memory.Contents
import Chip8.Proofs.Host.Trace
import Chip8.Proofs.Host.Listing
import Chip8.Proofs.Host.Font
import Chip8.Proofs.Host.Stream
import Chip8.Proofs.Host.Reset
import Chip8.Proofs.Host.Building
import Chip8.Proofs.Host.Program
import Chip8.Proofs.Debug.Registry
import Chip8.Proofs.Debug.History
import Chip8.Proofs.Host.Timers
import Chip8.Proofs.Host.Numbers
import Chip8.Proofs.Processor.Contract
import Chip8.Proofs.Memory.Regions
import Chip8.Proofs.Processor.Standard
import Chip8.Proofs.Display.Drawing
import Chip8.Proofs.Instruction.Frame
import Chip8.Proofs.Host.Footprint
import Chip8.Proofs.Host.Alterations
import Chip8.Proofs.Host.Dialects
import Chip8.Proofs.Host.Replay
import Chip8.Proofs.Host.Arithmetic
import Chip8.Proofs.Host.Flow
import Chip8.Proofs.Host.Transfers
import Chip8.Proofs.Host.Sprites
import Chip8.Proofs.Host.Waiting
import Chip8.Proofs.Host.Loading
import Chip8.Proofs.Listing.Range
import Chip8.Proofs.Listing.Assembly
import Chip8.Proofs.Instruction.Decoding
import Chip8.Proofs.Machine.Listeners
import Chip8.Proofs.Memory.Log
import Chip8.Proofs.Config.Spelling
import Chip8.Proofs.Config.Relevance
import Chip8.Proofs.Host.Access
