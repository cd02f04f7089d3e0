import GameBoy.Word
import GameBoy.Text.Hex
import GameBoy.Text.Utf8
import GameBoy.Memory
import GameBoy.Cartridge
import GameBoy.Cartridge.Header
import GameBoy.Cartridge.Banks
import GameBoy.Cartridge.Clock
import GameBoy.Registers
import GameBoy.Fault
import GameBoy.Timer
import GameBoy.Transfer
import GameBoy.Hardware
import GameBoy.Interrupt
import GameBoy.Console
import GameBoy.MemoryMap
import GameBoy.Transfer.Engine
import GameBoy.Bus
import GameBoy.Instruction
import GameBoy.Instruction.Decode
import GameBoy.Instruction.Text
import GameBoy.Alu
import GameBoy.Processor
import GameBoy.Schedule
import GameBoy.Layout
import GameBoy.Snapshot
import GameBoy.CommandLine.Duration
import GameBoy.CommandLine.Options
import GameBoy.CommandLine.Files
import GameBoy.CommandLine.Store
import GameBoy.CommandLine
import GameBoy.Main
import GameBoy.Proofs.Processor
import GameBoy.Proofs.Checked
import GameBoy.Proofs.Evolution
import GameBoy.Proofs.Invariant
import GameBoy.Proofs.Safety
import GameBoy.Proofs.SafeRun
import GameBoy.Proofs.Codec
import GameBoy.Proofs.Session
import GameBoy.Proofs.Simulation
import GameBoy.Proofs.Reach
import GameBoy.Proofs.Replay
import GameBoy.Proofs.Canonical
import GameBoy.Proofs.BankHistory
import GameBoy.Proofs.Activity
import GameBoy.Proofs.Interrupts
import GameBoy.Proofs.Programs
import GameBoy.Proofs.Pace
import GameBoy.Proofs.Frame
import GameBoy.Proofs.Battery
import GameBoy.Proofs.Routing
import GameBoy.Proofs.SpriteTransfer
import GameBoy.Proofs.TimerPeriod
import GameBoy.Proofs.Calendar
import GameBoy.Proofs.BusLog
import GameBoy.Proofs.Requests
import GameBoy.Proofs.Ledger
import GameBoy.Proofs.RamWrites
import GameBoy.Proofs.FileLaws
import GameBoy.Proofs.SaveFile
import GameBoy.Proofs.Footprint
import GameBoy.Proofs.UnitOfWork
import GameBoy.Proofs.DelayedEnable
import GameBoy.Proofs.VramTransfer
import GameBoy.Proofs.SessionLog
import GameBoy.Proofs.HblankTransfer
import GameBoy.Proofs.Monochrome
import GameBoy.Proofs.BankedMemory
import GameBoy.Proofs.TimerEvents
import GameBoy.Proofs.RamHistory
import GameBoy.Proofs.ClockLatch
import GameBoy.Proofs.BusTrace
import GameBoy.Proofs.Decoding
import GameBoy.Proofs.Effects
import GameBoy.Proofs.Execution
import GameBoy.Proofs.Boundaries
import GameBoy.Proofs.InstructionFrame
import GameBoy.Proofs.InstructionCost
import GameBoy.Proofs.Subroutines
import GameBoy.Proofs.Numbers
import GameBoy.Proofs.Operands
import GameBoy.Proofs.StraightLine
import GameBoy.Proofs.CarryChains
import GameBoy.Proofs.Decimal
import GameBoy.Proofs.WideArithmetic
import GameBoy.Proofs.Assembler
import GameBoy.Proofs.Listing
import GameBoy.Proofs.StackOrder
import GameBoy.Proofs.Refusal
import GameBoy.Proofs.Halt
