import Chip8.Isa.Code
import Chip8.Main
import Chip8.Proofs.Bare.Faults
import Chip8.Proofs.Command.Fault
import Chip8.Proofs.Command.Session
import Chip8.Proofs.Config.Document
import Chip8.Proofs.Config.Errors
import Chip8.Proofs.Isa.Mnemonic
import Chip8.Proofs.Isa.Order
import Chip8.Proofs.Machine.Picture
import Chip8.Proofs.Run.Arithmetic
import Chip8.Proofs.Run.Beeps
import Chip8.Proofs.Run.Block
import Chip8.Proofs.Run.Calls
import Chip8.Proofs.Run.Collision
import Chip8.Proofs.Run.Digits
import Chip8.Proofs.Run.Drawing
import Chip8.Proofs.Run.Font
import Chip8.Proofs.Run.Frame
import Chip8.Proofs.Run.Image
import Chip8.Proofs.Run.Keys
import Chip8.Proofs.Run.Outcome
import Chip8.Proofs.Run.Place
import Chip8.Proofs.Run.SpriteRead
import Chip8.Proofs.Run.Successor
import Chip8.Proofs.Run.Trace
import Chip8.Proofs.Run.Waiting
import Chip8.Proofs.Schedule.Key
import Chip8.Proofs.Schedule.Writing
import Chip8.Proofs.Text.Numeral
import Chip8.Random.Seed
import Chip8.Run.Limits
