import LedSequencer.Bench.Lines
import LedSequencer.Bench.Pads
import LedSequencer.Bench.Registers
import LedSequencer.Chip.Memory
import LedSequencer.Command.Play
import LedSequencer.Line.Receiver
import LedSequencer.Line.Usage
import LedSequencer.Proofs.Bus.Delivery
import LedSequencer.Proofs.Bus.Discipline
import LedSequencer.Proofs.Bus.Steady
import LedSequencer.Proofs.Command.Play
import LedSequencer.Proofs.Chip.Moves
import LedSequencer.Proofs.Chip.Session
import LedSequencer.Proofs.Chip.Cut
import LedSequencer.Proofs.Chip.Loading
import LedSequencer.Proofs.Chip.Tracking
import LedSequencer.Proofs.Bus.Transfers
import LedSequencer.Proofs.Command.Holding
import LedSequencer.Proofs.Routine.Returns
import LedSequencer.Proofs.Bus.Confined
import LedSequencer.Proofs.Command.Attempts
import LedSequencer.Proofs.Command.Retries
import LedSequencer.Proofs.Command.Conclusion
import LedSequencer.Proofs.Command.Leaks
import LedSequencer.Proofs.Bus.Verdict
import LedSequencer.Proofs.Chip.Refinement
import LedSequencer.Proofs.Command.Recovery
import LedSequencer.Proofs.Bus.Timing
import LedSequencer.Proofs.Bus.Sampling
import LedSequencer.Proofs.Engine.Decoding
import LedSequencer.Proofs.Pad.Session
import LedSequencer.Proofs.Command.Parking
import LedSequencer.Proofs.Command.Silence
import LedSequencer.Proofs.Bus.Block
import LedSequencer.Proofs.Bus.Ownership
import LedSequencer.Proofs.Chip.Configuration
import LedSequencer.Proofs.Chip.Image
import LedSequencer.Proofs.Chip.Refusals
import LedSequencer.Proofs.Bus.Effort
import LedSequencer.Proofs.Chip.Reports
