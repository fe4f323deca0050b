import Embive.InstructionLimit
import Embive.RegisterZero
import Embive.Alignment
import Embive.Reservation
import Embive.Transpiler.RoundTrip
import Embive.Transpiler.Acceptance
import Embive.RiscvLayout
import Embive.Transpiler.Collisions
import Embive.Rv32.Assembly
import Embive.Rv32.Expansion
import Embive.Transpiler.Compressed
import Embive.Transpiler.Raw
import Embive.LittleEndian
import Embive.Transpiler.InPlace
import Embive.Transpiler.Elf
import Embive.Transpiler.Placement
import Embive.Transpiler.RawSafety
import Embive.Transpiler.Image
import Embive.Transpiler.Sections
import Embive.Transpiler.Padding
import Embive.Transpiler.Vector
import Embive.Handler
import Embive.SliceAccess
import Embive.ByteMemory
import Embive.Rv32.Semantics
import Embive.Transpiler.Conformance
import Embive.Transpiler.Accesses
import Embive.Footprint
import Embive.Rv32.Layouts
import Embive.Errors
import Embive.Rv32.Multiply
import Embive.Transpiler.Multiply
import Embive.ControlStatus
import Embive.Transpiler.Csr
import Embive.EnableStack
import Embive.Lib.TwoRuns
import Embive.Debugger
import Embive.Transpiler.Determinism
import Embive.Breakpoints
import Embive.Host
import Embive.Transpiler.Hart
import Embive.Transpiler.Machine
import Embive.Transpiler.Program
import Embive.Transpiler.Text
import Embive.Gdb
import Embive.Observation
import Embive.Rv32.Stub
import Embive.Transpiler.Stub
import Embive.FlatMemory
import Embive.Lib.Plan
import Embive.Transpiler.Buffers
import Embive.Transpiler.Lines
