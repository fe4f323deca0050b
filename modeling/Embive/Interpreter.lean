import Embive.Memory
import Embive.Registers

/-! # The interpreter state and the accesses instructions make to it -/

namespace Embive

/-- Embive Interpreter Struct. -/
structure Interpreter (M : Type) where
  programCounter : U32
  registers : Registers
  memory : M
  instructionLimit : U32
  memoryReservation : Option (U32 × I32)
  deriving DecidableEq

/-- A function that takes `&mut Interpreter` and returns a `Result`. -/
abbrev Exec (M : Type) := EStateM Error (Interpreter M)

namespace Interpreter

variable {M : Type}

/-- Create a new interpreter. -/
def new (memory : M) (instructionLimit : U32) : Interpreter M where
  programCounter := 0
  registers := .default
  memory
  instructionLimit
  memoryReservation := none

/-- Reset the interpreter. -/
def reset (self : Interpreter M) : Interpreter M :=
  { self with programCounter := 0, registers := .default, memoryReservation := none }

/-- Get a CPU register. -/
def getReg (index : U8) : Exec M I32 := EStateM.reads (fun s => s.registers.cpu.get index)

/-- Get a mutable reference to a CPU register. -/
def getMutReg (index : U8) : Exec M (Fin 32) :=
  EStateM.reads (fun s => s.registers.cpu.getMut index)

/-- Read through a mutable reference. -/
def readCell (cell : Fin 32) : Exec M I32 := do
  return (← get).registers.cpu.read cell

/-- Assign through a mutable reference. -/
def writeCell (cell : Fin 32) (value : I32) : Exec M PUnit :=
  modify (fun s => { s with registers.cpu := s.registers.cpu.write cell value })

def getPc : Exec M U32 := do
  return (← get).programCounter

def setPc (pc : U32) : Exec M PUnit := modify (fun s => { s with programCounter := pc })

/-- Go to the next instruction. -/
def nextInstruction (size : U32) : Exec M PUnit :=
  modify (fun s => { s with programCounter := s.programCounter + size })

def setReservation (reservation : Option (U32 × I32)) : Exec M PUnit :=
  modify (fun s => { s with memoryReservation := reservation })

/-- `Option::take` on the memory reservation. -/
def takeReservation : Exec M (Option (U32 × I32)) := do
  let s ← get
  set { s with memoryReservation := none }
  return s.memoryReservation

/-- A method of the control and status registers. -/
def onControlStatus {α : Type} (f : CSRegisters → Except Error (α × CSRegisters)) : Exec M α :=
  fun s => match f s.registers.controlStatus with
    | .ok (a, cs) => .ok a { s with registers.controlStatus := cs }
    | .error e => .error e s

variable [Memory M]

/-- Load an integer of `w` bits from the interpreter's memory. -/
def load (w : ℕ) (address : U32) : Exec M (BitVec w) :=
  EStateM.onPart Interpreter.memory (fun memory s => { s with memory }) (MemoryType.load w address)

/-- Store an integer of `w` bits to the interpreter's memory. -/
def store {w : ℕ} (value : BitVec w) (address : U32) : Exec M PUnit :=
  EStateM.onPart Interpreter.memory (fun memory s => { s with memory })
    (MemoryType.store value address)

end Interpreter

end Embive
