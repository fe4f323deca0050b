import Embive.Basic

/-! # CPU registers and control and status registers -/

namespace Embive

/-- Number of registers available. -/
abbrev cpuRegisterCount : ℕ := 32

/-- A register number can be written as a numeral. -/
instance neZero_cpuRegisterCount : NeZero cpuRegisterCount := ⟨by decide⟩

namespace CPURegister
def ra : U8 := 1
def sp : U8 := 2
def a0 : Fin 32 := 10
def a1 : Fin 32 := 11
def a7 : Fin 32 := 17
end CPURegister

/-- CPU Registers. -/
structure CPURegisters where
  inner : Vector I32 cpuRegisterCount
  deriving DecidableEq

namespace CPURegisters

def default : CPURegisters := ⟨Vector.replicate cpuRegisterCount 0⟩

/-- Get a CPU register. -/
def get (self : CPURegisters) (index : U8) : Except Error I32 :=
  if h : index.toNat < cpuRegisterCount then .ok self.inner[index.toNat]
  else .error (.invalidCPURegister index)

/-- The register cell a mutable reference points to. Register zero is handed out
like any other. -/
def getMut (_self : CPURegisters) (index : U8) : Except Error (Fin 32) :=
  if h : index.toNat < cpuRegisterCount then .ok ⟨index.toNat, h⟩
  else .error (.invalidCPURegister index)

/-- Read through a mutable reference. -/
def read (self : CPURegisters) (cell : Fin 32) : I32 := self.inner[cell]

/-- Assign through a mutable reference. -/
def write (self : CPURegisters) (cell : Fin 32) (value : I32) : CPURegisters :=
  ⟨self.inner.set cell value⟩

end CPURegisters

/-- Embive Custom Interrupt Code. -/
def embiveInterruptCode : ℕ := 16

def mstatusAddr : U16 := 0x300
def misaAddr : U16 := 0x301
def mieAddr : U16 := 0x304
def mtvecAddr : U16 := 0x305
def mstatushAddr : U16 := 0x310
def mcountinhibitAddr : U16 := 0x320
def mscratchAddr : U16 := 0x340
def mepcAddr : U16 := 0x341
def mcauseAddr : U16 := 0x342
def mtvalAddr : U16 := 0x343
def mipAddr : U16 := 0x344
def mhpmevent31hAddr : U16 := 0x33F
def mcycleAddr : U16 := 0xB00
def mhpmcounter31hAddr : U16 := 0xB9F
def mvendoridAddr : U16 := 0xF11
def mconfigptrAddr : U16 := 0xF15

def mxlen : ℕ := 32
def mxl32 : U32 := 0b01
def misaA : U32 := 1 <<< 0
def misaI : U32 := 1 <<< 8
def misaM : U32 := 1 <<< 12

def mtvecMode : U32 := 0b11
def mepcBit0 : U32 := 0b1

def mstatusMie : U8 := 0b1 <<< 3
def mstatusMpie : U8 := 0b1 <<< 7
def mstatusMask : U8 := mstatusMie ||| mstatusMpie

def mcauseMeiCode : U32 := BitVec.ofNat 32 embiveInterruptCode
def mcauseInterrupt : U32 := 0b1 <<< 31
def miEPMask : U32 := 0b1 <<< embiveInterruptCode

/-- Control and Status Operation. -/
inductive CSOperation where
  | write (value : U32)
  | set (value : U32)
  | clear (value : U32)
  deriving DecidableEq

def getMisa : U32 := (mxl32 <<< (mxlen - 2)) ||| misaI ||| misaM ||| misaA

def executeOperation (op : Option CSOperation) (value : U32) : U32 :=
  match op with
  | some (.write val) => val
  | some (.set val) => value ||| val
  | some (.clear val) => value &&& ~~~val
  | none => value

/-- Control and Status Registers. -/
structure CSRegisters where
  mtvec : U32
  mscratch : U32
  mepc : U32
  mcause : U32
  mtval : I32
  mieEmbive : Bool
  mipEmbive : Bool
  mstatus : U8
  deriving DecidableEq

namespace CSRegisters

def default : CSRegisters := ⟨0, 0, 0, 0, 0, false, false, 0⟩

/-- A flag as the interrupt bit of a register. -/
def flagBit (flag : Bool) : U32 := (BitVec.ofBool flag).setWidth 32 <<< embiveInterruptCode

/-- Execute a control and status register operation, giving the register value
prior to the operation and the registers after it. -/
def operation (self : CSRegisters) (op : Option CSOperation) (addr : U16) :
    Except Error (U32 × CSRegisters) :=
  if addr = mstatusAddr then
    let ret := self.mstatus.setWidth 32
    .ok (ret, { self with mstatus := (executeOperation op ret).setWidth 8 &&& mstatusMask })
  else if addr = misaAddr then .ok (getMisa, self)
  else if addr = mieAddr then
    let ret := flagBit self.mieEmbive
    .ok (ret, { self with mieEmbive := (executeOperation op ret &&& miEPMask) != 0 })
  else if addr = mtvecAddr then
    let ret := self.mtvec
    .ok (ret, { self with mtvec := executeOperation op ret &&& ~~~mtvecMode })
  else if addr = mstatushAddr then .ok (0, self)
  else if mcountinhibitAddr ≤ addr ∧ addr ≤ mhpmevent31hAddr then .ok (0, self)
  else if addr = mscratchAddr then
    let ret := self.mscratch
    .ok (ret, { self with mscratch := executeOperation op ret })
  else if addr = mepcAddr then
    let ret := self.mepc
    .ok (ret, { self with mepc := executeOperation op ret &&& ~~~mepcBit0 })
  else if addr = mcauseAddr then
    let ret := self.mcause
    .ok (ret, { self with mcause := executeOperation op ret })
  else if addr = mtvalAddr then
    let ret := self.mtval
    .ok (ret, { self with mtval := executeOperation op ret })
  else if addr = mipAddr then
    let ret := flagBit self.mipEmbive
    .ok (ret, { self with mipEmbive := (executeOperation op ret &&& miEPMask) != 0 })
  else if mcycleAddr ≤ addr ∧ addr ≤ mhpmcounter31hAddr then .ok (0, self)
  else if mvendoridAddr ≤ addr ∧ addr ≤ mconfigptrAddr then .ok (0, self)
  else .error (.invalidCSRegister addr)

/-- Set the interrupt pending flag. -/
def setInterrupt (self : CSRegisters) : CSRegisters := { self with mipEmbive := true }

/-- Check if interrupt is enabled. -/
def interruptEnabled (self : CSRegisters) : Bool :=
  self.mieEmbive && (self.mstatus &&& mstatusMie) != 0

/-- Trap Entry, giving the registers and the program counter after it. -/
def trapEntry (self : CSRegisters) (pc : U32) (value : I32) : CSRegisters × U32 :=
  let mpie := if (self.mstatus &&& mstatusMie) ≠ 0 then self.mstatus ||| mstatusMpie
    else self.mstatus &&& ~~~mstatusMpie
  let mstatus := mpie &&& ~~~mstatusMie
  ({ self with mstatus, mcause := mcauseInterrupt ||| mcauseMeiCode, mepc := pc, mtval := value },
    self.mtvec &&& ~~~mtvecMode)

/-- Trap Return, giving the registers and the program counter to return to. -/
def trapReturn (self : CSRegisters) : CSRegisters × U32 :=
  let mstatus := if (self.mstatus &&& mstatusMpie) ≠ 0 then self.mstatus ||| mstatusMie
    else self.mstatus &&& ~~~mstatusMie
  ({ self with mstatus }, self.mepc)

end CSRegisters

/-- Embive Registers. -/
structure Registers where
  cpu : CPURegisters
  controlStatus : CSRegisters
  deriving DecidableEq

def Registers.default : Registers := ⟨.default, .default⟩

/-- An outcome that keeps the two trap registers or writes them with their masks. -/
def CSRegisters.KeepsOrMasks (cs : CSRegisters) (addr : U16)
    (r : Except Error (U32 × CSRegisters)) : Prop :=
  r = .error (.invalidCSRegister addr) ∨ ∃ value cs', r = .ok (value, cs') ∧
    (cs'.mepc = cs.mepc ∨ ∃ x, cs'.mepc = x &&& ~~~mepcBit0) ∧
    (cs'.mtvec = cs.mtvec ∨ ∃ x, cs'.mtvec = x &&& ~~~mtvecMode)

theorem CSRegisters.operation_cases (cs : CSRegisters) (op : Option CSOperation) (addr : U16) :
    cs.KeepsOrMasks addr (cs.operation op addr) := by
  have hkeep (value : U32) (cs' : CSRegisters) (h1 : cs'.mepc = cs.mepc)
      (h2 : cs'.mtvec = cs.mtvec) : cs.KeepsOrMasks addr (.ok (value, cs')) :=
    .inr ⟨value, cs', rfl, .inl h1, .inl h2⟩
  unfold CSRegisters.operation
  repeat' apply iteInduction <;> intro _
  · exact hkeep _ _ rfl rfl
  · exact hkeep _ _ rfl rfl
  · exact hkeep _ _ rfl rfl
  · exact .inr ⟨_, _, rfl, .inl rfl, .inr ⟨_, rfl⟩⟩
  · exact hkeep _ _ rfl rfl
  · exact hkeep _ _ rfl rfl
  · exact hkeep _ _ rfl rfl
  · exact .inr ⟨_, _, rfl, .inr ⟨_, rfl⟩, .inl rfl⟩
  · exact hkeep _ _ rfl rfl
  · exact hkeep _ _ rfl rfl
  · exact hkeep _ _ rfl rfl
  · exact hkeep _ _ rfl rfl
  · exact hkeep _ _ rfl rfl
  · exact .inl rfl

theorem CSRegisters.operation_error {cs : CSRegisters} {op : Option CSOperation} {addr : U16}
    {e : Error} (h : cs.operation op addr = .error e) : e = .invalidCSRegister addr := by
  rcases cs.operation_cases op addr with he | ⟨value, cs', hok, _⟩
  · rw [he] at h
    cases h
    rfl
  · rw [hok] at h
    cases h

/-- The registers differ in the one at the address at most. -/
structure CSRegisters.SameExcept (addr : U16) (cs cs' : CSRegisters) : Prop where
  mstatus : addr ≠ mstatusAddr → cs'.mstatus = cs.mstatus
  mieEmbive : addr ≠ mieAddr → cs'.mieEmbive = cs.mieEmbive
  mtvec : addr ≠ mtvecAddr → cs'.mtvec = cs.mtvec
  mscratch : addr ≠ mscratchAddr → cs'.mscratch = cs.mscratch
  mepc : addr ≠ mepcAddr → cs'.mepc = cs.mepc
  mcause : addr ≠ mcauseAddr → cs'.mcause = cs.mcause
  mtval : addr ≠ mtvalAddr → cs'.mtval = cs.mtval
  mipEmbive : addr ≠ mipAddr → cs'.mipEmbive = cs.mipEmbive

/-- An outcome that changes the register at the address only. -/
def CSRegisters.ChangesOnly (cs : CSRegisters) (addr : U16)
    (r : Except Error (U32 × CSRegisters)) : Prop :=
  ∀ value cs', r = .ok (value, cs') → cs.SameExcept addr cs'

theorem CSRegisters.changesOnly_ok {cs cs' : CSRegisters} {addr : U16} {value : U32}
    (h : cs.SameExcept addr cs') : cs.ChangesOnly addr (.ok (value, cs')) := by
  intro _ _ heq
  cases heq
  exact h

theorem CSRegisters.operation_changesOnly (cs : CSRegisters) (op : Option CSOperation)
    (addr : U16) : cs.ChangesOnly addr (cs.operation op addr) := by
  have hsame : cs.SameExcept addr cs := by constructor <;> exact fun _ => rfl
  unfold CSRegisters.operation
  repeat' apply iteInduction <;> intro haddr
  · exact changesOnly_ok ⟨fun hne => absurd haddr hne, fun _ => rfl, fun _ => rfl, fun _ => rfl,
      fun _ => rfl, fun _ => rfl, fun _ => rfl, fun _ => rfl⟩
  · exact changesOnly_ok hsame
  · exact changesOnly_ok ⟨fun _ => rfl, fun hne => absurd haddr hne, fun _ => rfl, fun _ => rfl,
      fun _ => rfl, fun _ => rfl, fun _ => rfl, fun _ => rfl⟩
  · exact changesOnly_ok ⟨fun _ => rfl, fun _ => rfl, fun hne => absurd haddr hne, fun _ => rfl,
      fun _ => rfl, fun _ => rfl, fun _ => rfl, fun _ => rfl⟩
  · exact changesOnly_ok hsame
  · exact changesOnly_ok hsame
  · exact changesOnly_ok ⟨fun _ => rfl, fun _ => rfl, fun _ => rfl, fun hne => absurd haddr hne,
      fun _ => rfl, fun _ => rfl, fun _ => rfl, fun _ => rfl⟩
  · exact changesOnly_ok ⟨fun _ => rfl, fun _ => rfl, fun _ => rfl, fun _ => rfl,
      fun hne => absurd haddr hne, fun _ => rfl, fun _ => rfl, fun _ => rfl⟩
  · exact changesOnly_ok ⟨fun _ => rfl, fun _ => rfl, fun _ => rfl, fun _ => rfl, fun _ => rfl,
      fun hne => absurd haddr hne, fun _ => rfl, fun _ => rfl⟩
  · exact changesOnly_ok ⟨fun _ => rfl, fun _ => rfl, fun _ => rfl, fun _ => rfl, fun _ => rfl,
      fun _ => rfl, fun hne => absurd haddr hne, fun _ => rfl⟩
  · exact changesOnly_ok ⟨fun _ => rfl, fun _ => rfl, fun _ => rfl, fun _ => rfl, fun _ => rfl,
      fun _ => rfl, fun _ => rfl, fun hne => absurd haddr hne⟩
  · exact changesOnly_ok hsame
  · exact changesOnly_ok hsame
  · intro _ _ heq
    cases heq

end Embive
