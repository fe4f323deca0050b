import Embive.Instruction
import Embive.Transpiler.Basic

/-! # Conversion of RISC-V instructions to Embive instructions

The word is dispatched on its opcode, and each converter reads it in its RISC-V
format, renumbers the function and writes it in the Embive format.
-/

namespace Embive

namespace Transpiler

/-- Raw instruction struct. -/
structure RawInstruction where
  data : U32
  size : Size
  deriving DecidableEq

/-- An Embive instruction with its opcode in the five low bits. -/
def embiveRaw (inst : Decoded) : RawInstruction :=
  ⟨inst.encode ||| inst.opcode.setWidth 32, inst.size⟩

/-- Compressed Instruction Funct3. -/
def cFunct3 (data : U32) : U8 := ((data >>> 13) &&& 0b111).setWidth 8

/-- Compressed Instruction Bit 12. -/
def cBit12 (data : U32) : U8 := ((data >>> 12) &&& 0b1).setWidth 8

/-- Compressed Instruction Bits 11-10. -/
def cBits11_10 (data : U32) : U8 := ((data >>> 10) &&& 0b11).setWidth 8

/-- Compressed Instruction Bits 6-5. -/
def cBits6_5 (data : U32) : U8 := ((data >>> 5) &&& 0b11).setWidth 8

namespace Riscv

variable [ElfCrate]

namespace C0
def opcode : U8 := 0b00
def cAddi4spnFunc : U8 := 0b000
def cLwFunc : U8 := 0b010
def cSwFunc : U8 := 0b110
end C0

def C0.convert (data : U32) : Except Error RawInstruction :=
  if cFunct3 data = cAddi4spnFunc then .ok (embiveRaw (.cAddi4spn (Format.fromRiscv data)))
  else if cFunct3 data = cLwFunc then .ok (embiveRaw (.cLw (Format.fromRiscv data)))
  else if cFunct3 data = cSwFunc then .ok (embiveRaw (.cSw (Format.fromRiscv data)))
  else .error (.invalidInstruction (data &&& 0xFFFF))

namespace C1
def opcode : U8 := 0b01
def cAddiFunc : U8 := 0b000
def cJalFunc : U8 := 0b001
def cLiFunc : U8 := 0b010
def cAddi16spLuiFunc : U8 := 0b011
def cSrliSraiAndiSubXorOrAndFunc : U8 := 0b100
def cJFunc : U8 := 0b101
def cBeqzFunc : U8 := 0b110
def cBnezFunc : U8 := 0b111
def cSrliBits11_10 : U8 := 0b00
def cSraiBits11_10 : U8 := 0b01
def cAndiBits11_10 : U8 := 0b10
def cSubXorOrAndBit12 : U8 := 0b0
def cSubXorOrAndBits11_10 : U8 := 0b11
def cSubBits6_5 : U8 := 0b00
def cXorBits6_5 : U8 := 0b01
def cOrBits6_5 : U8 := 0b10
def cAndBits6_5 : U8 := 0b11
end C1

def C1.convert (data : U32) : Except Error RawInstruction :=
  if cFunct3 data = cAddiFunc then .ok (embiveRaw (.cAddi (Format.fromRiscv data)))
  else if cFunct3 data = cJalFunc then .ok (embiveRaw (.cJal (Format.fromRiscv data)))
  else if cFunct3 data = cLiFunc then .ok (embiveRaw (.cLi (Format.fromRiscv data)))
  else if cFunct3 data = cAddi16spLuiFunc then
    let inst : TypeCI3 := Format.fromRiscv data
    if inst.rdRs1 = 2 then .ok (embiveRaw (.cAddi16sp (Format.fromRiscv data)))
    else .ok (embiveRaw (.cLui inst))
  else if cFunct3 data = cSrliSraiAndiSubXorOrAndFunc then
    if cBits11_10 data = cSrliBits11_10 then .ok (embiveRaw (.cSrli (Format.fromRiscv data)))
    else if cBits11_10 data = cSraiBits11_10 then .ok (embiveRaw (.cSrai (Format.fromRiscv data)))
    else if cBits11_10 data = cAndiBits11_10 then .ok (embiveRaw (.cAndi (Format.fromRiscv data)))
    else if cBits11_10 data = cSubXorOrAndBits11_10 ∧ cBit12 data = cSubXorOrAndBit12 then
      let inst : TypeCS := Format.fromRiscv data
      if cBits6_5 data = cSubBits6_5 then .ok (embiveRaw (.cSub inst))
      else if cBits6_5 data = cXorBits6_5 then .ok (embiveRaw (.cXor inst))
      else if cBits6_5 data = cOrBits6_5 then .ok (embiveRaw (.cOr inst))
      else if cBits6_5 data = cAndBits6_5 then .ok (embiveRaw (.cAnd inst))
      else .error (.invalidInstruction (data &&& 0xFFFF))
    else .error (.invalidInstruction (data &&& 0xFFFF))
  else if cFunct3 data = cJFunc then .ok (embiveRaw (.cJ (Format.fromRiscv data)))
  else if cFunct3 data = cBeqzFunc then .ok (embiveRaw (.cBeqz (Format.fromRiscv data)))
  else if cFunct3 data = cBnezFunc then .ok (embiveRaw (.cBnez (Format.fromRiscv data)))
  else .error (.invalidInstruction (data &&& 0xFFFF))

namespace C2
def opcode : U8 := 0b10
def cSlliFunc : U8 := 0b000
def cLwspFunc : U8 := 0b010
def cJrMvEbreakJalrAddFunc : U8 := 0b100
def cSwspFunc : U8 := 0b110
def cJrMvBit12 : U8 := 0b0
end C2

def C2.convert (data : U32) : Except Error RawInstruction :=
  if cFunct3 data = cSlliFunc then .ok (embiveRaw (.cSlli (Format.fromRiscv data)))
  else if cFunct3 data = cLwspFunc then .ok (embiveRaw (.cLwsp (Format.fromRiscv data)))
  else if cFunct3 data = cJrMvEbreakJalrAddFunc then
    let inst : TypeCR := Format.fromRiscv data
    if cBit12 data = cJrMvBit12 then .ok (embiveRaw (.cJrMv inst))
    else .ok (embiveRaw (.cEbreakJalrAdd inst))
  else if cFunct3 data = cSwspFunc then .ok (embiveRaw (.cSwsp (Format.fromRiscv data)))
  else .error (.invalidInstruction (data &&& 0xFFFF))

namespace Load
def opcode : U8 := 0b000_0011
def lbFunc : U8 := 0b000
def lhFunc : U8 := 0b001
def lwFunc : U8 := 0b010
def lbuFunc : U8 := 0b100
def lhuFunc : U8 := 0b101
end Load

/-- The Embive function of a load. -/
def Load.embiveFunc (func : U8) : Option U8 :=
  if func = lbFunc then some LoadStore.lbFunc
  else if func = lhFunc then some LoadStore.lhFunc
  else if func = lwFunc then some LoadStore.lwFunc
  else if func = lbuFunc then some LoadStore.lbuFunc
  else if func = lhuFunc then some LoadStore.lhuFunc
  else none

def Load.convert (data : U32) : Except Error RawInstruction :=
  let inst : TypeI := Format.fromRiscv data
  match Load.embiveFunc inst.func with
  | some func => .ok (embiveRaw (.loadStore { inst with func }))
  | none => .error (.invalidInstruction data)

namespace Store
def opcode : U8 := 0b010_0011
def sbFunc : U8 := 0b000
def shFunc : U8 := 0b001
def swFunc : U8 := 0b010
end Store

/-- The Embive function of a store. -/
def Store.embiveFunc (func : U8) : Option U8 :=
  if func = sbFunc then some LoadStore.sbFunc
  else if func = shFunc then some LoadStore.shFunc
  else if func = swFunc then some LoadStore.swFunc
  else none

def Store.convert (data : U32) : Except Error RawInstruction :=
  let instS : TypeS := Format.fromRiscv data
  let inst : TypeI := { imm := instS.imm, rs1 := instS.rs1, rdRs2 := instS.rs2, func := instS.func }
  match Store.embiveFunc instS.func with
  | some func => .ok (embiveRaw (.loadStore { inst with func }))
  | none => .error (.invalidInstruction data)

def MiscMem.opcode : U8 := 0b000_1111

def MiscMem.convert (data : U32) : Except Error RawInstruction :=
  let inst : TypeI := Format.fromRiscv data
  .ok (embiveRaw (.systemMiscMem
    { inst with func := SystemMiscMem.miscFunc, imm := SystemMiscMem.fenceiImm }))

namespace OpImm
def opcode : U8 := 0b001_0011
def addiFunc : U8 := 0b000
def slliFunc : U8 := 0b001
def sltiFunc : U8 := 0b010
def sltiuFunc : U8 := 0b011
def xoriFunc : U8 := 0b100
def srliSraiFunc : U8 := 0b101
def oriFunc : U8 := 0b110
def andiFunc : U8 := 0b111
end OpImm

/-- The Embive function of an operation with an immediate. -/
def OpImm.embiveFunc (func : U8) : Option U8 :=
  if func = addiFunc then some Embive.OpImm.addiFunc
  else if func = slliFunc then some Embive.OpImm.slliFunc
  else if func = sltiFunc then some Embive.OpImm.sltiFunc
  else if func = sltiuFunc then some Embive.OpImm.sltiuFunc
  else if func = xoriFunc then some Embive.OpImm.xoriFunc
  else if func = srliSraiFunc then some Embive.OpImm.srliSraiFunc
  else if func = oriFunc then some Embive.OpImm.oriFunc
  else if func = andiFunc then some Embive.OpImm.andiFunc
  else none

def OpImm.convert (data : U32) : Except Error RawInstruction :=
  let inst : TypeI := Format.fromRiscv data
  match OpImm.embiveFunc inst.func with
  | some func => .ok (embiveRaw (.opImm { inst with func }))
  | none => .error (.invalidInstruction data)

def Auipc.opcode : U8 := 0b001_0111

def Auipc.convert (data : U32) : Except Error RawInstruction :=
  .ok (embiveRaw (.auipc (Format.fromRiscv data)))

def Lui.opcode : U8 := 0b011_0111

def Lui.convert (data : U32) : Except Error RawInstruction :=
  .ok (embiveRaw (.lui (Format.fromRiscv data)))

def Jal.opcode : U8 := 0b110_1111

def Jal.convert (data : U32) : Except Error RawInstruction :=
  .ok (embiveRaw (.jal (Format.fromRiscv data)))

def Jalr.opcode : U8 := 0b110_0111

def Jalr.convert (data : U32) : Except Error RawInstruction :=
  .ok (embiveRaw (.jalr (Format.fromRiscv data)))

namespace Branch
def opcode : U8 := 0b110_0011
def beqFunc : U8 := 0b000
def bneFunc : U8 := 0b001
def bltFunc : U8 := 0b100
def bgeFunc : U8 := 0b101
def bltuFunc : U8 := 0b110
def bgeuFunc : U8 := 0b111
end Branch

/-- The Embive function of a branch. -/
def Branch.embiveFunc (func : U8) : Option U8 :=
  if func = beqFunc then some Embive.Branch.beqFunc
  else if func = bneFunc then some Embive.Branch.bneFunc
  else if func = bltFunc then some Embive.Branch.bltFunc
  else if func = bgeFunc then some Embive.Branch.bgeFunc
  else if func = bltuFunc then some Embive.Branch.bltuFunc
  else if func = bgeuFunc then some Embive.Branch.bgeuFunc
  else none

def Branch.convert (data : U32) : Except Error RawInstruction :=
  let inst : TypeB := Format.fromRiscv data
  match Branch.embiveFunc inst.func with
  | some func => .ok (embiveRaw (.branch { inst with func }))
  | none => .error (.invalidInstruction data)

namespace Op
def opcode : U8 := 0b011_0011
def mulAddSubFunc : U8 := 0b000
def divXorFunc : U8 := 0b100
def remOrFunc : U8 := 0b110
def remuAndFunc : U8 := 0b111
def mulhSllFunc : U8 := 0b001
def divuSrlSraFunc : U8 := 0b101
def mulhsuSltFunc : U8 := 0b010
def mulhuSltuFunc : U8 := 0b011
def mExtFunct7 : U8 := 0b0000001
def subSraFunct7 : U8 := 0b0100000
def addFunc : U16 := mulAddSubFunc.setWidth 16
def subFunc : U16 := (subSraFunct7.setWidth 16 <<< 3) ||| mulAddSubFunc.setWidth 16
def xorFunc : U16 := divXorFunc.setWidth 16
def orFunc : U16 := remOrFunc.setWidth 16
def andFunc : U16 := remuAndFunc.setWidth 16
def sllFunc : U16 := mulhSllFunc.setWidth 16
def srlFunc : U16 := divuSrlSraFunc.setWidth 16
def sraFunc : U16 := (subSraFunct7.setWidth 16 <<< 3) ||| divuSrlSraFunc.setWidth 16
def sltFunc : U16 := mulhsuSltFunc.setWidth 16
def sltuFunc : U16 := mulhuSltuFunc.setWidth 16
def mulFunc : U16 := (mExtFunct7.setWidth 16 <<< 3) ||| mulAddSubFunc.setWidth 16
def divFunc : U16 := (mExtFunct7.setWidth 16 <<< 3) ||| divXorFunc.setWidth 16
def remFunc : U16 := (mExtFunct7.setWidth 16 <<< 3) ||| remOrFunc.setWidth 16
def remuFunc : U16 := (mExtFunct7.setWidth 16 <<< 3) ||| remuAndFunc.setWidth 16
def mulhFunc : U16 := (mExtFunct7.setWidth 16 <<< 3) ||| mulhSllFunc.setWidth 16
def divuFunc : U16 := (mExtFunct7.setWidth 16 <<< 3) ||| divuSrlSraFunc.setWidth 16
def mulhsuFunc : U16 := (mExtFunct7.setWidth 16 <<< 3) ||| mulhsuSltFunc.setWidth 16
def mulhuFunc : U16 := (mExtFunct7.setWidth 16 <<< 3) ||| mulhuSltuFunc.setWidth 16
end Op

/-- The Embive function of a register operation. -/
def Op.embiveFunc (func : U16) : Option U16 :=
  if func = addFunc then some OpAmo.addFunc
  else if func = subFunc then some OpAmo.subFunc
  else if func = sllFunc then some OpAmo.sllFunc
  else if func = sltFunc then some OpAmo.sltFunc
  else if func = sltuFunc then some OpAmo.sltuFunc
  else if func = xorFunc then some OpAmo.xorFunc
  else if func = srlFunc then some OpAmo.srlFunc
  else if func = sraFunc then some OpAmo.sraFunc
  else if func = orFunc then some OpAmo.orFunc
  else if func = andFunc then some OpAmo.andFunc
  else if func = mulFunc then some OpAmo.mulFunc
  else if func = mulhFunc then some OpAmo.mulhFunc
  else if func = mulhsuFunc then some OpAmo.mulhsuFunc
  else if func = mulhuFunc then some OpAmo.mulhuFunc
  else if func = divFunc then some OpAmo.divFunc
  else if func = divuFunc then some OpAmo.divuFunc
  else if func = remFunc then some OpAmo.remFunc
  else if func = remuFunc then some OpAmo.remuFunc
  else none

def Op.convert (data : U32) : Except Error RawInstruction :=
  let inst : TypeR := Format.fromRiscv data
  match Op.embiveFunc inst.func with
  | some func => .ok (embiveRaw (.opAmo { inst with func }))
  | none => .error (.invalidInstruction data)

namespace Amo
def opcode : U8 := 0b010_1111
def wordWidth : U8 := 0b010
def lrFunct5 : U8 := 0b00010
def scFunct5 : U8 := 0b00011
def amoswapFunct5 : U8 := 0b00001
def amoaddFunct5 : U8 := 0b00000
def amoxorFunct5 : U8 := 0b00100
def amoandFunct5 : U8 := 0b01100
def amoorFunct5 : U8 := 0b01000
def amominFunct5 : U8 := 0b10000
def amomaxFunct5 : U8 := 0b10100
def amominuFunct5 : U8 := 0b11000
def amomaxuFunct5 : U8 := 0b11100
end Amo

/-- The Embive function of an atomic operation. -/
def Amo.embiveFunc (funct5 : U8) : Option U16 :=
  if funct5 = lrFunct5 then some OpAmo.lrFunc
  else if funct5 = scFunct5 then some OpAmo.scFunc
  else if funct5 = amoswapFunct5 then some OpAmo.amoswapFunc
  else if funct5 = amoaddFunct5 then some OpAmo.amoaddFunc
  else if funct5 = amoxorFunct5 then some OpAmo.amoxorFunc
  else if funct5 = amoandFunct5 then some OpAmo.amoandFunc
  else if funct5 = amoorFunct5 then some OpAmo.amoorFunc
  else if funct5 = amominFunct5 then some OpAmo.amominFunc
  else if funct5 = amomaxFunct5 then some OpAmo.amomaxFunc
  else if funct5 = amominuFunct5 then some OpAmo.amominuFunc
  else if funct5 = amomaxuFunct5 then some OpAmo.amomaxuFunc
  else none

/-- The two bits below the five function bits are not looked at. -/
def Amo.convert (data : U32) : Except Error RawInstruction :=
  let inst : TypeR := Format.fromRiscv data
  if (inst.func &&& 0b111).setWidth 8 ≠ wordWidth then .error (.invalidInstruction data)
  else match Amo.embiveFunc ((inst.func >>> 5).setWidth 8) with
    | some func => .ok (embiveRaw (.opAmo { inst with func }))
    | none => .error (.invalidInstruction data)

namespace System
def opcode : U8 := 0b111_0011
def ecallImm : I32 := 0b0
def ebreakImm : I32 := 0b1
def wfiImm : I32 := 0b1_0000_0101
def mretImm : I32 := 0b11_0000_0010
def csrrwFunc : U8 := 0b001
def csrrsFunc : U8 := 0b010
def csrrcFunc : U8 := 0b011
def csrrwiFunc : U8 := 0b101
def csrrsiFunc : U8 := 0b110
def csrrciFunc : U8 := 0b111
end System

/-- The Embive immediate of a system instruction; any other immediate stays. -/
def System.embiveImm (imm : I32) : I32 :=
  if imm = ecallImm then SystemMiscMem.ecallImm
  else if imm = ebreakImm then SystemMiscMem.ebreakImm
  else if imm = wfiImm then SystemMiscMem.wfiImm
  else if imm = mretImm then SystemMiscMem.mretImm
  else imm

/-- The Embive function of a control and status instruction. -/
def System.embiveFunc (func : U8) : Option U8 :=
  if func = csrrwFunc then some SystemMiscMem.csrrwFunc
  else if func = csrrsFunc then some SystemMiscMem.csrrsFunc
  else if func = csrrcFunc then some SystemMiscMem.csrrcFunc
  else if func = csrrwiFunc then some SystemMiscMem.csrrwiFunc
  else if func = csrrsiFunc then some SystemMiscMem.csrrsiFunc
  else if func = csrrciFunc then some SystemMiscMem.csrrciFunc
  else none

def System.convert (data : U32) : Except Error RawInstruction :=
  let inst : TypeI := Format.fromRiscv data
  if inst.func = SystemMiscMem.miscFunc then
    .ok (embiveRaw (.systemMiscMem { inst with imm := System.embiveImm inst.imm }))
  else match System.embiveFunc inst.func with
    | some func => .ok (embiveRaw (.systemMiscMem { inst with func }))
    | none => .error (.invalidInstruction data)

end Riscv

open Riscv in
/-- Convert a RISC-V instruction to Embive format. -/
def convert [ElfCrate] (data : U32) : Except Error RawInstruction :=
  let low : U8 := (data &&& 0b11).setWidth 8
  if low = C0.opcode then C0.convert data
  else if low = C1.opcode then C1.convert data
  else if low = C2.opcode then C2.convert data
  else
    let opcode : U8 := (data &&& 0b111_1111).setWidth 8
    if opcode = Load.opcode then Load.convert data
    else if opcode = MiscMem.opcode then MiscMem.convert data
    else if opcode = OpImm.opcode then OpImm.convert data
    else if opcode = Auipc.opcode then Auipc.convert data
    else if opcode = Store.opcode then Store.convert data
    else if opcode = Amo.opcode then Amo.convert data
    else if opcode = Op.opcode then Op.convert data
    else if opcode = Lui.opcode then Lui.convert data
    else if opcode = Branch.opcode then Branch.convert data
    else if opcode = Jalr.opcode then Jalr.convert data
    else if opcode = Jal.opcode then Jal.convert data
    else if opcode = System.opcode then System.convert data
    else .error (.invalidInstruction data)

end Transpiler

end Embive
