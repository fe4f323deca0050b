import Embive.Format

/-! # Embive and RISC-V instructions

The Embive instruction table: name, opcode, format and constants of each
instruction, and the decoder that dispatches on the opcode.
-/

namespace Embive

namespace Branch
def beqFunc : U8 := 0
def bneFunc : U8 := 1
def bltFunc : U8 := 2
def bgeFunc : U8 := 3
def bltuFunc : U8 := 4
def bgeuFunc : U8 := 5
end Branch

namespace LoadStore
def lbFunc : U8 := 0
def lhFunc : U8 := 1
def lwFunc : U8 := 2
def lbuFunc : U8 := 3
def lhuFunc : U8 := 4
def sbFunc : U8 := 5
def shFunc : U8 := 6
def swFunc : U8 := 7
end LoadStore

namespace OpImm
def addiFunc : U8 := 0
def slliFunc : U8 := 1
def sltiFunc : U8 := 2
def sltiuFunc : U8 := 3
def xoriFunc : U8 := 4
def srliSraiFunc : U8 := 5
def oriFunc : U8 := 6
def andiFunc : U8 := 7
end OpImm

namespace OpAmo
def addFunc : U16 := 0
def subFunc : U16 := 1
def sllFunc : U16 := 2
def sltFunc : U16 := 3
def sltuFunc : U16 := 4
def xorFunc : U16 := 5
def srlFunc : U16 := 6
def sraFunc : U16 := 7
def orFunc : U16 := 8
def andFunc : U16 := 9
def mulFunc : U16 := 10
def mulhFunc : U16 := 11
def mulhsuFunc : U16 := 12
def mulhuFunc : U16 := 13
def divFunc : U16 := 14
def divuFunc : U16 := 15
def remFunc : U16 := 16
def remuFunc : U16 := 17
def lrFunc : U16 := 18
def scFunc : U16 := 19
def amoswapFunc : U16 := 20
def amoaddFunc : U16 := 21
def amoxorFunc : U16 := 22
def amoandFunc : U16 := 23
def amoorFunc : U16 := 24
def amominFunc : U16 := 25
def amomaxFunc : U16 := 26
def amominuFunc : U16 := 27
def amomaxuFunc : U16 := 28
end OpAmo

namespace SystemMiscMem
def ecallImm : I32 := 0
def ebreakImm : I32 := 1
def fenceiImm : I32 := 2
def wfiImm : I32 := 3
def mretImm : I32 := 4
def miscFunc : U8 := 0
def csrrwFunc : U8 := 1
def csrrsFunc : U8 := 2
def csrrcFunc : U8 := 3
def csrrwiFunc : U8 := 4
def csrrsiFunc : U8 := 5
def csrrciFunc : U8 := 6
end SystemMiscMem

/-- A decoded Embive instruction: the instruction struct with its format data. -/
inductive Decoded where
  | cAddi4spn (data : TypeCIW)
  | cLw (data : TypeCL)
  | cSw (data : TypeCL)
  | cAddi (data : TypeCI1)
  | cJal (data : TypeCJ)
  | cLi (data : TypeCI1)
  | cAddi16sp (data : TypeCI2)
  | cLui (data : TypeCI3)
  | cSrli (data : TypeCB1)
  | cSrai (data : TypeCB1)
  | cAndi (data : TypeCB2)
  | cSub (data : TypeCS)
  | cXor (data : TypeCS)
  | cOr (data : TypeCS)
  | cAnd (data : TypeCS)
  | cJ (data : TypeCJ)
  | cBeqz (data : TypeCB4)
  | cBnez (data : TypeCB4)
  | cSlli (data : TypeCI4)
  | cLwsp (data : TypeCI5)
  | cJrMv (data : TypeCR)
  | cEbreakJalrAdd (data : TypeCR)
  | cSwsp (data : TypeCSS)
  | auipc (data : TypeU)
  | branch (data : TypeB)
  | jal (data : TypeJ)
  | jalr (data : TypeI)
  | loadStore (data : TypeI)
  | lui (data : TypeU)
  | opImm (data : TypeI)
  | opAmo (data : TypeR)
  | systemMiscMem (data : TypeI)
  deriving DecidableEq

namespace Decoded

/-- The instruction's opcode in the table. -/
def opcode : Decoded → U8
  | .cAddi4spn _ => 0
  | .cLw _ => 1
  | .cSw _ => 2
  | .cAddi _ => 3
  | .cJal _ => 4
  | .cLi _ => 5
  | .cAddi16sp _ => 6
  | .cLui _ => 7
  | .cSrli _ => 8
  | .cSrai _ => 9
  | .cAndi _ => 10
  | .cSub _ => 11
  | .cXor _ => 12
  | .cOr _ => 13
  | .cAnd _ => 14
  | .cJ _ => 15
  | .cBeqz _ => 16
  | .cBnez _ => 17
  | .cSlli _ => 18
  | .cLwsp _ => 19
  | .cJrMv _ => 20
  | .cEbreakJalrAdd _ => 21
  | .cSwsp _ => 22
  | .auipc _ => 23
  | .branch _ => 24
  | .jal _ => 25
  | .jalr _ => 26
  | .loadStore _ => 27
  | .lui _ => 28
  | .opImm _ => 29
  | .opAmo _ => 30
  | .systemMiscMem _ => 31

/-- The size of the instruction is that of its format. -/
def size : Decoded → Size
  | .cAddi4spn _ => Format.size TypeCIW
  | .cLw _ | .cSw _ => Format.size TypeCL
  | .cAddi _ | .cLi _ => Format.size TypeCI1
  | .cJal _ | .cJ _ => Format.size TypeCJ
  | .cAddi16sp _ => Format.size TypeCI2
  | .cLui _ => Format.size TypeCI3
  | .cSrli _ | .cSrai _ => Format.size TypeCB1
  | .cAndi _ => Format.size TypeCB2
  | .cSub _ | .cXor _ | .cOr _ | .cAnd _ => Format.size TypeCS
  | .cBeqz _ | .cBnez _ => Format.size TypeCB4
  | .cSlli _ => Format.size TypeCI4
  | .cLwsp _ => Format.size TypeCI5
  | .cJrMv _ | .cEbreakJalrAdd _ => Format.size TypeCR
  | .cSwsp _ => Format.size TypeCSS
  | .auipc _ | .lui _ => Format.size TypeU
  | .branch _ => Format.size TypeB
  | .jal _ => Format.size TypeJ
  | .jalr _ | .loadStore _ | .opImm _ | .systemMiscMem _ => Format.size TypeI
  | .opAmo _ => Format.size TypeR

/-- Encode the instruction, without its opcode. -/
def encode : Decoded → U32
  | .cAddi4spn data => Format.toEmbive data
  | .cLw data | .cSw data => Format.toEmbive data
  | .cAddi data | .cLi data => Format.toEmbive data
  | .cJal data | .cJ data => Format.toEmbive data
  | .cAddi16sp data => Format.toEmbive data
  | .cLui data => Format.toEmbive data
  | .cSrli data | .cSrai data => Format.toEmbive data
  | .cAndi data => Format.toEmbive data
  | .cSub data | .cXor data | .cOr data | .cAnd data => Format.toEmbive data
  | .cBeqz data | .cBnez data => Format.toEmbive data
  | .cSlli data => Format.toEmbive data
  | .cLwsp data => Format.toEmbive data
  | .cJrMv data | .cEbreakJalrAdd data => Format.toEmbive data
  | .cSwsp data => Format.toEmbive data
  | .auipc data | .lui data => Format.toEmbive data
  | .branch data => Format.toEmbive data
  | .jal data => Format.toEmbive data
  | .jalr data | .loadStore data | .opImm data | .systemMiscMem data => Format.toEmbive data
  | .opAmo data => Format.toEmbive data

end Decoded

/-- Select the instruction by the five opcode bits and decode it from the word. -/
def decodeInstruction (inst : U32) : Option Decoded :=
  match (inst &&& 0x1F).toNat with
  | 0 => some (.cAddi4spn (Format.fromEmbive inst))
  | 1 => some (.cLw (Format.fromEmbive inst))
  | 2 => some (.cSw (Format.fromEmbive inst))
  | 3 => some (.cAddi (Format.fromEmbive inst))
  | 4 => some (.cJal (Format.fromEmbive inst))
  | 5 => some (.cLi (Format.fromEmbive inst))
  | 6 => some (.cAddi16sp (Format.fromEmbive inst))
  | 7 => some (.cLui (Format.fromEmbive inst))
  | 8 => some (.cSrli (Format.fromEmbive inst))
  | 9 => some (.cSrai (Format.fromEmbive inst))
  | 10 => some (.cAndi (Format.fromEmbive inst))
  | 11 => some (.cSub (Format.fromEmbive inst))
  | 12 => some (.cXor (Format.fromEmbive inst))
  | 13 => some (.cOr (Format.fromEmbive inst))
  | 14 => some (.cAnd (Format.fromEmbive inst))
  | 15 => some (.cJ (Format.fromEmbive inst))
  | 16 => some (.cBeqz (Format.fromEmbive inst))
  | 17 => some (.cBnez (Format.fromEmbive inst))
  | 18 => some (.cSlli (Format.fromEmbive inst))
  | 19 => some (.cLwsp (Format.fromEmbive inst))
  | 20 => some (.cJrMv (Format.fromEmbive inst))
  | 21 => some (.cEbreakJalrAdd (Format.fromEmbive inst))
  | 22 => some (.cSwsp (Format.fromEmbive inst))
  | 23 => some (.auipc (Format.fromEmbive inst))
  | 24 => some (.branch (Format.fromEmbive inst))
  | 25 => some (.jal (Format.fromEmbive inst))
  | 26 => some (.jalr (Format.fromEmbive inst))
  | 27 => some (.loadStore (Format.fromEmbive inst))
  | 28 => some (.lui (Format.fromEmbive inst))
  | 29 => some (.opImm (Format.fromEmbive inst))
  | 30 => some (.opAmo (Format.fromEmbive inst))
  | 31 => some (.systemMiscMem (Format.fromEmbive inst))
  | _ => none

end Embive
