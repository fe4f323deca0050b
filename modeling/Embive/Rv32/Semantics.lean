import Embive.Memory
import Embive.Rv32.Assembly

/-! # The instructions of RV32I, RV32A and Zicsr

The words that encode the integer, control transfer, memory and control and status
instructions, and what each computes from the values of its registers. Register zero is
read as zero.
-/

namespace Embive.Rv32

/-- The values of the registers. -/
abbrev Values := BitVec 5 → U32

/-- A comparison as a register value. -/
def ofBool (b : Bool) : U32 := if b then 1 else 0

section Integer

/-- The operations on two registers. -/
inductive AluOp where
  | add | sub | sll | slt | sltu | xor | srl | sra | or | and
  deriving DecidableEq

namespace AluOp

def funct7 : AluOp → BitVec 7
  | .sub | .sra => 0b0100000
  | _ => 0b0000000

def funct3 : AluOp → BitVec 3
  | .add | .sub => 0b000
  | .sll => 0b001
  | .slt => 0b010
  | .sltu => 0b011
  | .xor => 0b100
  | .srl | .sra => 0b101
  | .or => 0b110
  | .and => 0b111

/-- Shifts go by the low five bits of the second operand. -/
def result (op : AluOp) (x y : U32) : U32 :=
  match op with
  | .add => x + y
  | .sub => x - y
  | .sll => x <<< (y.extractLsb' 0 5).toNat
  | .slt => ofBool (x.toInt < y.toInt)
  | .sltu => ofBool (x.toNat < y.toNat)
  | .xor => x ^^^ y
  | .srl => x >>> (y.extractLsb' 0 5).toNat
  | .sra => x.sshiftRight (y.extractLsb' 0 5).toNat
  | .or => x ||| y
  | .and => x &&& y

end AluOp

/-- The operations on a register and an immediate. -/
inductive AluImmOp where
  | addi | slti | sltiu | xori | ori | andi
  deriving DecidableEq

namespace AluImmOp

def funct3 : AluImmOp → BitVec 3
  | .addi => 0b000
  | .slti => 0b010
  | .sltiu => 0b011
  | .xori => 0b100
  | .ori => 0b110
  | .andi => 0b111

/-- The immediate is sign-extended for the unsigned comparison too. -/
def result (op : AluImmOp) (x : U32) (imm : BitVec 12) : U32 :=
  match op with
  | .addi => x + imm.signExtend 32
  | .slti => ofBool (x.toInt < imm.toInt)
  | .sltiu => ofBool (x.toNat < (imm.signExtend 32).toNat)
  | .xori => x ^^^ imm.signExtend 32
  | .ori => x ||| imm.signExtend 32
  | .andi => x &&& imm.signExtend 32

end AluImmOp

/-- The shifts by an immediate. -/
inductive ShiftOp where
  | slli | srli | srai
  deriving DecidableEq

namespace ShiftOp

def funct7 : ShiftOp → BitVec 7
  | .slli | .srli => 0b0000000
  | .srai => 0b0100000

def funct3 : ShiftOp → BitVec 3
  | .slli => 0b001
  | .srli | .srai => 0b101

def result (op : ShiftOp) (x : U32) (shamt : BitVec 5) : U32 :=
  match op with
  | .slli => x <<< shamt.toNat
  | .srli => x >>> shamt.toNat
  | .srai => x.sshiftRight shamt.toNat

end ShiftOp

/-- The integer computational instructions. -/
inductive Integer where
  | alu (op : AluOp) (rd rs1 rs2 : BitVec 5)
  | aluImm (op : AluImmOp) (rd rs1 : BitVec 5) (imm : BitVec 12)
  | shift (op : ShiftOp) (rd rs1 shamt : BitVec 5)
  | lui (rd : BitVec 5) (imm : BitVec 20)
  | auipc (rd : BitVec 5) (imm : BitVec 20)
  deriving DecidableEq

namespace Integer

def encode : Integer → U32
  | .alu op rd rs1 rs2 => rType op.funct7 rs2 rs1 op.funct3 rd 0b0110011
  | .aluImm op rd rs1 imm => iType imm rs1 op.funct3 rd 0b0010011
  | .shift op rd rs1 shamt => iType (op.funct7 ++ shamt) rs1 op.funct3 rd 0b0010011
  | .lui rd imm => uType imm rd 0b0110111
  | .auipc rd imm => uType imm rd 0b0010111

def rd : Integer → BitVec 5
  | .alu _ rd _ _ | .aluImm _ rd _ _ | .shift _ rd _ _ | .lui rd _ | .auipc rd _ => rd

/-- The value for the destination. -/
def result (inst : Integer) (x : Values) (pc : U32) : U32 :=
  match inst with
  | .alu op _ rs1 rs2 => op.result (x rs1) (x rs2)
  | .aluImm op _ rs1 imm => op.result (x rs1) imm
  | .shift op _ rs1 shamt => op.result (x rs1) shamt
  | .lui _ imm => imm ++ 0#12
  | .auipc _ imm => pc + (imm ++ 0#12)

end Integer

end Integer

section Control

/-- The conditions of branches. -/
inductive BranchOp where
  | beq | bne | blt | bge | bltu | bgeu
  deriving DecidableEq

namespace BranchOp

def funct3 : BranchOp → BitVec 3
  | .beq => 0b000
  | .bne => 0b001
  | .blt => 0b100
  | .bge => 0b101
  | .bltu => 0b110
  | .bgeu => 0b111

def holds (op : BranchOp) (x y : U32) : Bool :=
  match op with
  | .beq => x = y
  | .bne => x ≠ y
  | .blt => x.toInt < y.toInt
  | .bge => y.toInt ≤ x.toInt
  | .bltu => x.toNat < y.toNat
  | .bgeu => y.toNat ≤ x.toNat

end BranchOp

/-- The control transfer instructions; the offsets of branches and of `jal` count
halfwords. -/
inductive Control where
  | branch (op : BranchOp) (rs1 rs2 : BitVec 5) (offset : BitVec 12)
  | jal (rd : BitVec 5) (offset : BitVec 20)
  | jalr (rd rs1 : BitVec 5) (imm : BitVec 12)
  deriving DecidableEq

namespace Control

def encode : Control → U32
  | .branch op rs1 rs2 offset => bType offset rs2 rs1 op.funct3 0b1100011
  | .jal rd offset => jType offset rd 0b1101111
  | .jalr rd rs1 imm => iType imm rs1 0b000 rd 0b1100111

/-- The destination of the return address; a branch has none. -/
def rd : Control → BitVec 5
  | .branch _ _ _ _ => 0
  | .jal rd _ | .jalr rd _ _ => rd

/-- The program counter after the instruction; `jalr` clears the lowest bit. -/
def target (inst : Control) (x : Values) (pc : U32) : U32 :=
  match inst with
  | .branch op rs1 rs2 offset =>
    if op.holds (x rs1) (x rs2) then pc + (offset ++ 0#1).signExtend 32 else pc + 4
  | .jal _ offset => pc + (offset ++ 0#1).signExtend 32
  | .jalr _ rs1 imm => (x rs1 + imm.signExtend 32) &&& ~~~1

/-- The sum that `jalr` goes to is even already. -/
def TargetsEven (inst : Control) (x : Values) : Prop :=
  match inst with
  | .jalr _ rs1 imm => (x rs1 + imm.signExtend 32) &&& 1 = 0
  | _ => True

end Control

end Control

section Access

/-- The loads. -/
inductive LoadOp where
  | lb | lh | lw | lbu | lhu
  deriving DecidableEq

namespace LoadOp

def funct3 : LoadOp → BitVec 3
  | .lb => 0b000
  | .lh => 0b001
  | .lw => 0b010
  | .lbu => 0b100
  | .lhu => 0b101

/-- The number of bytes. -/
def width : LoadOp → ℕ
  | .lb | .lbu => 1
  | .lh | .lhu => 2
  | .lw => 4

/-- The value of the little-endian bytes, sign- or zero-extended. -/
def result (op : LoadOp) (bytes : List U8) : U32 :=
  match op with
  | .lb => (fromLeBytes 8 bytes).signExtend 32
  | .lh => (fromLeBytes 16 bytes).signExtend 32
  | .lw => fromLeBytes 32 bytes
  | .lbu => (fromLeBytes 8 bytes).setWidth 32
  | .lhu => (fromLeBytes 16 bytes).setWidth 32

end LoadOp

/-- The stores. -/
inductive StoreOp where
  | sb | sh | sw
  deriving DecidableEq

namespace StoreOp

def funct3 : StoreOp → BitVec 3
  | .sb => 0b000
  | .sh => 0b001
  | .sw => 0b010

/-- The number of bytes. -/
def width : StoreOp → ℕ
  | .sb => 1
  | .sh => 2
  | .sw => 4

end StoreOp

/-- The atomic memory operations. -/
inductive AmoOp where
  | swap | add | xor | and | or | min | max | minu | maxu
  deriving DecidableEq

namespace AmoOp

def funct5 : AmoOp → BitVec 5
  | .swap => 0b00001
  | .add => 0b00000
  | .xor => 0b00100
  | .and => 0b01100
  | .or => 0b01000
  | .min => 0b10000
  | .max => 0b10100
  | .minu => 0b11000
  | .maxu => 0b11100

/-- The word that replaces the old one. -/
def result (op : AmoOp) (old y : U32) : U32 :=
  match op with
  | .swap => y
  | .add => old + y
  | .xor => old ^^^ y
  | .and => old &&& y
  | .or => old ||| y
  | .min => if old.toInt ≤ y.toInt then old else y
  | .max => if old.toInt ≤ y.toInt then y else old
  | .minu => if old.toNat ≤ y.toNat then old else y
  | .maxu => if old.toNat ≤ y.toNat then y else old

end AmoOp

/-- The instructions that access the memory; `aq` and `rl` order accesses of other harts. -/
inductive Access where
  | load (op : LoadOp) (rd rs1 : BitVec 5) (imm : BitVec 12)
  | store (op : StoreOp) (rs2 rs1 : BitVec 5) (imm : BitVec 12)
  | amo (op : AmoOp) (aq rl : BitVec 1) (rd rs2 rs1 : BitVec 5)
  deriving DecidableEq

namespace Access

def encode : Access → U32
  | .load op rd rs1 imm => iType imm rs1 op.funct3 rd 0b0000011
  | .store op rs2 rs1 imm => sType imm rs2 rs1 op.funct3 0b0100011
  | .amo op aq rl rd rs2 rs1 => rType (op.funct5 ++ aq ++ rl) rs2 rs1 0b010 rd 0b0101111

/-- The first address. -/
def address (inst : Access) (x : Values) : U32 :=
  match inst with
  | .load _ _ rs1 imm | .store _ _ rs1 imm => x rs1 + imm.signExtend 32
  | .amo _ _ _ _ _ rs1 => x rs1

/-- A load has a destination other than register zero. -/
def HasDestination : Access → Prop
  | .load _ rd _ _ => rd ≠ 0
  | _ => True

end Access

end Access

section ControlStatus

/-- The control and status instructions. -/
inductive CsrOp where
  | csrrw | csrrs | csrrc | csrrwi | csrrsi | csrrci
  deriving DecidableEq

namespace CsrOp

def funct3 : CsrOp → BitVec 3
  | .csrrw => 0b001
  | .csrrs => 0b010
  | .csrrc => 0b011
  | .csrrwi => 0b101
  | .csrrsi => 0b110
  | .csrrci => 0b111

def encode (op : CsrOp) (rd rs1 : BitVec 5) (csr : BitVec 12) : U32 :=
  iType csr rs1 op.funct3 rd 0b1110011

/-- The register `rs1` or, for the immediate forms, its number. -/
def operand (op : CsrOp) (x : U32) (rs1 : BitVec 5) : U32 :=
  match op with
  | .csrrw | .csrrs | .csrrc => x
  | .csrrwi | .csrrsi | .csrrci => rs1.setWidth 32

/-- Setting and clearing bits is no write at all when the field of `rs1` is zero. -/
def Writes (op : CsrOp) (rs1 : BitVec 5) : Prop :=
  match op with
  | .csrrw | .csrrwi => True
  | .csrrs | .csrrc | .csrrsi | .csrrci => rs1 ≠ 0

/-- The value that a write stores. -/
def result (op : CsrOp) (old operand : U32) : U32 :=
  match op with
  | .csrrw | .csrrwi => operand
  | .csrrs | .csrrsi => old ||| operand
  | .csrrc | .csrrci => old &&& ~~~operand

end CsrOp

end ControlStatus

end Embive.Rv32
