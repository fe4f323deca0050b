import Embive.Basic

/-! # RISC-V and Embive instruction formats

Each format is read from a RISC-V word, read from an Embive word, and written as
an Embive word. The masks and shifts are those of the source.
-/

namespace Embive

def compressedRegisterOffset : U8 := 8

/-- Instruction Format Trait. -/
class Format (F : Type) where
  size : Size
  fromRiscv : U32 → F
  fromEmbive : U32 → F
  toEmbive : F → U32

/-- R-Type Instruction Format. -/
@[ext]
structure TypeR where
  rd : U8
  rs1 : U8
  rs2 : U8
  func : U16
  deriving DecidableEq

instance : Format TypeR where
  size := .word
  fromRiscv inst :=
    { rd := ((inst >>> 7) &&& 0b1_1111).setWidth 8
      rs1 := ((inst >>> 15) &&& 0b1_1111).setWidth 8
      rs2 := ((inst >>> 20) &&& 0b1_1111).setWidth 8
      func := (((inst >>> 22) &&& (0b111_1111 <<< 3)) ||| ((inst >>> 12) &&& 0b111)).setWidth 16 }
  fromEmbive inst :=
    { rd := ((inst >>> 17) &&& 0b1_1111).setWidth 8
      rs1 := ((inst >>> 22) &&& 0b1_1111).setWidth 8
      rs2 := ((inst >>> 27) &&& 0b1_1111).setWidth 8
      func := ((inst >>> 7) &&& 0b11_1111_1111).setWidth 16 }
  toEmbive self :=
    (self.rd.setWidth 32 <<< 17) ||| (self.rs1.setWidth 32 <<< 22) |||
      (self.rs2.setWidth 32 <<< 27) ||| (self.func.setWidth 32 <<< 7)

/-- I-Type Instruction Format. -/
@[ext]
structure TypeI where
  rdRs2 : U8
  rs1 : U8
  imm : I32
  func : U8
  deriving DecidableEq

instance : Format TypeI where
  size := .word
  fromRiscv inst :=
    { rdRs2 := ((inst >>> 7) &&& 0b1_1111).setWidth 8
      func := ((inst >>> 12) &&& 0b111).setWidth 8
      rs1 := ((inst >>> 15) &&& 0b1_1111).setWidth 8
      imm := (inst &&& (0b1111_1111_1111 <<< 20)).sshiftRight 20 }
  fromEmbive inst :=
    { rdRs2 := ((inst >>> 10) &&& 0b1_1111).setWidth 8
      func := ((inst >>> 7) &&& 0b111).setWidth 8
      rs1 := ((inst >>> 15) &&& 0b1_1111).setWidth 8
      imm := (inst &&& (0b1111_1111_1111 <<< 20)).sshiftRight 20 }
  toEmbive self :=
    (self.rdRs2.setWidth 32 <<< 10) ||| (self.func.setWidth 32 <<< 7) |||
      (self.rs1.setWidth 32 <<< 15) ||| ((self.imm &&& 0b1111_1111_1111) <<< 20)

/-- S-Type Instruction Format (RISC-V only, this is converted to `TypeI`). -/
@[ext]
structure TypeS where
  rs1 : U8
  rs2 : U8
  imm : I32
  func : U8
  deriving DecidableEq

instance : Format TypeS where
  size := .word
  fromRiscv inst :=
    { imm := ((inst &&& (0b111_1111 <<< 25)) |||
        ((inst &&& (0b1_1111 <<< 7)) <<< 13)).sshiftRight 20
      func := ((inst >>> 12) &&& 0b111).setWidth 8
      rs1 := ((inst >>> 15) &&& 0b1_1111).setWidth 8
      rs2 := ((inst >>> 20) &&& 0b1_1111).setWidth 8 }
  fromEmbive inst :=
    { imm := (inst &&& (0b1111_1111_1111 <<< 20)).sshiftRight 20
      func := ((inst >>> 7) &&& 0b111).setWidth 8
      rs2 := ((inst >>> 10) &&& 0b1_1111).setWidth 8
      rs1 := ((inst >>> 15) &&& 0b1_1111).setWidth 8 }
  toEmbive self :=
    (self.imm <<< 20) ||| (self.func.setWidth 32 <<< 7) |||
      (self.rs2.setWidth 32 <<< 10) ||| (self.rs1.setWidth 32 <<< 15)

/-- B-Type Instruction Format. -/
@[ext]
structure TypeB where
  rs1 : U8
  rs2 : U8
  imm : I32
  func : U8
  deriving DecidableEq

instance : Format TypeB where
  size := .word
  fromRiscv inst :=
    { imm := ((inst &&& (0b1 <<< 31)) ||| ((inst &&& (0b1 <<< 7)) <<< 23) |||
        ((inst &&& (0b11_1111 <<< 25)) >>> 1) |||
        ((inst &&& (0b1111 <<< 8)) <<< 12)).sshiftRight 19
      func := ((inst >>> 12) &&& 0b111).setWidth 8
      rs1 := ((inst >>> 15) &&& 0b1_1111).setWidth 8
      rs2 := ((inst >>> 20) &&& 0b1_1111).setWidth 8 }
  fromEmbive inst :=
    { imm := (inst &&& (0b1111_1111_1111 <<< 20)).sshiftRight 19
      func := ((inst >>> 7) &&& 0b111).setWidth 8
      rs1 := ((inst >>> 10) &&& 0b1_1111).setWidth 8
      rs2 := ((inst >>> 15) &&& 0b1_1111).setWidth 8 }
  toEmbive self :=
    (self.imm <<< 19) ||| (self.func.setWidth 32 <<< 7) |||
      (self.rs1.setWidth 32 <<< 10) ||| (self.rs2.setWidth 32 <<< 15)

/-- U-Type Instruction Format. -/
structure TypeU where
  rd : U8
  imm : I32
  deriving DecidableEq

/-- The Embive word has the RISC-V layout. -/
def TypeU.fromRiscv (inst : U32) : TypeU where
  rd := ((inst >>> 7) &&& 0b1_1111).setWidth 8
  imm := inst &&& (0b1111_1111_1111_1111_1111 <<< 12)

instance : Format TypeU where
  size := .word
  fromRiscv := TypeU.fromRiscv
  fromEmbive inst := TypeU.fromRiscv inst
  toEmbive self :=
    (self.rd.setWidth 32 <<< 7) ||| (self.imm &&& (0b1111_1111_1111_1111_1111 <<< 12))

/-- J-Type Instruction Format. -/
structure TypeJ where
  rd : U8
  imm : I32
  deriving DecidableEq

instance : Format TypeJ where
  size := .word
  fromRiscv inst :=
    { rd := ((inst >>> 7) &&& 0b1_1111).setWidth 8
      imm := ((inst &&& (0b1 <<< 31)) ||| ((inst &&& (0b1111_1111 <<< 12)) <<< 11) |||
        ((inst &&& (0b1 <<< 20)) <<< 2) |||
        ((inst &&& (0b11_1111_1111 <<< 21)) >>> 9)).sshiftRight 11 }
  fromEmbive inst :=
    { rd := ((inst >>> 7) &&& 0b1_1111).setWidth 8
      imm := (inst &&& (0b1111_1111_1111_1111_1111 <<< 12)).sshiftRight 11 }
  toEmbive self := (self.rd.setWidth 32 <<< 7) ||| (self.imm <<< 11)

/-- CIW Format. -/
structure TypeCIW where
  rd : U8
  imm : I32
  deriving DecidableEq

instance : Format TypeCIW where
  size := .half
  fromRiscv inst :=
    { rd := ((inst >>> 2) &&& 0b111).setWidth 8 + compressedRegisterOffset
      imm := ((inst &&& (0b1 <<< 6)) >>> 4) ||| ((inst &&& (0b1 <<< 5)) >>> 2) |||
        ((inst &&& (0b11 <<< 11)) >>> 7) ||| ((inst &&& (0b1111 <<< 7)) >>> 1) }
  fromEmbive inst :=
    { rd := ((inst >>> 5) &&& 0b111).setWidth 8 + compressedRegisterOffset
      imm := (inst &&& (0b1111_1111 <<< 8)) >>> 6 }
  toEmbive self :=
    ((self.rd - compressedRegisterOffset).setWidth 32 <<< 5) |||
      ((self.imm <<< 6) &&& (0b1111_1111 <<< 8))

/-- CL Format. -/
structure TypeCL where
  rdRs2 : U8
  rs1 : U8
  imm : I32
  deriving DecidableEq

instance : Format TypeCL where
  size := .half
  fromRiscv inst :=
    { rdRs2 := ((inst >>> 2) &&& 0b111).setWidth 8 + compressedRegisterOffset
      rs1 := ((inst >>> 7) &&& 0b111).setWidth 8 + compressedRegisterOffset
      imm := ((inst &&& (0b1 <<< 5)) <<< 1) ||| ((inst &&& (0b111 <<< 10)) >>> 7) |||
        ((inst &&& (0b1 <<< 6)) >>> 4) }
  fromEmbive inst :=
    { rdRs2 := ((inst >>> 5) &&& 0b111).setWidth 8 + compressedRegisterOffset
      rs1 := ((inst >>> 8) &&& 0b111).setWidth 8 + compressedRegisterOffset
      imm := (inst &&& (0b1_1111 <<< 11)) >>> 9 }
  toEmbive self :=
    ((self.rdRs2 - compressedRegisterOffset).setWidth 32 <<< 5) |||
      ((self.rs1 - compressedRegisterOffset).setWidth 32 <<< 8) ||| (self.imm <<< 9)

/-- CI Format 1 (IMM[5:0]). -/
structure TypeCI1 where
  rdRs1 : U8
  imm : I32
  deriving DecidableEq

instance : Format TypeCI1 where
  size := .half
  fromRiscv inst :=
    { rdRs1 := ((inst >>> 7) &&& 0b1_1111).setWidth 8
      imm := ((((inst &&& (0b1_1111 <<< 2)) |||
        ((inst &&& (0b1 <<< 12)) >>> 5)).setWidth 8).sshiftRight 2).signExtend 32 }
  fromEmbive inst :=
    { rdRs1 := ((inst >>> 5) &&& 0b1_1111).setWidth 8
      imm := (((inst &&& (0b11_1111 <<< 10)).setWidth 16).sshiftRight 10).signExtend 32 }
  toEmbive self :=
    (self.rdRs1.setWidth 32 <<< 5) ||| ((self.imm <<< 10) &&& (0b11_1111 <<< 10))

/-- CI Format 2 (IMM[9:4]). -/
structure TypeCI2 where
  rdRs1 : U8
  imm : I32
  deriving DecidableEq

instance : Format TypeCI2 where
  size := .half
  fromRiscv inst :=
    { rdRs1 := ((inst >>> 7) &&& 0b1_1111).setWidth 8
      imm := ((((inst &&& (0b1 <<< 12)) >>> 5) ||| ((inst &&& (0b11 <<< 3)) <<< 2) |||
        ((inst &&& (0b1 <<< 5)) >>> 1) ||| ((inst &&& (0b1 <<< 2)) <<< 1) |||
        ((inst &&& (0b1 <<< 6)) >>> 4)).setWidth 8).signExtend 32 <<< 2 }
  fromEmbive inst :=
    { rdRs1 := ((inst >>> 5) &&& 0b1_1111).setWidth 8
      imm := (((inst &&& (0b11_1111 <<< 10)).setWidth 16).sshiftRight 6).signExtend 32 }
  toEmbive self :=
    (self.rdRs1.setWidth 32 <<< 5) ||| ((self.imm <<< 6) &&& (0b11_1111 <<< 10))

/-- CI Format 3 (IMM[17:12]). -/
structure TypeCI3 where
  rdRs1 : U8
  imm : I32
  deriving DecidableEq

instance : Format TypeCI3 where
  size := .half
  fromRiscv inst :=
    { rdRs1 := ((inst >>> 7) &&& 0b1_1111).setWidth 8
      imm := (((inst &&& (0b1_1111 <<< 2)) |||
        ((inst &&& (0b1 <<< 12)) >>> 5)).setWidth 8).signExtend 32 <<< 10 }
  fromEmbive inst :=
    { rdRs1 := ((inst >>> 5) &&& 0b1_1111).setWidth 8
      imm := ((inst &&& (0b11_1111 <<< 10)).setWidth 16).signExtend 32 <<< 2 }
  toEmbive self :=
    (self.rdRs1.setWidth 32 <<< 5) ||| ((self.imm >>> 2) &&& (0b11_1111 <<< 10))

/-- CI Format 4 (UIMM[5:0]). -/
structure TypeCI4 where
  rdRs1 : U8
  imm : I32
  deriving DecidableEq

instance : Format TypeCI4 where
  size := .half
  fromRiscv inst :=
    { rdRs1 := ((inst >>> 7) &&& 0b1_1111).setWidth 8
      imm := ((inst &&& (0b1_1111 <<< 2)) ||| ((inst &&& (0b1 <<< 12)) >>> 5)) >>> 2 }
  fromEmbive inst :=
    { rdRs1 := ((inst >>> 5) &&& 0b1_1111).setWidth 8
      imm := (inst &&& (0b11_1111 <<< 10)) >>> 10 }
  toEmbive self := (self.rdRs1.setWidth 32 <<< 5) ||| (self.imm <<< 10)

/-- CI Format 5 (UIMM[7:2]). -/
structure TypeCI5 where
  rdRs1 : U8
  imm : I32
  deriving DecidableEq

instance : Format TypeCI5 where
  size := .half
  fromRiscv inst :=
    { rdRs1 := ((inst >>> 7) &&& 0b1_1111).setWidth 8
      imm := (((inst &&& (0b11 <<< 2)) <<< 11) ||| (inst &&& (0b1 <<< 12)) |||
        ((inst &&& (0b111 <<< 4)) <<< 5)).sshiftRight 7 }
  fromEmbive inst :=
    { rdRs1 := ((inst >>> 5) &&& 0b1_1111).setWidth 8
      imm := (inst &&& (0b11_1111 <<< 10)) >>> 8 }
  toEmbive self := (self.rdRs1.setWidth 32 <<< 5) ||| (self.imm <<< 8)

/-- CB Format 1 (UIMM[5:0]). -/
structure TypeCB1 where
  rdRs1 : U8
  imm : I32
  deriving DecidableEq

instance : Format TypeCB1 where
  size := .half
  fromRiscv inst :=
    { rdRs1 := ((inst >>> 7) &&& 0b111).setWidth 8 + compressedRegisterOffset
      imm := ((inst &&& (0b1_1111 <<< 2)) ||| ((inst &&& (0b1 <<< 12)) >>> 5)) >>> 2 }
  fromEmbive inst :=
    { rdRs1 := ((inst >>> 5) &&& 0b1_1111).setWidth 8
      imm := (inst &&& (0b11_1111 <<< 10)) >>> 10 }
  toEmbive self := (self.rdRs1.setWidth 32 <<< 5) ||| (self.imm <<< 10)

/-- CB Format 2 (IMM[5:0]). -/
structure TypeCB2 where
  rdRs1 : U8
  imm : I32
  deriving DecidableEq

instance : Format TypeCB2 where
  size := .half
  fromRiscv inst :=
    { rdRs1 := ((inst >>> 7) &&& 0b111).setWidth 8 + compressedRegisterOffset
      imm := ((((inst &&& (0b1_1111 <<< 2)) |||
        ((inst &&& (0b1 <<< 12)) >>> 5)).setWidth 8).sshiftRight 2).signExtend 32 }
  fromEmbive inst :=
    { rdRs1 := ((inst >>> 5) &&& 0b1_1111).setWidth 8
      imm := (((inst &&& (0b11_1111 <<< 10)).setWidth 16).sshiftRight 10).signExtend 32 }
  toEmbive self :=
    (self.rdRs1.setWidth 32 <<< 5) ||| ((self.imm <<< 10) &&& (0b11_1111 <<< 10))

/-- CB Format 4 (IMM[8:1]). -/
structure TypeCB4 where
  rs1 : U8
  imm : I32
  deriving DecidableEq

instance : Format TypeCB4 where
  size := .half
  fromRiscv inst :=
    { rs1 := ((inst >>> 7) &&& 0b111).setWidth 8 + compressedRegisterOffset
      imm := ((((inst &&& (0b1 <<< 12)) >>> 5) ||| (inst &&& (0b11 <<< 5)) |||
        ((inst &&& (0b1 <<< 2)) <<< 2) ||| ((inst &&& (0b11 <<< 10)) >>> 8) |||
        ((inst &&& (0b11 <<< 3)) >>> 3)).setWidth 8).signExtend 32 <<< 1 }
  fromEmbive inst :=
    { rs1 := ((inst >>> 5) &&& 0b111).setWidth 8 + compressedRegisterOffset
      imm := (((inst &&& (0b1111_1111 <<< 8)).setWidth 16).sshiftRight 7).signExtend 32 }
  toEmbive self :=
    ((self.rs1 - compressedRegisterOffset).setWidth 32 <<< 5) |||
      ((self.imm <<< 7) &&& (0b1111_1111 <<< 8))

/-- CR Format. -/
structure TypeCR where
  rdRs1 : U8
  rs2 : U8
  deriving DecidableEq

instance : Format TypeCR where
  size := .half
  fromRiscv inst :=
    { rdRs1 := ((inst >>> 7) &&& 0b1_1111).setWidth 8
      rs2 := ((inst >>> 2) &&& 0b1_1111).setWidth 8 }
  fromEmbive inst :=
    { rdRs1 := ((inst >>> 5) &&& 0b1_1111).setWidth 8
      rs2 := ((inst >>> 10) &&& 0b1_1111).setWidth 8 }
  toEmbive self := (self.rdRs1.setWidth 32 <<< 5) ||| (self.rs2.setWidth 32 <<< 10)

/-- CS Format. -/
structure TypeCS where
  rdRs1 : U8
  rs2 : U8
  deriving DecidableEq

instance : Format TypeCS where
  size := .half
  fromRiscv inst :=
    { rdRs1 := ((inst >>> 7) &&& 0b111).setWidth 8 + compressedRegisterOffset
      rs2 := ((inst >>> 2) &&& 0b111).setWidth 8 + compressedRegisterOffset }
  fromEmbive inst :=
    { rdRs1 := ((inst >>> 5) &&& 0b1_1111).setWidth 8
      rs2 := ((inst >>> 10) &&& 0b1_1111).setWidth 8 }
  toEmbive self := (self.rdRs1.setWidth 32 <<< 5) ||| (self.rs2.setWidth 32 <<< 10)

/-- CSS Format. -/
structure TypeCSS where
  rs2 : U8
  imm : I32
  deriving DecidableEq

instance : Format TypeCSS where
  size := .half
  fromRiscv inst :=
    { rs2 := ((inst >>> 2) &&& 0b1_1111).setWidth 8
      imm := ((inst &&& (0b11 <<< 7)) ||| ((inst &&& (0b1111 <<< 9)) >>> 6)) >>> 1 }
  fromEmbive inst :=
    { rs2 := ((inst >>> 5) &&& 0b1_1111).setWidth 8
      imm := (inst &&& (0b11_1111 <<< 10)) >>> 8 }
  toEmbive self := (self.rs2.setWidth 32 <<< 5) ||| (self.imm <<< 8)

/-- CJ Format. -/
structure TypeCJ where
  imm : I32
  deriving DecidableEq

instance : Format TypeCJ where
  size := .half
  fromRiscv inst :=
    { imm := ((((inst &&& (0b1 <<< 12)) <<< 3) ||| ((inst &&& (0b1 <<< 8)) <<< 6) |||
        ((inst &&& (0b11 <<< 9)) <<< 3) ||| ((inst &&& (0b1 <<< 6)) <<< 5) |||
        ((inst &&& (0b1 <<< 7)) <<< 3) ||| ((inst &&& (0b1 <<< 2)) <<< 7) |||
        ((inst &&& (0b1 <<< 11)) >>> 3) |||
        ((inst &&& (0b111 <<< 3)) <<< 2)).setWidth 16).signExtend 32 |>.sshiftRight 4 }
  fromEmbive inst :=
    { imm := (((inst &&& (0b111_1111_1111 <<< 5)).setWidth 16).sshiftRight 4).signExtend 32 }
  toEmbive self := (self.imm <<< 4) &&& (0b111_1111_1111 <<< 5)

end Embive
