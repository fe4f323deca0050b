import Embive.FormatLaws
import Embive.Rv32.Expansion

/-! # The formats lose nothing

Each format that Embive instructions are written in reads the fields that the RISC-V
layout assigns to a word, writes them to payload bits only, and reads them back from
the Embive word whatever stands in the bits outside the payload.
-/

namespace Embive

open Lib

/-- The formats that Embive instructions are written in. -/
inductive EmbiveFormat where
  | typeR
  | typeI
  | typeB
  | typeU
  | typeJ
  | typeCIW
  | typeCL
  | typeCI1
  | typeCI2
  | typeCI3
  | typeCI4
  | typeCI5
  | typeCB1
  | typeCB2
  | typeCB4
  | typeCR
  | typeCS
  | typeCSS
  | typeCJ
  deriving DecidableEq

namespace EmbiveFormat

/-- The type that holds the fields of the format. -/
def Fields : EmbiveFormat → Type
  | .typeR => TypeR
  | .typeI => TypeI
  | .typeB => TypeB
  | .typeU => TypeU
  | .typeJ => TypeJ
  | .typeCIW => TypeCIW
  | .typeCL => TypeCL
  | .typeCI1 => TypeCI1
  | .typeCI2 => TypeCI2
  | .typeCI3 => TypeCI3
  | .typeCI4 => TypeCI4
  | .typeCI5 => TypeCI5
  | .typeCB1 => TypeCB1
  | .typeCB2 => TypeCB2
  | .typeCB4 => TypeCB4
  | .typeCR => TypeCR
  | .typeCS => TypeCS
  | .typeCSS => TypeCSS
  | .typeCJ => TypeCJ

instance : (format : EmbiveFormat) → Format format.Fields
  | .typeR => instFormatTypeR
  | .typeI => instFormatTypeI
  | .typeB => instFormatTypeB
  | .typeU => instFormatTypeU
  | .typeJ => instFormatTypeJ
  | .typeCIW => instFormatTypeCIW
  | .typeCL => instFormatTypeCL
  | .typeCI1 => instFormatTypeCI1
  | .typeCI2 => instFormatTypeCI2
  | .typeCI3 => instFormatTypeCI3
  | .typeCI4 => instFormatTypeCI4
  | .typeCI5 => instFormatTypeCI5
  | .typeCB1 => instFormatTypeCB1
  | .typeCB2 => instFormatTypeCB2
  | .typeCB4 => instFormatTypeCB4
  | .typeCR => instFormatTypeCR
  | .typeCS => instFormatTypeCS
  | .typeCSS => instFormatTypeCSS
  | .typeCJ => instFormatTypeCJ

instance : (format : EmbiveFormat) → LawfulFormat format.Fields
  | .typeR => instLawfulFormatTypeR
  | .typeI => instLawfulFormatTypeI
  | .typeB => instLawfulFormatTypeB
  | .typeU => instLawfulFormatTypeU
  | .typeJ => instLawfulFormatTypeJ
  | .typeCIW => instLawfulFormatTypeCIW
  | .typeCL => instLawfulFormatTypeCL
  | .typeCI1 => instLawfulFormatTypeCI1
  | .typeCI2 => instLawfulFormatTypeCI2
  | .typeCI3 => instLawfulFormatTypeCI3
  | .typeCI4 => instLawfulFormatTypeCI4
  | .typeCI5 => instLawfulFormatTypeCI5
  | .typeCB1 => instLawfulFormatTypeCB1
  | .typeCB2 => instLawfulFormatTypeCB2
  | .typeCB4 => instLawfulFormatTypeCB4
  | .typeCR => instLawfulFormatTypeCR
  | .typeCS => instLawfulFormatTypeCS
  | .typeCSS => instLawfulFormatTypeCSS
  | .typeCJ => instLawfulFormatTypeCJ

open Rv32

/-- The fields of a word in the RISC-V layout of the format: five bits name any
register, three bits one of the registers eight to fifteen, and the immediate is
collected from its bits, scaled and extended. -/
def layout : (format : EmbiveFormat) → U32 → format.Fields
  | .typeR, w =>
    { rd := (w.extractLsb' 7 5).setWidth 8
      rs1 := (w.extractLsb' 15 5).setWidth 8
      rs2 := (w.extractLsb' 20 5).setWidth 8
      func := (w.extractLsb' 25 7 ++ w.extractLsb' 12 3).setWidth 16 : TypeR }
  | .typeI, w =>
    { rdRs2 := (w.extractLsb' 7 5).setWidth 8
      rs1 := (w.extractLsb' 15 5).setWidth 8
      imm := (w.extractLsb' 20 12).signExtend 32
      func := (w.extractLsb' 12 3).setWidth 8 : TypeI }
  | .typeB, w =>
    { rs1 := (w.extractLsb' 15 5).setWidth 8
      rs2 := (w.extractLsb' 20 5).setWidth 8
      imm := (w.extractLsb' 31 1 ++ w.extractLsb' 7 1 ++ w.extractLsb' 25 6 ++
        w.extractLsb' 8 4 ++ 0#1).signExtend 32
      func := (w.extractLsb' 12 3).setWidth 8 : TypeB }
  | .typeU, w =>
    { rd := (w.extractLsb' 7 5).setWidth 8
      imm := w.extractLsb' 12 20 ++ 0#12 : TypeU }
  | .typeJ, w =>
    { rd := (w.extractLsb' 7 5).setWidth 8
      imm := (w.extractLsb' 31 1 ++ w.extractLsb' 12 8 ++ w.extractLsb' 20 1 ++
        w.extractLsb' 21 10 ++ 0#1).signExtend 32 : TypeJ }
  | .typeCIW, w =>
    let c := w.setWidth 16
    { rd := (rdPrime c).setWidth 8, imm := (addi4spnImm c).signExtend 32 : TypeCIW }
  | .typeCL, w =>
    let c := w.setWidth 16
    { rdRs2 := (rdPrime c).setWidth 8
      rs1 := (rs1Prime c).setWidth 8
      imm := (lwImm c).signExtend 32 : TypeCL }
  | .typeCI1, w =>
    let c := w.setWidth 16
    { rdRs1 := (rdFull c).setWidth 8, imm := (imm6 c).signExtend 32 : TypeCI1 }
  | .typeCI2, w =>
    let c := w.setWidth 16
    { rdRs1 := (rdFull c).setWidth 8, imm := (addi16spImm c).signExtend 32 : TypeCI2 }
  | .typeCI3, w =>
    let c := w.setWidth 16
    { rdRs1 := (rdFull c).setWidth 8, imm := (imm6 c).signExtend 20 ++ 0#12 : TypeCI3 }
  | .typeCI4, w =>
    let c := w.setWidth 16
    { rdRs1 := (rdFull c).setWidth 8, imm := (imm6 c).setWidth 32 : TypeCI4 }
  | .typeCI5, w =>
    let c := w.setWidth 16
    { rdRs1 := (rdFull c).setWidth 8, imm := (lwspImm c).signExtend 32 : TypeCI5 }
  | .typeCB1, w =>
    let c := w.setWidth 16
    { rdRs1 := (rs1Prime c).setWidth 8, imm := (imm6 c).setWidth 32 : TypeCB1 }
  | .typeCB2, w =>
    let c := w.setWidth 16
    { rdRs1 := (rs1Prime c).setWidth 8, imm := (imm6 c).signExtend 32 : TypeCB2 }
  | .typeCB4, w =>
    let c := w.setWidth 16
    { rs1 := (rs1Prime c).setWidth 8, imm := (branchOffset c ++ 0#1).signExtend 32 : TypeCB4 }
  | .typeCR, w =>
    let c := w.setWidth 16
    { rdRs1 := (rdFull c).setWidth 8, rs2 := (rs2Full c).setWidth 8 : TypeCR }
  | .typeCS, w =>
    let c := w.setWidth 16
    { rdRs1 := (rs1Prime c).setWidth 8, rs2 := (rdPrime c).setWidth 8 : TypeCS }
  | .typeCSS, w =>
    let c := w.setWidth 16
    { rs2 := (rs2Full c).setWidth 8, imm := (swspImm c).signExtend 32 : TypeCSS }
  | .typeCJ, w => { imm := (jumpOffset (w.setWidth 16) ++ 0#1).signExtend 32 : TypeCJ }

theorem fromRiscv_eq_layout (format : EmbiveFormat) (w : U32) :
    Format.fromRiscv w = format.layout w := by
  cases format with
  | typeR => exact typeR_fields w
  | typeI => exact typeI_fields w
  | typeB => exact typeB_fields w
  | typeU => exact typeU_fields w
  | typeJ => exact typeJ_fields w
  | typeCIW => exact typeCIW_fields w
  | typeCL => exact typeCL_fields w
  | typeCI1 => exact typeCI1_fields w
  | typeCI2 => exact typeCI2_fields w
  | typeCI3 => exact typeCI3_fields w
  | typeCI4 => exact typeCI4_fields w
  | typeCI5 => exact typeCI5_fields w
  | typeCB1 => exact typeCB1_fields w
  | typeCB2 => exact typeCB2_fields w
  | typeCB4 => exact typeCB4_fields w
  | typeCR => exact typeCR_fields w
  | typeCS => exact typeCS_fields w
  | typeCSS => exact typeCSS_fields w
  | typeCJ => exact typeCJ_fields w

/-- What is read from a RISC-V word is written to payload bits only. -/
theorem toEmbive_fromRiscv_payload (format : EmbiveFormat) (w : U32) :
    Format.toEmbive (Format.fromRiscv w : format.Fields) &&&
      ~~~(Format.size format.Fields).payload = 0 := by
  cases format with
  | typeR | typeI | typeB | typeU | typeJ => exact LawfulFormat.toEmbive_opcode _
  | typeCIW | typeCL | typeCI1 | typeCI2 | typeCI3 | typeCI4 | typeCI5 | typeCB4 | typeCR
  | typeCSS | typeCJ =>
    simp only [Format.toEmbive, Format.fromRiscv, BitVec.add_sub_cancel, Format.size, Size.payload]
    revert w
    exact OrLinear.eq_of_oneBit (by fun_prop) (by fun_prop) (by decide)
  | typeCB1 | typeCB2 | typeCS =>
    simp only [Format.toEmbive, Format.fromRiscv, compressedField_eq_or, Format.size,
      Size.payload]
    generalize compressedRegisterOffset = offset
    revert w offset
    exact OrLinear.eq_of_oneBit₂ (by fun_prop) (by fun_prop) (by decide)

/-- Bits outside the payload are not read. -/
theorem fromEmbive_or_outside {F : Type} [Format F] [LawfulFormat F] (x noise : U32) :
    (Format.fromEmbive (x ||| (noise &&& ~~~(Format.size F).payload)) : F) =
      Format.fromEmbive x := by
  have hsame : (x ||| (noise &&& ~~~(Format.size F).payload)) &&& (Format.size F).payload =
      x &&& (Format.size F).payload := by
    ext i hi
    simp only [BitVec.getElem_and, BitVec.getElem_or, BitVec.getElem_not]
    cases (Format.size F).payload[i] <;> simp
  rw [← LawfulFormat.fromEmbive_payload, hsame, LawfulFormat.fromEmbive_payload]

/-- Every word is read in every format as the fields of the RISC-V layout, these are
written to payload bits only, and they are read back whatever the other bits are. -/
theorem loses_nothing (format : EmbiveFormat) (w : U32) :
    Format.fromRiscv w = format.layout w ∧
    Format.toEmbive (Format.fromRiscv w : format.Fields) &&&
      ~~~(Format.size format.Fields).payload = 0 ∧
    ∀ noise : U32,
      (Format.fromEmbive (Format.toEmbive (Format.fromRiscv w : format.Fields) |||
        (noise &&& ~~~(Format.size format.Fields).payload)) : format.Fields) =
          Format.fromRiscv w := by
  refine ⟨format.fromRiscv_eq_layout w, format.toEmbive_fromRiscv_payload w, ?_⟩
  intro noise
  rw [fromEmbive_or_outside]
  exact LawfulFormat.fits_fromRiscv w

end EmbiveFormat

end Embive
