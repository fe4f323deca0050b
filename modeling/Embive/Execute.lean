import Embive.Execute.Compressed

/-! # Decoding and executing an instruction word -/

namespace Embive

open Interpreter

variable {M : Type} [Memory M]

/-- Execute the instruction as one that is `size` bytes long. -/
def Decoded.executeSized (size : U32) : Decoded → Exec M State
  | .cAddi4spn data => CAddi4spn.execute data size
  | .cLw data => CLw.execute data size
  | .cSw data => CSw.execute data size
  | .cAddi data => CAddi.execute data size
  | .cJal data => CJal.execute data size
  | .cLi data => CLi.execute data size
  | .cAddi16sp data => CAddi16sp.execute data size
  | .cLui data => CLui.execute data size
  | .cSrli data => CSrli.execute data size
  | .cSrai data => CSrai.execute data size
  | .cAndi data => CAndi.execute data size
  | .cSub data => CSub.execute data size
  | .cXor data => CXor.execute data size
  | .cOr data => COr.execute data size
  | .cAnd data => CAnd.execute data size
  | .cJ data => CJ.execute data
  | .cBeqz data => CBeqz.execute data size
  | .cBnez data => CBnez.execute data size
  | .cSlli data => CSlli.execute data size
  | .cLwsp data => CLwsp.execute data size
  | .cJrMv data => CJrMv.execute data size
  | .cEbreakJalrAdd data => CEbreakJalrAdd.execute data size
  | .cSwsp data => CSwsp.execute data size
  | .auipc data => Auipc.execute data size
  | .branch data => Branch.execute data size
  | .jal data => Jal.execute data size
  | .jalr data => Jalr.execute data size
  | .loadStore data => LoadStore.execute data size
  | .lui data => Lui.execute data size
  | .opImm data => OpImm.execute data size
  | .opAmo data => OpAmo.execute data size
  | .systemMiscMem data => SystemMiscMem.execute data size

/-- Execute the instruction, which has the size of its format. -/
def Decoded.execute (inst : Decoded) : Exec M State := inst.executeSized inst.size.toU32

/-- Decode and execute an instruction word, its size given by the caller. -/
def decodeExecuteSized (size : U32) (data : U32) : Exec M State := do
  match decodeInstruction data with
  | some inst => inst.executeSized size
  | none => throw (.invalidInstruction (← getPc))

/-- Decode and execute an instruction word. -/
def decodeExecute (data : U32) : Exec M State := do
  match decodeInstruction data with
  | some inst => inst.execute
  | none => throw (.invalidInstruction (← getPc))

end Embive
