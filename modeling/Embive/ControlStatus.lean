import Embive.Registers
import Embive.Lib.OrLinear

/-! # The control and status registers as an address map

Each supported address is a register of fixed value or one with a mask of bits that can
be written. A writable register is a part of the state with a reading and a writing that
obey the mask, and an operation changes the map at its own address only.
-/

namespace Embive

namespace CSRegisters

/-- The stored registers keep to their masks. -/
structure Masked (cs : CSRegisters) : Prop where
  mstatus : cs.mstatus &&& ~~~mstatusMask = 0
  mtvec : cs.mtvec &&& mtvecMode = 0
  mepc : cs.mepc &&& mepcBit0 = 0

theorem masked_default : default.Masked := by
  constructor <;> decide

/-- What a read of each address returns, where the address is supported. -/
def view (cs : CSRegisters) : U16 → Option U32 := fun addr =>
  match cs.operation none addr with
  | .ok (value, _) => some value
  | .error _ => none

end CSRegisters

/-- A supported register: its value is fixed, or these bits can be written. -/
inductive CsrField where
  | fixed (value : U32)
  | writable (mask : U32)
  deriving DecidableEq

/-- What the register reads after this value is written. -/
def CsrField.after (field : CsrField) (x : U32) : U32 :=
  match field with
  | .fixed value => value
  | .writable mask => mask &&& x

/-- The address map. -/
def csrField (addr : U16) : Option CsrField :=
  if addr = mstatusAddr then some (.writable 0x00000088)
  else if addr = misaAddr then some (.fixed 0x40001101)
  else if addr = mieAddr then some (.writable 0x00010000)
  else if addr = mtvecAddr then some (.writable 0xFFFFFFFC)
  else if addr = mstatushAddr then some (.fixed 0)
  else if mcountinhibitAddr ≤ addr ∧ addr ≤ mhpmevent31hAddr then some (.fixed 0)
  else if addr = mscratchAddr then some (.writable 0xFFFFFFFF)
  else if addr = mepcAddr then some (.writable 0xFFFFFFFE)
  else if addr = mcauseAddr then some (.writable 0xFFFFFFFF)
  else if addr = mtvalAddr then some (.writable 0xFFFFFFFF)
  else if addr = mipAddr then some (.writable 0x00010000)
  else if mcycleAddr ≤ addr ∧ addr ≤ mhpmcounter31hAddr then some (.fixed 0)
  else if mvendoridAddr ≤ addr ∧ addr ≤ mconfigptrAddr then some (.fixed 0)
  else none

/-- The register at an address is a part of the state that is read and written through a
mask. -/
structure IsRegister (addr : U16) (mask : U32) (get : CSRegisters → U32)
    (set : CSRegisters → U32 → CSRegisters) : Prop where
  operation : ∀ (cs : CSRegisters) op,
    cs.operation op addr = .ok (get cs, set cs (executeOperation op (get cs)))
  get_set : ∀ (cs : CSRegisters) x, get (set cs x) = mask &&& x
  set_get : ∀ cs : CSRegisters, cs.Masked → set cs (get cs) = cs
  masked_set : ∀ (cs : CSRegisters) x, cs.Masked → (set cs x).Masked

section Flags

/-- The interrupt bit of a word. -/
theorem flagBit_test (x : U32) :
    CSRegisters.flagBit ((x &&& miEPMask) != 0) = 0x00010000 &&& x := by
  have hmask : miEPMask = BitVec.twoPow 32 16 := rfl
  have hbit : (0x00010000 : U32) = BitVec.twoPow 32 16 := rfl
  rw [hbit, BitVec.and_comm (BitVec.twoPow 32 16), hmask, BitVec.and_twoPow]
  cases x.getLsbD 16 <;> rfl

theorem test_flagBit (flag : Bool) :
    ((CSRegisters.flagBit flag &&& miEPMask) != 0) = flag := by
  cases flag <;> rfl

end Flags

section Masks

open Lib

/-- Clearing the bits of a mask leaves a word without them alone. -/
theorem and_not_of_and {w : ℕ} {x c : BitVec w} (h : x &&& c = 0) : x &&& ~~~c = x := by
  ext i hi
  have hbit := congrArg (fun y : BitVec w => y[i]) h
  simp only [BitVec.getElem_and, BitVec.ofNat_eq_ofNat, BitVec.getElem_zero] at hbit
  simp only [BitVec.getElem_and, BitVec.getElem_not]
  cases hx : x[i] with
  | false => rfl
  | true =>
    rw [hx, Bool.true_and] at hbit
    rw [hbit]
    rfl

theorem and_not_and {w : ℕ} (x c : BitVec w) : x &&& ~~~c &&& c = 0 := by
  ext i hi
  simp

theorem mstatus_after (x : U32) :
    (x.setWidth 8 &&& mstatusMask).setWidth 32 = 0x00000088 &&& x := by
  rw [BitVec.and_comm (0x00000088 : U32)]
  revert x
  exact OrLinear.eq_of_oneBit (by fun_prop) (by fun_prop) (by decide)

end Masks

section Parts

theorem isRegister_mstatus : IsRegister mstatusAddr 0x00000088
    (fun cs => cs.mstatus.setWidth 32)
    (fun cs x => { cs with mstatus := x.setWidth 8 &&& mstatusMask }) where
  operation _ _ := rfl
  get_set _ x := mstatus_after x
  set_get cs h := by
    have hlow : (cs.mstatus.setWidth 32).setWidth 8 = cs.mstatus := by
      rw [BitVec.setWidth_setWidth_of_le _ (by decide), BitVec.setWidth_eq]
    have hmask := and_not_of_and h.mstatus
    rw [BitVec.not_not] at hmask
    simp only [hlow, hmask]
  masked_set _ x h := by
    have hmask := and_not_and (x.setWidth 8) (~~~mstatusMask)
    rw [BitVec.not_not] at hmask
    exact ⟨hmask, h.mtvec, h.mepc⟩

theorem isRegister_mie : IsRegister mieAddr 0x00010000
    (fun cs => CSRegisters.flagBit cs.mieEmbive)
    (fun cs x => { cs with mieEmbive := (x &&& miEPMask) != 0 }) where
  operation _ _ := rfl
  get_set _ x := flagBit_test x
  set_get _ _ := by simp only [test_flagBit]
  masked_set _ _ h := ⟨h.mstatus, h.mtvec, h.mepc⟩

theorem isRegister_mtvec : IsRegister mtvecAddr 0xFFFFFFFC (fun cs => cs.mtvec)
    (fun cs x => { cs with mtvec := x &&& ~~~mtvecMode }) where
  operation _ _ := rfl
  get_set _ x := BitVec.and_comm x _
  set_get _ h := by simp only [and_not_of_and h.mtvec]
  masked_set _ x h := ⟨h.mstatus, and_not_and x mtvecMode, h.mepc⟩

theorem isRegister_mscratch : IsRegister mscratchAddr 0xFFFFFFFF (fun cs => cs.mscratch)
    (fun cs x => { cs with mscratch := x }) where
  operation _ _ := rfl
  get_set _ _ := BitVec.allOnes_and.symm
  set_get _ _ := rfl
  masked_set _ _ h := ⟨h.mstatus, h.mtvec, h.mepc⟩

theorem isRegister_mepc : IsRegister mepcAddr 0xFFFFFFFE (fun cs => cs.mepc)
    (fun cs x => { cs with mepc := x &&& ~~~mepcBit0 }) where
  operation _ _ := rfl
  get_set _ x := BitVec.and_comm x _
  set_get _ h := by simp only [and_not_of_and h.mepc]
  masked_set _ x h := ⟨h.mstatus, h.mtvec, and_not_and x mepcBit0⟩

theorem isRegister_mcause : IsRegister mcauseAddr 0xFFFFFFFF (fun cs => cs.mcause)
    (fun cs x => { cs with mcause := x }) where
  operation _ _ := rfl
  get_set _ _ := BitVec.allOnes_and.symm
  set_get _ _ := rfl
  masked_set _ _ h := ⟨h.mstatus, h.mtvec, h.mepc⟩

theorem isRegister_mtval : IsRegister mtvalAddr 0xFFFFFFFF (fun cs => cs.mtval)
    (fun cs x => { cs with mtval := x }) where
  operation _ _ := rfl
  get_set _ _ := BitVec.allOnes_and.symm
  set_get _ _ := rfl
  masked_set _ _ h := ⟨h.mstatus, h.mtvec, h.mepc⟩

theorem isRegister_mip : IsRegister mipAddr 0x00010000
    (fun cs => CSRegisters.flagBit cs.mipEmbive)
    (fun cs x => { cs with mipEmbive := (x &&& miEPMask) != 0 }) where
  operation _ _ := rfl
  get_set _ x := flagBit_test x
  set_get _ _ := by simp only [test_flagBit]
  masked_set _ _ h := ⟨h.mstatus, h.mtvec, h.mepc⟩

end Parts

/-- What the methods do at an address that the map describes so. -/
def MeetsField (addr : U16) : Option CsrField → Prop
  | none => ∀ (cs : CSRegisters) op, cs.operation op addr = .error (.invalidCSRegister addr)
  | some (.fixed value) => ∀ (cs : CSRegisters) op, cs.operation op addr = .ok (value, cs)
  | some (.writable mask) => ∃ get set, IsRegister addr mask get set

/-- The methods follow the address map. -/
theorem meets_csrField (addr : U16) : MeetsField addr (csrField addr) := by
  unfold csrField
  by_cases hmstatus : addr = mstatusAddr
  · rw [if_pos hmstatus, hmstatus]
    exact ⟨_, _, isRegister_mstatus⟩
  rw [if_neg hmstatus]
  by_cases hmisa : addr = misaAddr
  · rw [if_pos hmisa, hmisa]
    exact fun _ _ => rfl
  rw [if_neg hmisa]
  by_cases hmie : addr = mieAddr
  · rw [if_pos hmie, hmie]
    exact ⟨_, _, isRegister_mie⟩
  rw [if_neg hmie]
  by_cases hmtvec : addr = mtvecAddr
  · rw [if_pos hmtvec, hmtvec]
    exact ⟨_, _, isRegister_mtvec⟩
  rw [if_neg hmtvec]
  by_cases hmstatush : addr = mstatushAddr
  · rw [if_pos hmstatush, hmstatush]
    exact fun _ _ => rfl
  rw [if_neg hmstatush]
  by_cases hevents : mcountinhibitAddr ≤ addr ∧ addr ≤ mhpmevent31hAddr
  · rw [if_pos hevents]
    intro cs op
    rw [CSRegisters.operation, if_neg hmstatus, if_neg hmisa, if_neg hmie, if_neg hmtvec,
      if_neg hmstatush, if_pos hevents]
  rw [if_neg hevents]
  by_cases hmscratch : addr = mscratchAddr
  · rw [if_pos hmscratch, hmscratch]
    exact ⟨_, _, isRegister_mscratch⟩
  rw [if_neg hmscratch]
  by_cases hmepc : addr = mepcAddr
  · rw [if_pos hmepc, hmepc]
    exact ⟨_, _, isRegister_mepc⟩
  rw [if_neg hmepc]
  by_cases hmcause : addr = mcauseAddr
  · rw [if_pos hmcause, hmcause]
    exact ⟨_, _, isRegister_mcause⟩
  rw [if_neg hmcause]
  by_cases hmtval : addr = mtvalAddr
  · rw [if_pos hmtval, hmtval]
    exact ⟨_, _, isRegister_mtval⟩
  rw [if_neg hmtval]
  by_cases hmip : addr = mipAddr
  · rw [if_pos hmip, hmip]
    exact ⟨_, _, isRegister_mip⟩
  rw [if_neg hmip]
  have hoperation (cs : CSRegisters) (op : Option CSOperation) : cs.operation op addr =
      if mcycleAddr ≤ addr ∧ addr ≤ mhpmcounter31hAddr then .ok (0, cs)
      else if mvendoridAddr ≤ addr ∧ addr ≤ mconfigptrAddr then .ok (0, cs)
      else .error (.invalidCSRegister addr) := by
    rw [CSRegisters.operation, if_neg hmstatus, if_neg hmisa, if_neg hmie, if_neg hmtvec,
      if_neg hmstatush, if_neg hevents, if_neg hmscratch, if_neg hmepc, if_neg hmcause,
      if_neg hmtval, if_neg hmip]
  by_cases hcounters : mcycleAddr ≤ addr ∧ addr ≤ mhpmcounter31hAddr
  · rw [if_pos hcounters]
    intro cs op
    rw [hoperation, if_pos hcounters]
  rw [if_neg hcounters]
  by_cases hids : mvendoridAddr ≤ addr ∧ addr ≤ mconfigptrAddr
  · rw [if_pos hids]
    intro cs op
    rw [hoperation, if_neg hcounters, if_pos hids]
  · rw [if_neg hids]
    intro cs op
    rw [hoperation, if_neg hcounters, if_neg hids]

namespace CSRegisters

variable {cs cs' : CSRegisters} {addr : U16}

/-- A read depends on the register at its address only. -/
theorem view_of_sameExcept {a : U16} (h : cs.SameExcept a cs') (hne : addr ≠ a) :
    cs'.view addr = cs.view addr := by
  unfold view operation
  by_cases hmstatus : addr = mstatusAddr
  · simp only [if_pos hmstatus, h.mstatus (hmstatus ▸ hne.symm)]
  simp only [if_neg hmstatus]
  by_cases hmisa : addr = misaAddr
  · simp only [if_pos hmisa]
  simp only [if_neg hmisa]
  by_cases hmie : addr = mieAddr
  · simp only [if_pos hmie, h.mieEmbive (hmie ▸ hne.symm)]
  simp only [if_neg hmie]
  by_cases hmtvec : addr = mtvecAddr
  · simp only [if_pos hmtvec, h.mtvec (hmtvec ▸ hne.symm)]
  simp only [if_neg hmtvec]
  by_cases hmstatush : addr = mstatushAddr
  · simp only [if_pos hmstatush]
  simp only [if_neg hmstatush]
  by_cases hevents : mcountinhibitAddr ≤ addr ∧ addr ≤ mhpmevent31hAddr
  · simp only [if_pos hevents]
  simp only [if_neg hevents]
  by_cases hmscratch : addr = mscratchAddr
  · simp only [if_pos hmscratch, h.mscratch (hmscratch ▸ hne.symm)]
  simp only [if_neg hmscratch]
  by_cases hmepc : addr = mepcAddr
  · simp only [if_pos hmepc, h.mepc (hmepc ▸ hne.symm)]
  simp only [if_neg hmepc]
  by_cases hmcause : addr = mcauseAddr
  · simp only [if_pos hmcause, h.mcause (hmcause ▸ hne.symm)]
  simp only [if_neg hmcause]
  by_cases hmtval : addr = mtvalAddr
  · simp only [if_pos hmtval, h.mtval (hmtval ▸ hne.symm)]
  simp only [if_neg hmtval]
  by_cases hmip : addr = mipAddr
  · simp only [if_pos hmip, h.mipEmbive (hmip ▸ hne.symm)]
  simp only [if_neg hmip]
  by_cases hcounters : mcycleAddr ≤ addr ∧ addr ≤ mhpmcounter31hAddr
  · simp only [if_pos hcounters]
  simp only [if_neg hcounters]
  by_cases hids : mvendoridAddr ≤ addr ∧ addr ≤ mconfigptrAddr
  · simp only [if_pos hids]
  · simp only [if_neg hids]

/-- An operation at an address updates the map there. -/
theorem view_operation {op : Option CSOperation} {old value : U32}
    (h : cs.operation op addr = .ok (old, cs')) (hvalue : cs'.view addr = some value) :
    cs'.view = Function.update cs.view addr (some value) := by
  funext a
  by_cases ha : a = addr
  · rw [ha, hvalue, Function.update_self]
  · rw [Function.update_of_ne ha]
    exact view_of_sameExcept (cs.operation_changesOnly op addr old cs' h) ha

end CSRegisters

/-- At a supported address an operation returns what a read returns, which keeps to the
register's mask, and the register reads the new value with its mask afterwards; the other
registers read as before, and the masks hold again. -/
theorem operation_updates {cs : CSRegisters} (h : cs.Masked) {addr : U16} {field : CsrField}
    (hfield : csrField addr = some field) (op : Option CSOperation) :
    ∃ old cs', cs.view addr = some old ∧ field.after old = old ∧
      cs.operation op addr = .ok (old, cs') ∧ cs'.Masked ∧
      cs'.view = Function.update cs.view addr (some (field.after (executeOperation op old))) ∧
      (op = none → cs' = cs) := by
  have hmeets := meets_csrField addr
  rw [hfield] at hmeets
  cases field with
  | fixed value =>
    have hview : cs.view addr = some value := by
      rw [CSRegisters.view, hmeets]
    refine ⟨value, cs, hview, rfl, hmeets cs op, h, ?_, fun _ => rfl⟩
    exact CSRegisters.view_operation (hmeets cs op) hview
  | writable mask =>
    obtain ⟨get, set, hregister⟩ := hmeets
    have hview (t : CSRegisters) : t.view addr = some (get t) := by
      rw [CSRegisters.view, hregister.operation]
    have hoperation := hregister.operation cs op
    have hmask : mask &&& get cs = get cs := by
      rw [← hregister.get_set, hregister.set_get cs h]
    refine ⟨get cs, _, hview cs, hmask, hoperation, hregister.masked_set _ _ h, ?_, ?_⟩
    · apply CSRegisters.view_operation hoperation
      rw [hview, hregister.get_set]
      rfl
    · rintro rfl
      exact hregister.set_get cs h

theorem operation_unsupported (cs : CSRegisters) {addr : U16} (hfield : csrField addr = none)
    (op : Option CSOperation) : cs.operation op addr = .error (.invalidCSRegister addr) := by
  have hmeets := meets_csrField addr
  rw [hfield] at hmeets
  exact hmeets cs op

end Embive
