import Embive.Rv32.Stub
import Embive.Transpiler.Text

/-! # Sessions of the stub on transpiled code

Where the code region has the conversions of a program's instructions, a session of the stub on
the debugger does what it does on a hart that executes the program: every reply and every event
is the same.
-/

namespace Embive

open Rv32 EStateM Lib

namespace Transpiler

open Interpreter

variable {F C E α : Type} {N : ℕ} {code : List U8}

/-- The guest represents the hart, and the debugger keeps what the stub has told it. -/
structure Debugs (code : List U8) (s : Attached SliceMemory F C N) (d : DebuggedHart F C) :
    Prop where
  runs : Runs code s.target.interpreter d.hart
  syscallFn : s.target.syscallFn = d.syscallFn
  breakpoints : SlotTable.contents s.target.breakpoints = d.breakpoints
  execMode : s.target.execMode = d.execMode
  conn : s.conn = d.conn

section Requests

theorem Debugs.withInterpreter {s : Attached SliceMemory F C N} {d : DebuggedHart F C}
    (h : Debugs code s d) {interpreter : Interpreter SliceMemory} {hart : Hart}
    (hruns : Runs code interpreter hart) :
    Debugs code { s with target.interpreter := interpreter } { d with hart } :=
  ⟨hruns, h.syscallFn, h.breakpoints, h.execMode, h.conn⟩

/-- A method of the interpreter as a request. -/
theorem refines_onInterpreter {x : Exec SliceMemory α} {y : EStateM Stop Hart α}
    (h : Refines Stop.IsUnspecified (Runs code) x y) :
    Refines Stop.IsUnspecified (Debugs (F := F) (C := C) (N := N) code)
      (request (Debugger.onInterpreter x) : EStateM (StubError E) _ (Option α))
      (DebuggedHart.onHart (some <$> y)) := by
  intro s d hdebugs
  have hallows := h _ _ hdebugs.runs
  rw [request, Debugger.onInterpreter, adaptExcept_apply, onPart_apply, DebuggedHart.onHart,
    onPart_apply, map_apply]
  cases hy : y d.hart with
  | ok a hart =>
    rw [hy] at hallows
    obtain ⟨t, hx, ht⟩ := hallows.ok
    rw [hx]
    exact ⟨rfl, hdebugs.withInterpreter ht⟩
  | error stop hart =>
    rw [hy] at hallows
    cases hx : x s.target.interpreter with
    | ok a t =>
      rw [hx] at hallows
      exact hallows
    | error e t => trivial

theorem setWidth_setWidth_gpr {i : U8} (hi : i.toNat < 32) : (i.setWidth 5).setWidth 8 = i := by
  revert i
  decide

theorem gpr_x {s : Interpreter SliceMemory} (hs : s.Sound) (i : U8) (hi : i.toNat < 32) :
    s.registers.value i = s.x (i.setWidth 5) := by
  rw [← value_eq hs.zero, setWidth_setWidth_gpr hi]

/-- The registers after one of them is written, register zero with zero only. -/
theorem x_assign {s : Interpreter SliceMemory} {rd : BitVec 5} {value : U32}
    (hzero : rd = 0 → value = 0) :
    ({ s with registers.cpu := s.registers.cpu.write rd.toFin value } : Interpreter _).x =
      Function.update s.x rd value := by
  by_cases hrd : rd = 0
  · funext i
    rw [hzero hrd, hrd]
    by_cases hi : i = 0
    · rw [hi, Function.update_self, Interpreter.x, if_pos rfl]
    · have hne : (0 : BitVec 5).toFin.val ≠ i.toFin.val := by
        intro h
        exact hi (BitVec.eq_of_toNat_eq h.symm)
      rw [Function.update_of_ne hi, Interpreter.x, Interpreter.x, if_neg hi, if_neg hi]
      exact Vector.getElem_set_ne (0 : BitVec 5).toFin.isLt i.toFin.isLt hne
  · exact x_write hrd

theorem sound_assign {s : Interpreter SliceMemory} (hs : s.Sound) {rd : BitVec 5} {value : U32}
    (hzero : rd = 0 → value = 0) :
    ({ s with registers.cpu := s.registers.cpu.write rd.toFin value } : Interpreter _).Sound where
  even := hs.even
  zero := by
    by_cases hrd : rd = 0
    · rw [hzero hrd, hrd]
      exact Vector.getElem_set_self (0 : Fin 32).isLt
    · have hset : (s.setX rd value).registers.value 0 = 0 := value_zero_setX hs.zero
      rw [Interpreter.setX, if_neg hrd] at hset
      exact hset
  masked := hs.masked

/-- A register of the stub reads as the hart's register. -/
theorem refines_valueOf {regId : RiscvRegId} {x : Exec SliceMemory U32}
    (hx : valueOf regId = some x) :
    Refines Stop.IsUnspecified (Runs code) x (Hart.getRegister regId) := by
  rintro s _ ⟨⟨rfl, hs⟩, hcode⟩
  rw [Hart.getRegister]
  have hruns : Runs code s s.hart := ⟨⟨rfl, hs⟩, hcode⟩
  cases regId with
  | priv => cases hx
  | pc =>
    cases hx
    exact ⟨rfl, hruns⟩
  | fpr i =>
    cases hx
    trivial
  | gpr i =>
    cases hx
    simp only [Hart.register]
    by_cases hi : i.toNat < 32
    · rw [if_pos hi, getReg_apply s hi, gpr_x hs i hi]
      exact ⟨rfl, hruns⟩
    · rw [if_neg hi, getReg, reads_apply, CPURegisters.get, dif_neg hi]
      trivial
  | csr addr =>
    cases hx
    simp only [Hart.register]
    cases hfield : csrField addr with
    | none =>
      rw [onControlStatus, operation_unsupported _ hfield]
      trivial
    | some field =>
      obtain ⟨old, cs, hview, -, hoperation, -, -, hsame⟩ :=
        operation_updates hs.masked hfield none
      cases hsame rfl
      rw [onControlStatus, hoperation]
      exact ⟨CSRegisters.values_of_view hview, hruns⟩

/-- A register of the stub is written as the hart's register. -/
theorem refines_assign {value : U32} {regId : RiscvRegId} {x : Exec SliceMemory PUnit}
    (hx : assign value regId = some x) :
    Refines Stop.IsUnspecified (Runs code) x (Hart.putRegister value regId) := by
  rintro s _ ⟨⟨rfl, hs⟩, hcode⟩
  rw [Hart.putRegister]
  cases regId with
  | priv => cases hx
  | pc =>
    cases hx
    simp only [Hart.setRegister]
    split_ifs with heven
    · exact ⟨rfl, ⟨rfl, heven, hs.zero, hs.masked⟩, hcode⟩
    · exact allows_unspecified (U := Stop.IsUnspecified) rfl _ _
  | fpr i =>
    cases hx
    trivial
  | gpr i =>
    cases hx
    simp only [Hart.setRegister]
    by_cases hi : i.toNat < 32
    · have hcell : cellOf i = (i.setWidth 5).toFin := by
        rw [← cellOf_setWidth]
        exact congrArg cellOf (setWidth_setWidth_gpr hi).symm
      rw [if_pos hi, bind_ok (getMutReg_apply s hi), hcell]
      by_cases hzero : i = 0 ∧ value ≠ 0
      · rw [if_pos hzero]
        exact allows_unspecified (U := Stop.IsUnspecified) rfl _ _
      · have hrd : i.setWidth 5 = 0#5 → value = 0 := by
          intro hrd
          by_contra hvalue
          apply hzero
          refine ⟨?_, hvalue⟩
          rw [← setWidth_setWidth_gpr hi, hrd]
          rfl
        rw [if_neg hzero]
        refine ⟨rfl, ⟨?_, sound_assign hs hrd⟩, hcode⟩
        exact congrArg (fun x => { s.hart with x }) (x_assign hrd)
    · rw [if_neg hi, bind_apply, getMutReg, reads_apply, CPURegisters.getMut, dif_neg hi]
      trivial
  | csr addr =>
    cases hx
    simp only [Hart.setRegister]
    cases hfield : csrField addr with
    | none =>
      rw [bind_apply, onControlStatus, operation_unsupported _ hfield]
      trivial
    | some field =>
      obtain ⟨old, cs, -, -, hoperation, hmasked, hview, -⟩ :=
        operation_updates hs.masked hfield (some (.write value))
      rw [bind_apply, onControlStatus, hoperation]
      refine ⟨rfl, ⟨?_, hs.even, hs.zero, hmasked⟩, hcode⟩
      exact congrArg (fun csrs => { s.hart with csrs }) (CSRegisters.values_update hview)

theorem splice_word (buf : List U8) (value : U32) :
    splice buf 0 (toLeBytes value) = toLeBytes value ++ buf.drop 4 := by
  rw [splice, length_toLeBytes]
  rfl

theorem onInterpreter_map {β : Type} (x : Exec SliceMemory α) (f : α → β) : (do
      let a ← Debugger.onInterpreter x
      return f a : TargetResult SliceMemory F N β) = Debugger.onInterpreter (f <$> x) := by
  funext self
  simp only [bind_apply, map_apply, Debugger.onInterpreter, adaptExcept_apply, onPart_apply]
  cases x self.interpreter <;> rfl

theorem refines_readRegister (regId : RiscvRegId) (buf : List U8) :
    Refines Stop.IsUnspecified (Debugs (F := F) (C := C) (N := N) code)
      (request (Debugger.readRegister regId buf) : EStateM (StubError E) _ _)
      (DebuggedHart.onHart (Hart.readRegister regId buf)) := by
  rw [Debugger.readRegister_eq, Hart.readRegister]
  by_cases hshort : buf.length < 4
  · rw [if_pos hshort, if_pos (.inl hshort)]
    exact fun s d h => ⟨rfl, h⟩
  rw [if_neg hshort]
  cases hx : valueOf (M := SliceMemory) regId with
  | none =>
    cases regId <;> cases hx
    rw [if_pos (.inr rfl)]
    exact fun s d h => ⟨rfl, h⟩
  | some x =>
    have hpriv : ¬(buf.length < 4 ∨ regId = .priv) := by
      rintro (hlt | rfl)
      · exact hshort hlt
      · cases hx
    simp only [splice_word, onInterpreter_map]
    rw [if_neg hpriv]
    exact refines_onInterpreter ((refines_valueOf hx).map _)

theorem splice_zeros (buf : List U8) :
    fromLeBytes 32 (splice [0, 0, 0, 0] 0 buf) = fromLeBytes 32 buf := by
  have hzeros : ([0, 0, 0, 0] : List U8) = List.replicate 4 0 := rfl
  rw [splice, hzeros, List.take_zero, List.nil_append, List.drop_replicate, fromLeBytes,
    leNat_append_zeros, fromLeBytes]

theorem refines_writeRegister (regId : RiscvRegId) (buf : List U8) :
    Refines Stop.IsUnspecified (Debugs (F := F) (C := C) (N := N) code)
      (request (Debugger.writeRegister regId buf) : EStateM (StubError E) _ _)
      (DebuggedHart.onHart (Hart.writeRegister regId buf)) := by
  rw [Debugger.writeRegister_eq, Hart.writeRegister]
  by_cases hlong : 4 < buf.length
  · rw [if_pos hlong, if_pos (.inl hlong)]
    exact fun s d h => ⟨rfl, h⟩
  rw [if_neg hlong, splice_zeros]
  cases hx : assign (M := SliceMemory) (fromLeBytes 32 buf) regId with
  | none =>
    cases regId <;> cases hx
    rw [if_pos (.inr rfl)]
    exact fun s d h => ⟨rfl, h⟩
  | some x =>
    have hpriv : ¬(4 < buf.length ∨ regId = .priv) := by
      rintro (hlt | rfl)
      · exact hlong hlt
      · cases hx
    rw [if_neg hpriv]
    exact refines_onInterpreter (refines_assign hx)

theorem refines_readRegisters :
    Refines Stop.IsUnspecified (Debugs (F := F) (C := C) (N := N) code)
      (request Debugger.readRegisters : EStateM (StubError E) _ _)
      (DebuggedHart.onHart (some <$> Hart.readRegisters)) := by
  have hrequest : (Debugger.readRegisters : TargetResult SliceMemory F N RiscvCoreRegs) =
      Debugger.onInterpreter (do
        let s ← get
        return ⟨s.registers.cpu.inner, s.programCounter⟩) := rfl
  rw [hrequest]
  apply refines_onInterpreter
  rintro s _ ⟨⟨rfl, hs⟩, hcode⟩
  refine ⟨?_, ⟨rfl, hs⟩, hcode⟩
  have hinner : Vector.ofFn (fun i => s.x (BitVec.ofFin i)) = s.registers.cpu.inner := by
    ext i hi
    rw [Vector.getElem_ofFn, Interpreter.x]
    split_ifs with hzero
    · have hindex : i = 0 := congrArg BitVec.toNat hzero
      subst hindex
      exact congrArg (fun value : U32 => value[_]) hs.zero.symm
    · rfl
  exact congrArg (fun x => RiscvCoreRegs.mk x s.programCounter) hinner

theorem refines_writeRegisters (regs : RiscvCoreRegs) :
    Refines Stop.IsUnspecified (Debugs (F := F) (C := C) (N := N) code)
      (request (Debugger.writeRegisters regs) : EStateM (StubError E) _ _)
      (DebuggedHart.onHart (some <$> Hart.writeRegisters regs)) := by
  have hrequest : (Debugger.writeRegisters regs : TargetResult SliceMemory F N PUnit) =
      Debugger.onInterpreter (modify (fun s => { s with
        registers.cpu := ⟨regs.x⟩
        programCounter := regs.pc })) := rfl
  rw [hrequest]
  apply refines_onInterpreter
  rintro s _ ⟨⟨rfl, hs⟩, hcode⟩
  rw [Hart.writeRegisters]
  split_ifs with hregs
  · have hx : ({ s with registers.cpu := ⟨regs.x⟩ } : Interpreter _).x =
        fun i => regs.x.get i.toFin := by
      funext i
      rw [Interpreter.x]
      split_ifs with hzero
      · rw [hzero]
        exact hregs.2.symm
      · rfl
    refine ⟨rfl, ⟨?_, hregs.1, hregs.2, hs.masked⟩, hcode⟩
    exact congrArg (fun x => { s.hart with x, pc := regs.pc }) hx
  · exact allows_unspecified (U := Stop.IsUnspecified) rfl _ _

variable [Embive.Target]

theorem refines_writeAddrs (startAddr : U32) (data : List U8) :
    Refines Stop.IsUnspecified (Debugs (F := F) (C := C) (N := N) code)
      (request (Debugger.writeAddrs startAddr data) : EStateM (StubError E) _ _)
      (DebuggedHart.onHart (some <$> Hart.writeAddrs startAddr data)) := by
  rw [Debugger.writeAddrs, Debugger.onMemory]
  apply refines_onInterpreter
  rintro s _ ⟨⟨rfl, hs⟩, hcode⟩
  have hmemory : s.hart.memory = s.memory := rfl
  rw [Hart.writeAddrs, onPart_apply, hmemory]
  simp only [Memory.storeBytes, updates_apply]
  split_ifs with hwritable
  · rw [SliceMemory.storeBytes_of_writable hwritable]
    exact ⟨rfl, ⟨rfl, hs.even, hs.zero, hs.masked⟩, hcode⟩
  · obtain ⟨e, he⟩ := SliceMemory.storeBytes_of_not_writable hwritable
    rw [he]
    trivial

theorem refines_readAddrs (startAddr : U32) (data : List U8) :
    Refines Stop.IsUnspecified (Debugs (F := F) (C := C) (N := N) code)
      (request (Debugger.readAddrs startAddr data) : EStateM (StubError E) _ _)
      (DebuggedHart.onHart (some <$> Hart.readAddrs startAddr data)) := by
  intro s d h
  have hmemory : s.target.interpreter.memory = d.hart.memory :=
    congrArg Hart.memory h.runs.models.hart
  rw [DebuggedHart.onHart, onPart_apply, map_apply, Hart.readAddrs, ← hmemory]
  split_ifs with hlong hmapped
  · exact allows_unspecified (U := Stop.IsUnspecified) rfl _ _
  · have hload := SliceMemory.loadBytes_of_mapped hmapped (by omega)
    have hread : (Debugger.readAddrs startAddr data : TargetResult SliceMemory F N _) s.target =
        .ok (data.length, s.target.interpreter.memory.bytesAt startAddr data.length) s.target := by
      simp only [Debugger.readAddrs, Debugger.onMemory, Debugger.onInterpreter, bind_apply,
        adaptExcept_apply, onPart_apply, Memory.loadBytes, reads_apply, hload, Result.mapState,
        if_pos (SliceMemory.bytesAt_length hmapped)]
      rfl
    rw [request, hread]
    exact ⟨rfl, h⟩
  · obtain ⟨e, he⟩ := SliceMemory.loadBytes_of_not_mapped hmapped
    have hread : (Debugger.readAddrs startAddr data : TargetResult SliceMemory F N _) s.target =
        .error (.error (.fatal e)) s.target := by
      simp only [Debugger.readAddrs, Debugger.onMemory, Debugger.onInterpreter, bind_apply,
        adaptExcept_apply, onPart_apply, Memory.loadBytes, reads_apply, he, Result.mapState]
    rw [request, hread]
    trivial

end Requests

section Breakpoints

theorem refines_addSwBreakpoint (addr : U32) :
    Refines Stop.IsUnspecified (Debugs (F := F) (C := C) (N := N) code)
      (request (modifyGet (fun self => self.addSwBreakpoint addr)) : EStateM (StubError E) _ _)
      (some <$> modifyGet (DebuggedHart.addSwBreakpoint N addr)) := by
  intro s d h
  have hroom : (SlotTable.contents s.target.breakpoints).card < N ↔ none ∈ s.target.breakpoints :=
    SlotTable.card_contents_lt_iff
  rw [h.breakpoints] at hroom
  have hadd : (request (modifyGet (fun self => self.addSwBreakpoint addr)) :
      EStateM (StubError E) (Attached SliceMemory F C N) _) s =
        .ok (some (s.target.addSwBreakpoint addr).1)
          { s with target := (s.target.addSwBreakpoint addr).2 } := rfl
  have hhart : (some <$> modifyGet (DebuggedHart.addSwBreakpoint N addr) :
      EStateM Stop (DebuggedHart F C) _) d =
        .ok (some (d.addSwBreakpoint N addr).1) (d.addSwBreakpoint N addr).2 := rfl
  rw [hadd, hhart, DebuggedHart.addSwBreakpoint]
  cases hfind : s.target.breakpoints.findFinIdx? Option.isNone with
  | none =>
    have hfull : none ∉ s.target.breakpoints := by
      intro hmem
      exact Vector.findFinIdx?_eq_none_iff.mp hfind _ hmem rfl
    have hcall : s.target.addSwBreakpoint addr = (false, s.target) := by
      rw [Debugger.addSwBreakpoint, hfind]
    rw [if_neg (fun hlt => hfull (hroom.mp hlt)), hcall]
    exact ⟨rfl, h⟩
  | some i =>
    have hfree : none ∈ s.target.breakpoints := by
      have hslot := Option.isNone_iff_eq_none.mp (SlotTable.of_findFinIdx? hfind)
      rw [← hslot]
      exact Vector.getElem_mem i.isLt
    have hcall : s.target.addSwBreakpoint addr = (true,
        { s.target with breakpoints := s.target.breakpoints.set i (some addr) }) := by
      rw [Debugger.addSwBreakpoint, hfind]
    have hcontents := Debugger.contents_add hcall
    rw [h.breakpoints] at hcontents
    rw [if_pos (hroom.mpr hfree), hcall]
    exact ⟨rfl, h.runs, h.syscallFn, hcontents, h.execMode, h.conn⟩

theorem refines_removeSwBreakpoint (addr : U32) :
    Refines Stop.IsUnspecified (Debugs (F := F) (C := C) (N := N) code)
      (request (modifyGet (fun self => self.removeSwBreakpoint addr)) : EStateM (StubError E) _ _)
      (some <$> modifyGet (DebuggedHart.removeSwBreakpoint addr)) := by
  intro s d h
  have hcontents := Debugger.contents_remove s.target addr
  have hpresent : addr ∈ SlotTable.contents s.target.breakpoints ↔
      some addr ∈ s.target.breakpoints := SlotTable.mem_contents
  rw [h.breakpoints] at hcontents hpresent
  have hremove : (request (modifyGet (fun self => self.removeSwBreakpoint addr)) :
      EStateM (StubError E) (Attached SliceMemory F C N) _) s =
        .ok (some (s.target.removeSwBreakpoint addr).1)
          { s with target := (s.target.removeSwBreakpoint addr).2 } := rfl
  have hhart : (some <$> modifyGet (DebuggedHart.removeSwBreakpoint addr) :
      EStateM Stop (DebuggedHart F C) _) d =
        .ok (some (d.removeSwBreakpoint addr).1) (d.removeSwBreakpoint addr).2 := rfl
  rw [hremove, hhart, DebuggedHart.removeSwBreakpoint]
  cases hfind : s.target.breakpoints.findFinIdx? (fun b => b = some addr) with
  | none =>
    have habsent : some addr ∉ s.target.breakpoints := by
      intro hmem
      exact Vector.findFinIdx?_eq_none_iff.mp hfind _ hmem (decide_eq_true rfl)
    have hcall : s.target.removeSwBreakpoint addr = (false, s.target) := by
      rw [Debugger.removeSwBreakpoint, hfind]
    rw [if_neg (fun hmem => habsent (hpresent.mp hmem)), hcall]
    exact ⟨rfl, h⟩
  | some i =>
    have hslot : some addr ∈ s.target.breakpoints := by
      have hvalue := of_decide_eq_true (SlotTable.of_findFinIdx? hfind)
      rw [← hvalue]
      exact Vector.getElem_mem i.isLt
    have hcall : s.target.removeSwBreakpoint addr = (true,
        { s.target with breakpoints := s.target.breakpoints.set i none }) := by
      rw [Debugger.removeSwBreakpoint, hfind]
    rw [hcall] at hcontents
    rw [if_pos (hpresent.mpr hslot), hcall]
    exact ⟨rfl, h.runs, h.syscallFn, hcontents, h.execMode, h.conn⟩

end Breakpoints

section Waits

/-- The two stop for the same reason. -/
theorem Debugs.reason {s : Attached SliceMemory F C N} {d : DebuggedHart F C}
    (h : Debugs code s d) : s.reason = d.reason := by
  have hpc : s.target.interpreter.programCounter = d.hart.pc :=
    congrArg Hart.pc h.runs.models.hart
  have hstop : some d.hart.pc ∈ s.target.breakpoints ↔ d.hart.pc ∈ d.breakpoints := by
    rw [← h.breakpoints, SlotTable.mem_contents]
  rw [Attached.reason, DebuggedHart.reason, hpc, h.execMode]
  simp only [hstop]

theorem refines_poll [ConnectionExt C E] :
    Refines Stop.IsUnspecified (Debugs (F := F) (N := N) code)
      (Attached.poll : EStateM (WaitFault E) (Attached SliceMemory F C N) _)
      DebuggedHart.poll := by
  apply Refines.adaptExcept
  apply (refines_adaptExcept incoming (fun _ => Stop.failed)).onPart
  · exact fun s d h => h.conn
  · exact fun s d h conn conn' hconn => ⟨h.runs, h.syscallFn, h.breakpoints, h.execMode, hconn⟩

variable [Embive.Target] [SyscallFnMut F SliceMemory] {program : Program}

/-- The guest's part in the relation. -/
def Serves (code : List U8) (s : Attached SliceMemory F C N) (guest : Guest SliceMemory F)
    (d : DebuggedHart F C) : Prop := Debugs code (s.setGuest guest) d

variable {s : Attached SliceMemory F C N}

omit [Embive.Target] [SyscallFnMut F SliceMemory] in
/-- A method of the interpreter as one of the guest. -/
theorem refines_guest {x : Exec SliceMemory α} {y : EStateM Stop Hart α}
    (h : Refines Stop.IsUnspecified (Runs code) x y) :
    Refines Stop.IsUnspecified (Serves code s) (Guest.onInterpreter x) (DebuggedHart.onHart y) := by
  apply h.onPart
  · exact fun guest d hserves => hserves.runs
  · intro guest d hserves interpreter hart hruns
    exact hserves.withInterpreter hruns

omit [Embive.Target] in
theorem refines_guestSyscall :
    Refines Stop.IsUnspecified (Serves code s) Guest.syscall DebuggedHart.syscall := by
  intro guest d h
  have hfn : guest.syscallFn = d.syscallFn := h.syscallFn
  have hhart : guest.interpreter.hart = d.hart := h.runs.models.hart
  have hguest : Guest.syscall guest =
      (Interpreter.syscall (SyscallFnMut.function d.syscallFn) guest.interpreter).mapState
        (fun interpreter => ⟨interpreter, SyscallFnMut.afterCall d.syscallFn (d.hart.x 17)
          (Vector.ofFn (fun i => d.hart.x (BitVec.ofNat 5 (10 + i.val)))) d.hart.memory⟩) := by
    rw [Guest.syscall, hfn, syscallArguments_hart, ← hhart]
    rfl
  have hallows := refines_syscall (SyscallFnMut.function d.syscallFn) _ _ h.runs
  rw [hguest, DebuggedHart.syscall, bind_ok (get_apply d), bind_apply, DebuggedHart.onHart,
    onPart_apply]
  cases hanswer : Hart.syscall (SyscallFnMut.function d.syscallFn) d.hart with
  | ok a hart =>
    have hinterpreter := hallows
    simp only [Attached.setGuest] at hinterpreter
    rw [hanswer] at hinterpreter
    obtain ⟨t, ht, hruns⟩ := hinterpreter.ok
    rw [ht]
    exact ⟨rfl, hruns, rfl, h.breakpoints, h.execMode, h.conn⟩
  | error stop hart =>
    simp only [Attached.setGuest] at hallows
    rw [hanswer] at hallows
    cases hx : Interpreter.syscall (SyscallFnMut.function d.syscallFn) guest.interpreter with
    | ok a t =>
      rw [hx] at hallows
      exact hallows
    | error e t => trivial

/-- A step of the guest with its system call or interrupt. -/
theorem Carries.refines_serviced (h : Carries code program) :
    Refines Stop.IsUnspecified (Serves code s) Guest.serviced
      (DebuggedHart.serviced program) := by
  apply (refines_guest h.refines_step).bind
  intro state
  cases state with
  | running => exact refines_pure false
  | halted => exact refines_pure true
  | called => exact refines_guestSyscall.bind (fun _ => refines_pure false)
  | waiting => exact (refines_guest (runs_interrupt 0)).bind (fun _ => refines_pure false)

/-- A round of a wait. -/
theorem Carries.refines_round (h : Carries code program) :
    Refines Stop.IsUnspecified (Debugs (F := F) (C := C) (N := N) code)
      (Attached.round : EStateM (WaitFault E) _ _) (DebuggedHart.round program) := by
  intro s d hdebugs
  have hserves : Serves code s s.guest d := hdebugs
  have hallows := h.refines_serviced s.guest d hserves
  rw [Attached.round_apply, DebuggedHart.round, bind_apply]
  cases hhart : DebuggedHart.serviced program d with
  | ok halted d' =>
    rw [hhart] at hallows
    obtain ⟨guest, hguest, hnext⟩ := hallows.ok
    have hdebugs' : Debugs code (s.setGuest guest) d' := hnext
    rw [hguest]
    cases halted with
    | true => exact ⟨rfl, hdebugs'⟩
    | false => exact ⟨hdebugs'.reason.symm, hdebugs'⟩
  | error stop d' =>
    rw [hhart] at hallows
    cases hguest : Guest.serviced s.guest with
    | ok halted guest =>
      rw [hguest] at hallows
      exact allows_unspecified (U := Stop.IsUnspecified) hallows d' _
    | error e guest => trivial

variable [ConnectionExt C E]

/-- A slice of a wait. -/
theorem Carries.refines_slice (h : Carries code program) :
    Refines Stop.IsUnspecified (Debugs (F := F) (C := C) (N := N) code)
      (Attached.slice : EStateM (WaitFault E) _ _)
      (pollSlice (DebuggedHart.round program) DebuggedHart.poll 1024) :=
  (h.refines_round.andThen refines_poll).andThen (h.refines_round.forUpTo 1023)

/-- The slices that are specified stop as all of them do. -/
theorem slices_of_patience {fuel : ℕ} {s : Attached SliceMemory F C N}
    {r : Result (WaitFault E) (Attached SliceMemory F C N) Event}
    (h : stopped (forUpTo Attached.slice (DebuggedHart.patience fuel) s) = some r) :
    stopped (Attached.slices fuel s) = some r := by
  rw [Attached.slices]
  rw [DebuggedHart.patience] at h
  by_cases hchecks : Embive.Target.overflowChecks = true
  · rw [if_pos hchecks] at h
    by_cases hend : 2 ^ 21 ≤ fuel
    · rw [Nat.min_eq_right hend] at h
      rw [if_pos ⟨hchecks, hend⟩, andThen_apply]
      cases hslices : forUpTo (Attached.slice (E := E)) (2 ^ 21) s with
      | error e t =>
        rw [hslices] at h
        exact h
      | ok event t =>
        rw [hslices] at h
        cases event with
        | none => cases h
        | some event => exact h
    · rw [Nat.min_eq_left (by omega)] at h
      rw [if_neg (fun h => hend h.2)]
      exact h
  · rw [if_neg hchecks] at h
    rw [if_neg (fun h => hchecks h.1)]
    exact h

/-- A wait does what it does on the hart, as long as that is specified. -/
theorem Carries.refines_wait (h : Carries code program) (fuel : ℕ) :
    Refines Stop.IsUnspecified (Debugs (F := F) (C := C) (N := N) code)
      (wait fuel : EStateM (StubError E) _ _) (some <$> DebuggedHart.wait program fuel) := by
  intro s d hdebugs
  have hslices := h.refines_slice.forUpTo (DebuggedHart.patience fuel) s d hdebugs
  rw [wait_eq, map_apply, DebuggedHart.wait, bind_apply]
  cases hhart : forUpTo (pollSlice (DebuggedHart.round program) DebuggedHart.poll 1024)
      (DebuggedHart.patience fuel) d with
  | ok event d' =>
    rw [hhart] at hslices
    obtain ⟨t, ht, hnext⟩ := hslices.ok
    cases event with
    | none => exact allows_unspecified (U := Stop.IsUnspecified) rfl d' _
    | some event =>
      rw [slices_of_patience (congrArg stopped ht)]
      exact ⟨rfl, hnext⟩
  | error stop d' =>
    rw [hhart] at hslices
    cases hcode : forUpTo (Attached.slice (E := E)) (DebuggedHart.patience fuel) s with
    | ok event t =>
      rw [hcode] at hslices
      exact allows_unspecified (U := Stop.IsUnspecified) hslices d' _
    | error e t =>
      rw [slices_of_patience (congrArg stopped hcode)]
      trivial

end Waits

section Sessions

variable [Embive.Target] [SyscallFnMut F SliceMemory] [ConnectionExt C E] {program : Program}

theorem Carries.refines_perform (h : Carries code program) (fuel : ℕ) (c : StubCall) :
    Refines Stop.IsUnspecified (Debugs (F := F) (C := C) (N := N) code)
      (c.perform fuel : EStateM (StubError E) _ _) (Rv32.perform program N fuel c) := by
  cases c with
  | readRegisters => exact refines_readRegisters
  | writeRegisters regs => exact refines_writeRegisters regs
  | readRegister regId buf => exact refines_readRegister regId buf
  | writeRegister regId buf => exact refines_writeRegister regId buf
  | readAddrs startAddr data => exact refines_readAddrs startAddr data
  | writeAddrs startAddr data => exact refines_writeAddrs startAddr data
  | addSwBreakpoint addr => exact refines_addSwBreakpoint addr
  | removeSwBreakpoint addr => exact refines_removeSwBreakpoint addr
  | resume => exact fun s d h => ⟨rfl, h.runs, h.syscallFn, h.breakpoints, rfl, h.conn⟩
  | step => exact fun s d h => ⟨rfl, h.runs, h.syscallFn, h.breakpoints, rfl, h.conn⟩
  | waitForStopReason => exact h.refines_wait fuel

/-- Whatever a stub does with the debugger, it does with the hart. -/
theorem Carries.refines_stub (h : Carries code program) (fuel : ℕ) (stub : Stub α) :
    Refines Stop.IsUnspecified (Debugs (F := F) (C := C) (N := N) code)
      (stub.onDebugger fuel : EStateM (StubError E) _ _) (stub.onHart program N fuel) := by
  induction stub with
  | done result => exact refines_pure result
  | call c next ih => exact (h.refines_perform fuel c).bind ih

omit [Embive.Target] [SyscallFnMut F SliceMemory] in
theorem debugs_new (memory : SliceMemory) (syscallFn : F) (conn : C) :
    Debugs (N := N) memory.code ⟨.new memory syscallFn, conn⟩
      ⟨Hart.reset memory, syscallFn, 0, .run, conn⟩ :=
  ⟨⟨models_new memory 0, rfl⟩, rfl, SlotTable.contents_replicate, rfl, rfl⟩

/-- A session of the stub on the transpiled code of a RISC-V text does what it does on a hart
that executes the program of the text. -/
theorem transpileRaw_debugs [ElfCrate] {text code' : List U8} {p : Bool}
    (hraw : transpileRaw text = .ok p code') (hprogram : Disassembles program [(0, text)])
    (ram : List U8) (syscallFn : F) (conn : C) (fuel : ℕ) (stub : Stub α) :
    Allows Stop.IsUnspecified (Debugs (codeRegion code' p))
      (stub.onHart program N fuel
        ⟨Hart.reset ⟨codeRegion code' p, ram⟩, syscallFn, 0, .run, conn⟩)
      (stub.onDebugger (E := E) fuel
        ⟨(.new ⟨codeRegion code' p, ram⟩ syscallFn : Debugger SliceMemory F N), conn⟩) :=
  (transpileRaw_carries hraw hprogram).refines_stub fuel stub _ _
    (debugs_new ⟨codeRegion code' p, ram⟩ syscallFn conn)

/-- Stop at the second instruction, and read the register that the first one writes. -/
def answerStub : Stub (Option Event × Option (ℕ × List U8)) :=
  .call (.addSwBreakpoint 2) fun _ =>
    .call .waitForStopReason fun event =>
      .call (.readRegister (.gpr 10) [0, 0, 0, 0]) fun value => .done (event, value)

omit [Embive.Target] [SyscallFnMut F SliceMemory] [ConnectionExt C E] in
theorem transpileRaw_debugs_answer : letI := Target.release64
    letI := ElfCrate.parsesNothing
    letI := ConnectionExt.silent
    letI := SyscallFnMut.zero
    ∃ code p, transpileRaw answerText = .ok p code ∧ ∃ s,
      answerStub.onDebugger (E := Unit) 1
        ⟨(.new ⟨codeRegion code p, []⟩ () : Debugger SliceMemory Unit 4), ()⟩ =
          .ok (some (.targetStopped .swBreak), some (4, [5, 0, 0, 0])) s := by
  let _ := Target.release64
  let _ := ElfCrate.parsesNothing
  let _ := ConnectionExt.silent
  let _ := SyscallFnMut.zero
  have hraw : transpileRaw answerText = .ok false [69, 21, 31, 0, 16, 0] := by
    with_unfolding_all rfl
  refine ⟨_, _, hraw, ?_⟩
  have hallows := transpileRaw_debugs (N := 4) (E := Unit) hraw disassembles_answer [] () () 1
    answerStub
  have hhart : ∃ d, answerStub.onHart answerProgram 4 1
      ⟨Hart.reset ⟨codeRegion [69, 21, 31, 0, 16, 0] false, []⟩, (), 0, .run, ()⟩ =
        .ok (some (.targetStopped .swBreak), some (4, [5, 0, 0, 0])) d := ⟨_, rfl⟩
  obtain ⟨d, hd⟩ := hhart
  rw [hd] at hallows
  obtain ⟨s, hs, -⟩ := hallows.ok
  exact ⟨s, hs⟩

end Sessions

end Transpiler

end Embive
