import Embive.Breakpoints
import Embive.Lib.Polling

/-! # Waiting in slices

The debugger counts the instructions of a wait to look for incoming data now and then. Without
the counter, a wait is a loop of slices: a round, a look at the connection, and 1023 rounds
more. Where overflow is checked the counter ends it after `2 ^ 21` slices.
-/

namespace Embive

open EStateM Lib

variable {M F C E : Type} {N : ℕ}

/-- The debugger and its connection. -/
structure Attached (M F C : Type) (N : ℕ) where
  target : Debugger M F N
  conn : C

namespace WaitState

/-- The state without the counter. -/
def attached (s : WaitState M F C N) : Attached M F C N := ⟨s.target, s.conn⟩

end WaitState

section Incoming

variable [ConnectionExt C E]

/-- There is a byte to read, or looking for one fails. -/
def hasIncoming : EStateM E C Bool := fun conn =>
  match ConnectionExt.peek conn with
  | .ok byte conn => .ok byte.isSome conn
  | .error _ conn => .ok true conn

/-- Read the byte that has arrived. -/
def incoming : EStateM E C (Option Event) := do
  if ← hasIncoming then
    let byte ← ConnectionExt.read
    return some (.incomingData byte)
  else
    return none

end Incoming

namespace Attached

/-- The guest of the target. -/
def guest (s : Attached M F C N) : Guest M F := s.target.guest

def setGuest (guest : Guest M F) (s : Attached M F C N) : Attached M F C N :=
  { s with
    target.interpreter := guest.interpreter
    target.syscallFn := guest.syscallFn }

/-- Why the target stops where the guest has arrived. -/
def reason (s : Attached M F C N) : Option Event :=
  if some s.target.interpreter.programCounter ∈ s.target.breakpoints then
    some (.targetStopped .swBreak)
  else if s.target.execMode = .step then
    some (.targetStopped .doneStep)
  else
    none

/-- Look at the connection. -/
def poll [ConnectionExt C E] : EStateM (WaitFault E) (Attached M F C N) (Option Event) :=
  (onPart Attached.conn (fun conn s => { s with conn }) incoming).adaptExcept
    (fun e => .error (.connection e))

variable [Memory M] [SyscallFnMut F M]

/-- A step of the guest with its system call or interrupt, which may be the last one. -/
def round : EStateM (WaitFault E) (Attached M F C N) (Option Event) := do
  if ← (onPart guest setGuest Guest.serviced).adaptExcept (fun e => .error (.target e)) then
    return some (.targetStopped (.terminated .sigstop))
  else
    return (← get).reason

/-- A round, a look at the connection, and 1023 rounds more. -/
def slice [ConnectionExt C E] : EStateM (WaitFault E) (Attached M F C N) (Option Event) :=
  pollSlice round poll 1024

theorem round_apply (s : Attached M F C N) :
    round (E := E) s = match Guest.serviced s.guest with
      | .ok true guest => .ok (some (.targetStopped (.terminated .sigstop))) (s.setGuest guest)
      | .ok false guest => .ok (s.setGuest guest).reason (s.setGuest guest)
      | .error e guest => .error (.error (.target e)) (s.setGuest guest) := by
  rw [round, bind_apply, adaptExcept_apply, onPart_apply]
  cases Guest.serviced s.guest with
  | ok halted guest => cases halted <;> rfl
  | error e guest => rfl

end Attached

section Connection

variable [ConnectionExt C E]

theorem Attached.poll_apply (s : Attached M F C N) :
    poll s = match (incoming s.conn : Result E C (Option Event)) with
      | .ok event conn => .ok event { s with conn }
      | .error e conn => .error (.error (.connection e)) { s with conn } := by
  rw [poll, adaptExcept_apply, onPart_apply]
  cases (incoming s.conn : Result E C (Option Event)) <;> rfl

/-- The debugger looks at its connection and reads it, or goes on. -/
theorem readIncoming_apply (rest : EStateM (WaitFault E) (WaitState M F C N) (Option Event))
    (s : WaitState M F C N) : (do
      if ← Debugger.peekIncoming then
        let byte ← Debugger.readIncoming
        return some (Event.incomingData byte)
      else
        rest : EStateM (WaitFault E) (WaitState M F C N) (Option Event)) s =
    match Attached.poll s.attached with
      | .ok (some event) t => .ok (some event) ⟨t.target, t.conn, s.cycles⟩
      | .ok none t => rest ⟨t.target, t.conn, s.cycles⟩
      | .error e t => .error e ⟨t.target, t.conn, s.cycles⟩ := by
  have hconn : s.attached.conn = s.conn := rfl
  have hread (conn : C) : (do
      let byte ← Debugger.readIncoming
      return some (Event.incomingData byte) :
        EStateM (WaitFault E) (WaitState M F C N) (Option Event)) { s with conn } =
      match (ConnectionExt.read conn : Result E C U8) with
      | .ok byte conn => .ok (some (.incomingData byte)) { s with conn }
      | .error e conn => .error (.error (.connection e)) { s with conn } := by
    rw [bind_apply, Debugger.readIncoming, adaptExcept_apply, onPart_apply]
    cases (ConnectionExt.read conn : Result E C U8) <;> rfl
  have hincoming (conn : C) : (do
      let byte ← ConnectionExt.read
      return some (Event.incomingData byte) : EStateM E C (Option Event)) conn =
      match (ConnectionExt.read conn : Result E C U8) with
      | .ok byte conn => .ok (some (.incomingData byte)) conn
      | .error e conn => .error e conn := by
    rw [bind_apply]
    cases (ConnectionExt.read conn : Result E C U8) <;> rfl
  rw [Attached.poll_apply, bind_apply, Debugger.peekIncoming, incoming, bind_apply, hasIncoming,
    hconn]
  cases ConnectionExt.peek s.conn with
  | ok byte conn =>
    cases byte with
    | none => rfl
    | some byte =>
      dsimp only [Option.isSome]
      rw [if_pos rfl, if_pos rfl, hread, hincoming]
      cases (ConnectionExt.read conn : Result E C U8) <;> rfl
  | error e conn =>
    dsimp only
    rw [if_pos rfl, if_pos rfl, hread, hincoming]
    cases (ConnectionExt.read conn : Result E C U8) <;> rfl

end Connection

section Counter

theorem srem_period (k : ℕ) : (BitVec.ofNat 32 k : I32).srem 1024 = 0 ↔ k % 1024 = 0 := by
  have hperiod : (1024 : I32).toInt = 1024 := rfl
  have hzero : (BitVec.ofNat 32 k : I32).srem 1024 = 0 ↔
      ((BitVec.ofNat 32 k : I32).srem 1024).toInt = 0 := by
    rw [← BitVec.toInt_inj]
    rfl
  rw [hzero, BitVec.toInt_srem, hperiod, BitVec.toInt_eq_toNat_cond, BitVec.toNat_ofNat,
    ← Int.dvd_iff_tmod_eq_zero]
  split_ifs <;> omega

variable [Target]

/-- The outcome of a round with the counter. -/
def counted (cycles : I32) (r : Result (WaitFault E) (Attached M F C N) (Option Event)) :
    Result (WaitFault E) (WaitState M F C N) (Option Event) :=
  match r with
  | .ok (some event) t => .ok (some event) ⟨t.target, t.conn, cycles⟩
  | .ok none t =>
    if Target.overflowChecks = true ∧ cycles = BitVec.intMax 32 then
      .error .panic ⟨t.target, t.conn, cycles⟩
    else
      .ok none ⟨t.target, t.conn, cycles + 1⟩
  | .error e t => .error e ⟨t.target, t.conn, cycles⟩

theorem countCycle_apply (s : WaitState M F C N) : (do
      Debugger.countCycle
      return none : EStateM (WaitFault E) (WaitState M F C N) (Option Event)) s =
    counted s.cycles (.ok none s.attached) := by
  rw [bind_apply, Debugger.countCycle, bind_ok (get_apply s), counted]
  by_cases hoverflow : Target.overflowChecks = true ∧ s.cycles = BitVec.intMax 32
  · rw [if_pos hoverflow, if_pos hoverflow]
    rfl
  · rw [if_neg hoverflow, if_neg hoverflow]
    rfl

variable [ConnectionExt C E]

/-- What follows an instruction, where the counter is at `k`. -/
theorem afterInstruction_counted {s : WaitState M F C N} {k : ℕ}
    (hcycles : s.cycles = BitVec.ofNat 32 k) :
    Debugger.afterInstruction s = counted s.cycles (match s.attached.reason with
      | some event => .ok (some event) s.attached
      | none => if k % 1024 = 0 then Attached.poll s.attached else .ok none s.attached) := by
  have hreason : s.attached.reason =
      if some s.target.interpreter.programCounter ∈ s.target.breakpoints then
        some (.targetStopped .swBreak)
      else if s.target.execMode = .step then some (.targetStopped .doneStep)
      else none := rfl
  rw [Debugger.afterInstruction, bind_ok (get_apply s), hreason]
  by_cases hstop : some s.target.interpreter.programCounter ∈ s.target.breakpoints
  · rw [if_pos (Vector.contains_iff_mem.mpr hstop), if_pos hstop]
    rfl
  rw [if_neg (fun h => hstop (Vector.contains_iff_mem.mp h)), if_neg hstop]
  by_cases hstep : s.target.execMode = .step
  · rw [if_pos hstep, if_pos hstep]
    rfl
  rw [if_neg hstep, if_neg hstep]
  by_cases hcount : k % 1024 = 0
  · have hcheck : Debugger.checkIncoming (E := E) s = Debugger.peekIncoming s := by
      rw [Debugger.checkIncoming, bind_ok (get_apply s), hcycles,
        if_pos ((srem_period k).mpr hcount)]
    have hlook := readIncoming_apply (E := E) (do
      Debugger.countCycle
      return none) s
    rw [bind_apply] at hlook ⊢
    rw [hcheck, hlook, if_pos hcount]
    cases Attached.poll s.attached with
    | ok event t =>
      cases event with
      | none => exact countCycle_apply ⟨t.target, t.conn, s.cycles⟩
      | some event => rfl
    | error e t => rfl
  · have hcheck : Debugger.checkIncoming (E := E) s = .ok false s := by
      rw [Debugger.checkIncoming, bind_ok (get_apply s), hcycles,
        if_neg (fun h => hcount ((srem_period k).mp h))]
      rfl
    rw [bind_ok hcheck, if_neg Bool.false_ne_true, countCycle_apply,
      if_neg hcount]

variable [Memory M] [SyscallFnMut F M]

/-- A body of the loop is a round of the counted loop. -/
theorem waitBody_counted {s : WaitState M F C N} {k : ℕ} (hcycles : s.cycles = BitVec.ofNat 32 k) :
    Debugger.waitBody s =
      counted s.cycles (pollRound Attached.round Attached.poll 1024 k s.attached) := by
  have hguest : s.attached.guest = s.guest := rfl
  rw [Debugger.waitBody_apply, pollRound_apply, Attached.round_apply, hguest]
  cases Guest.serviced s.guest with
  | error e guest => rfl
  | ok halted guest =>
    cases halted with
    | true => rfl
    | false =>
      dsimp only
      rw [afterInstruction_counted (s := s.setGuest guest) hcycles]
      have hattached : (s.setGuest guest).attached = s.attached.setGuest guest := rfl
      rw [hattached]
      cases (s.attached.setGuest guest).reason <;> rfl

/-- As many rounds as the counter allows from `k` on: it panics where overflow is checked. -/
def Attached.rounds (k n : ℕ) : EStateM (WaitFault E) (Attached M F C N) (Option Event) :=
  if Target.overflowChecks = true ∧ 2 ^ 31 ≤ k + n then
    andThen (countUpTo (pollRound round poll 1024) k (2 ^ 31 - k)) (throw .panic)
  else
    countUpTo (pollRound round poll 1024) k n

/-- As many slices as the counter allows: it panics where overflow is checked. -/
def Attached.slices (n : ℕ) : EStateM (WaitFault E) (Attached M F C N) (Option Event) :=
  if Target.overflowChecks = true ∧ 2 ^ 21 ≤ n then
    andThen (forUpTo slice (2 ^ 21)) (throw .panic)
  else
    forUpTo slice n

omit [Target] in
theorem ofNat_eq_intMax {k : ℕ} (h : k < 2 ^ 31) :
    BitVec.ofNat 32 k = BitVec.intMax 32 ↔ k = 2 ^ 31 - 1 := by
  have hmax : (BitVec.intMax 32).toNat = 2 ^ 31 - 1 := rfl
  rw [← BitVec.toNat_inj, hmax, BitVec.toNat_ofNat, Nat.mod_eq_of_lt (by omega)]

/-- A round, and the rounds that the counter allows after it. -/
theorem Attached.rounds_succ {k : ℕ} (hk : Target.overflowChecks = true → k < 2 ^ 31) (n : ℕ) :
    rounds (M := M) (F := F) (C := C) (N := N) (E := E) k (n + 1) =
      andThen (pollRound round poll 1024 k)
        (if Target.overflowChecks = true ∧ k = 2 ^ 31 - 1 then throw .panic
          else rounds (k + 1) n) := by
  rw [rounds]
  by_cases hchecks : Target.overflowChecks = true
  · have hlt := hk hchecks
    by_cases hlast : k = 2 ^ 31 - 1
    · rw [if_pos ⟨hchecks, by omega⟩, if_pos ⟨hchecks, hlast⟩, hlast]
      exact congrArg (fun x => andThen x _) (countUpTo_one _)
    · have hgo : ¬(Target.overflowChecks = true ∧ k = 2 ^ 31 - 1) := fun h => hlast h.2
      rw [if_neg hgo, rounds]
      by_cases hend : 2 ^ 31 ≤ k + (n + 1)
      · have hend' : 2 ^ 31 ≤ k + 1 + n := by omega
        have hsplit : 2 ^ 31 - k = 2 ^ 31 - (k + 1) + 1 := by omega
        rw [if_pos ⟨hchecks, hend⟩, if_pos ⟨hchecks, hend'⟩, hsplit, countUpTo, andThen_assoc]
      · have hend' : ¬2 ^ 31 ≤ k + 1 + n := by omega
        rw [if_neg (fun h => hend h.2), if_neg (fun h => hend' h.2), countUpTo]
  · have hno (p : Prop) : ¬(Target.overflowChecks = true ∧ p) := fun h => hchecks h.1
    rw [if_neg (hno _), if_neg (hno _), rounds, if_neg (hno _), countUpTo]

/-- The loop of the debugger is the counted loop. -/
theorem forUpTo_waitBody {n k : ℕ} {s : WaitState M F C N} (hcycles : s.cycles = BitVec.ofNat 32 k)
    (hk : Target.overflowChecks = true → k < 2 ^ 31) :
    (forUpTo Debugger.waitBody n s).mapState WaitState.attached =
      Attached.rounds (E := E) k n s.attached := by
  induction n generalizing k s with
  | zero =>
    have hend : ¬(Target.overflowChecks = true ∧ 2 ^ 31 ≤ k + 0) := by
      rintro ⟨hchecks, hge⟩
      have hlt := hk hchecks
      omega
    rw [Attached.rounds, if_neg hend]
    rfl
  | succ n ih =>
    rw [forUpTo_succ, waitBody_counted hcycles, Attached.rounds_succ hk, andThen_apply]
    cases pollRound Attached.round Attached.poll 1024 k s.attached with
    | error e t => rfl
    | ok event t =>
      cases event with
      | some event => rfl
      | none =>
        rw [counted]
        by_cases hoverflow : Target.overflowChecks = true ∧ k = 2 ^ 31 - 1
        · have hmax : s.cycles = BitVec.intMax 32 := by
            rw [hcycles, ofNat_eq_intMax (by omega)]
            exact hoverflow.2
          rw [if_pos hoverflow]
          simp only [if_pos (And.intro hoverflow.1 hmax)]
          rfl
        · have hgo : ¬(Target.overflowChecks = true ∧ s.cycles = BitVec.intMax 32) := by
            rintro ⟨hchecks, hmax⟩
            rw [hcycles, ofNat_eq_intMax (hk hchecks)] at hmax
            exact hoverflow ⟨hchecks, hmax⟩
          have hnext : s.cycles + 1 = BitVec.ofNat 32 (k + 1) := by
            rw [hcycles, BitVec.ofNat_add]
            rfl
          rw [if_neg hoverflow]
          simp only [if_neg hgo]
          apply ih hnext
          intro hchecks
          have hlt := hk hchecks
          by_contra hge
          exact hoverflow ⟨hchecks, by omega⟩

/-- The counted loop is a loop of slices. -/
theorem Attached.rounds_eq_slices (n : ℕ) :
    rounds (M := M) (F := F) (C := C) (N := N) (E := E) 0 (1024 * n) = slices n := by
  have hslices (m : ℕ) : countUpTo (pollRound round poll 1024) 0 (1024 * m) =
      forUpTo (slice (M := M) (F := F) (C := C) (N := N) (E := E)) m :=
    countUpTo_pollRound (by decide) m
  rw [rounds, slices]
  by_cases hend : Target.overflowChecks = true ∧ 2 ^ 21 ≤ n
  · rw [if_pos ⟨hend.1, by omega⟩, if_pos hend, ← hslices]
    rfl
  · rw [if_neg (fun h => hend ⟨h.1, by omega⟩), if_neg hend, hslices]

/-- A wait is a loop of slices, which panics after `2 ^ 21` of them where overflow is
checked. -/
theorem waitForStopReason_eq (target : Debugger M F N) (conn : C) (n : ℕ) :
    (target.waitForStopReason (E := E) (1024 * n) conn).map
        (fun r => r.mapState WaitState.attached) =
      stopped (Attached.slices n ⟨target, conn⟩) := by
  have hcounted := forUpTo_waitBody (E := E) (n := 1024 * n) (k := 0) (s := ⟨target, conn, 0⟩) rfl
    (fun _ => by decide)
  rw [Debugger.waitForStopReason, loopFuel_eq_stopped, ← Lib.stopped_mapState, hcounted,
    Attached.rounds_eq_slices]
  rfl

end Counter

end Embive
