import Embive.Debugger

/-! # Breakpoints

The table of the debugger is a multiset of addresses, to which a call adds one copy and from
which a call takes one copy away. While it waits, the debugger steps the guest as the host
would, and stops at the addresses in the table. They are the set of the addresses that were
added and not removed since, and those of which a removal has left a copy.
-/

namespace Embive

open EStateM Lib

variable {M F C E : Type} {N : ℕ}

section Calls

/-- A call of the stub. -/
inductive BreakpointCall where
  | add (addr : U32)
  | remove (addr : U32)
  deriving DecidableEq

/-- The addresses that were added and not removed since. -/
def active (calls : List BreakpointCall) : Finset U32 :=
  calls.foldl (fun set call => match call with
    | .add addr => insert addr set
    | .remove addr => set.erase addr) ∅

/-- The addresses with every copy that was added and not taken away. -/
def inserted (calls : List BreakpointCall) : Multiset U32 :=
  calls.foldl (fun copies call => match call with
    | .add addr => addr ::ₘ copies
    | .remove addr => copies.erase addr) 0

/-- A removal has left a copy of the address. -/
def Leftover (calls : List BreakpointCall) (addr : U32) : Prop :=
  addr ∈ inserted calls ∧ addr ∉ active calls

/-- The debugger after these calls, of which every addition returned `true`. Between them
the stub does what does not concern the breakpoints: it reads and writes registers and
memory, resumes and waits. -/
inductive Session : List BreakpointCall → Debugger M F N → Prop
  | new (memory : M) (syscallFn : F) : Session [] (Debugger.new memory syscallFn)
  | add {calls : List BreakpointCall} {target target' : Debugger M F N} {addr : U32}
      (h : Session calls target) (hadd : target.addSwBreakpoint addr = (true, target')) :
      Session (calls ++ [.add addr]) target'
  | remove {calls : List BreakpointCall} {target : Debugger M F N} (h : Session calls target)
      (addr : U32) : Session (calls ++ [.remove addr]) (target.removeSwBreakpoint addr).2
  | other {calls : List BreakpointCall} {target target' : Debugger M F N}
      (h : Session calls target) (hother : target'.breakpoints = target.breakpoints) :
      Session calls target'

variable {calls : List BreakpointCall} {target target' : Debugger M F N} {addr : U32}

theorem active_concat (call : BreakpointCall) : active (calls ++ [call]) = match call with
    | .add addr => insert addr (active calls)
    | .remove addr => (active calls).erase addr := by
  rw [active, List.foldl_append]
  rfl

theorem inserted_concat (call : BreakpointCall) : inserted (calls ++ [call]) = match call with
    | .add addr => addr ::ₘ inserted calls
    | .remove addr => (inserted calls).erase addr := by
  rw [inserted, List.foldl_append]
  rfl

/-- An address that is active has a copy. -/
theorem mem_inserted_of_active (h : addr ∈ active calls) : addr ∈ inserted calls := by
  induction calls using List.reverseRecOn with
  | nil => cases h
  | append_singleton calls call ih =>
    rw [active_concat] at h
    rw [inserted_concat]
    cases call with
    | add addr' =>
      rcases Finset.mem_insert.mp h with rfl | h
      · exact Multiset.mem_cons_self _ _
      · exact Multiset.mem_cons_of_mem (ih h)
    | remove addr' =>
      obtain ⟨hne, h⟩ := Finset.mem_erase.mp h
      exact (Multiset.mem_erase_of_ne hne).mpr (ih h)

/-- No address is added while it is active. -/
def AddsFresh (calls : List BreakpointCall) : Prop :=
  ∀ before addr after, calls = before ++ .add addr :: after → addr ∉ active before

/-- Without repeated additions there is one copy of every active address and no other. -/
theorem AddsFresh.inserted_eq (h : AddsFresh calls) : inserted calls = (active calls).val := by
  induction calls using List.reverseRecOn with
  | nil => rfl
  | append_singleton calls call ih =>
    have hcalls : AddsFresh calls := by
      rintro before addr after rfl
      exact h before addr (after ++ [call]) (by simp)
    rw [inserted_concat, active_concat, ih hcalls]
    cases call with
    | add addr => exact (Finset.insert_val_of_notMem (h calls addr [] rfl)).symm
    | remove addr => rfl

theorem AddsFresh.not_leftover (h : AddsFresh calls) : ¬Leftover calls addr := by
  rintro ⟨hmem, hnot⟩
  rw [h.inserted_eq] at hmem
  exact hnot hmem

/-- A call that adds takes a free slot. -/
theorem Debugger.contents_add (h : target.addSwBreakpoint addr = (true, target')) :
    SlotTable.contents target'.breakpoints = addr ::ₘ SlotTable.contents target.breakpoints := by
  unfold addSwBreakpoint at h
  cases hfind : target.breakpoints.findFinIdx? Option.isNone with
  | none =>
    rw [hfind] at h
    cases h
  | some i =>
    have hfree := Option.isNone_iff_eq_none.mp (SlotTable.of_findFinIdx? hfind)
    rw [hfind] at h
    cases h
    exact SlotTable.contents_fill hfree addr

theorem Debugger.contents_remove (target : Debugger M F N) (addr : U32) :
    SlotTable.contents (target.removeSwBreakpoint addr).2.breakpoints =
      (SlotTable.contents target.breakpoints).erase addr := by
  unfold removeSwBreakpoint
  cases hfind : target.breakpoints.findFinIdx? (fun b => b = some addr) with
  | none =>
    have habsent : addr ∉ SlotTable.contents target.breakpoints := by
      rw [SlotTable.mem_contents]
      intro hmem
      exact Vector.findFinIdx?_eq_none_iff.mp hfind _ hmem (decide_eq_true rfl)
    exact (Multiset.erase_of_notMem habsent).symm
  | some i => exact SlotTable.contents_free (of_decide_eq_true (SlotTable.of_findFinIdx? hfind))

/-- The slots hold the addresses with every copy. -/
theorem Session.contents (h : Session calls target) :
    SlotTable.contents target.breakpoints = inserted calls := by
  induction h with
  | new => exact SlotTable.contents_replicate
  | add _ hadd ih => rw [Debugger.contents_add hadd, ih, inserted_concat]
  | remove _ addr ih => rw [Debugger.contents_remove, ih, inserted_concat]
  | other _ hother ih => rw [hother, ih]

end Calls

section Reference

variable [Memory M] [SyscallFnMut F M]

/-- A step of the guest with its system call answered, or an interrupt where it waits for
one, and whether it halted. -/
def Guest.serviced : EStateM Error (Guest M F) Bool := do
  match ← onInterpreter Interpreter.step with
  | .running => return false
  | .halted => return true
  | .called =>
    syscall
    return false
  | .waiting =>
    onInterpreter (Interpreter.interrupt 0)
    return false

/-- Step the guest, and stop when it halts or arrives at one of the addresses. -/
def Guest.round (breakpoints : Finset U32) :
    EStateM (WaitFault E) (Guest M F) (Option Event) := do
  if ← serviced.adaptExcept (fun e => .error (.target e)) then
    return some (.targetStopped (.terminated .sigstop))
  else if (← get).interpreter.programCounter ∈ breakpoints then
    return some (.targetStopped .swBreak)
  else
    return none

/-- Step the guest until it halts, fails, or arrives at one of the addresses. -/
def Guest.runTo (breakpoints : Finset U32) (fuel : ℕ) (guest : Guest M F) :
    Option (Result (WaitFault E) (Guest M F) Event) :=
  loopFuel (round breakpoints) fuel guest

theorem Guest.round_apply (breakpoints : Finset U32) (guest : Guest M F) :
    round (E := E) breakpoints guest = match serviced guest with
      | .ok true guest => .ok (some (.targetStopped (.terminated .sigstop))) guest
      | .ok false guest =>
        if guest.interpreter.programCounter ∈ breakpoints then
          .ok (some (.targetStopped .swBreak)) guest
        else
          .ok none guest
      | .error e guest => .error (.error (.target e)) guest := by
  rw [round, bind_apply, adaptExcept_apply]
  cases serviced guest with
  | error e guest => rfl
  | ok halted guest =>
    cases halted with
    | true => rfl
    | false =>
      dsimp only
      rw [if_neg Bool.false_ne_true, bind_ok (get_apply guest)]
      split_ifs <;> rfl

theorem Guest.round_none {breakpoints : Finset U32} {guest guest' : Guest M F}
    (h : round (E := E) breakpoints guest = .ok none guest') :
    serviced guest = .ok false guest' ∧ guest'.interpreter.programCounter ∉ breakpoints := by
  rw [round_apply] at h
  cases hserviced : serviced guest with
  | error e guest => rw [hserviced] at h; cases h
  | ok halted guest =>
    rw [hserviced] at h
    cases halted with
    | true => cases h
    | false =>
      dsimp only at h
      split_ifs at h with hmem
      · cases h
      · cases h
        exact ⟨rfl, hmem⟩

variable (E)

/-- The guest arrives at the address before it stops. -/
def Guest.ArrivesAt (breakpoints : Finset U32) (guest : Guest M F) (addr : U32) : Prop :=
  ∃ k t, 0 < k ∧ forUpTo (round (E := E) breakpoints) k guest = .ok none t ∧
    t.interpreter.programCounter = addr

/-- The guest stops within so many rounds. -/
def Guest.StopsWithin (breakpoints : Finset U32) (k : ℕ) (guest : Guest M F) : Prop :=
  ∀ t, forUpTo (round (E := E) breakpoints) k guest ≠ .ok none t

end Reference

section Wait

variable [ConnectionExt C E]

/-- The connection has no incoming data, however often it is looked at. -/
def Quiet (conn : C) : Prop :=
  ∃ I : C → Prop, I conn ∧ ∀ c, I c → ∃ c', ConnectionExt.peek c = .ok none c' ∧ I c'

theorem Quiet.peek {conn : C} (h : Quiet conn) :
    ∃ conn', ConnectionExt.peek conn = .ok none conn' ∧ Quiet conn' := by
  obtain ⟨I, hconn, hpeek⟩ := h
  obtain ⟨conn', hpeek', hconn'⟩ := hpeek conn hconn
  exact ⟨conn', hpeek', I, hconn', hpeek⟩

variable {s : WaitState M F C N}

theorem Quiet.checkIncoming (h : Quiet s.conn) : ∃ conn', Quiet conn' ∧
    Debugger.checkIncoming s = .ok false { s with conn := conn' } := by
  obtain ⟨conn', hpeek, hconn'⟩ := h.peek
  unfold Debugger.checkIncoming
  rw [bind_ok (get_apply s)]
  by_cases hcycles : s.cycles.srem 1024 = 0
  · refine ⟨conn', hconn', ?_⟩
    rw [if_pos hcycles, Debugger.peekIncoming, hpeek]
    rfl
  · refine ⟨s.conn, h, ?_⟩
    rw [if_neg hcycles]
    rfl

namespace Debugger

omit [ConnectionExt C E] in
theorem onTarget_apply {α : Type} (x : EStateM Error (Guest M F) α) (s : WaitState M F C N) :
    onTarget (E := E) x s = match x s.guest with
      | .ok a guest => .ok a (s.setGuest guest)
      | .error e guest => .error (.error (.target e)) (s.setGuest guest) := by
  rw [onTarget, adaptExcept_apply, onPart_apply]
  cases x s.guest <;> rfl

variable [Target]

/-- What follows an instruction in `Run` mode on a quiet connection. -/
theorem afterInstruction_apply (hmode : s.target.execMode = .run) (hquiet : Quiet s.conn) :
    ∃ conn', Quiet conn' ∧ afterInstruction s =
      if some s.target.interpreter.programCounter ∈ s.target.breakpoints then
        .ok (some (.targetStopped .swBreak)) s
      else if Target.overflowChecks = true ∧ s.cycles = BitVec.intMax 32 then
        .error .panic { s with conn := conn' }
      else
        .ok none { s with conn := conn', cycles := s.cycles + 1 } := by
  obtain ⟨conn', hconn', hcheck⟩ := hquiet.checkIncoming
  refine ⟨conn', hconn', ?_⟩
  unfold afterInstruction
  rw [bind_ok (get_apply s)]
  by_cases hstop : some s.target.interpreter.programCounter ∈ s.target.breakpoints
  · rw [if_pos hstop, if_pos (Vector.contains_iff_mem.mpr hstop)]
    rfl
  · have hcontains : ¬s.target.breakpoints.contains
        (some s.target.interpreter.programCounter) = true :=
      fun h => hstop (Vector.contains_iff_mem.mp h)
    have hrun : ¬s.target.execMode = .step := by
      rw [hmode]
      decide
    rw [if_neg hstop, if_neg hcontains, if_neg hrun, bind_ok hcheck, if_neg Bool.false_ne_true,
      bind_apply, countCycle, bind_ok (get_apply _)]
    by_cases hoverflow : Target.overflowChecks = true ∧ s.cycles = BitVec.intMax 32
    · rw [if_pos hoverflow, if_pos hoverflow]
      rfl
    · rw [if_neg hoverflow, if_neg hoverflow]
      rfl

variable [Memory M] [SyscallFnMut F M]

/-- The body of the loop is a step of the guest, and what follows it unless it halted. -/
theorem waitBody_apply (s : WaitState M F C N) :
    waitBody s = match Guest.serviced s.guest with
      | .ok true guest => .ok (some (.targetStopped (.terminated .sigstop))) (s.setGuest guest)
      | .ok false guest => afterInstruction (s.setGuest guest)
      | .error e guest => .error (.error (.target e)) (s.setGuest guest) := by
  rw [waitBody, bind_apply, onTarget_apply, Guest.serviced, bind_apply]
  cases Guest.onInterpreter Interpreter.step s.guest with
  | error e guest => rfl
  | ok state guest =>
    cases state with
    | running => rfl
    | halted => rfl
    | called =>
      dsimp only
      rw [bind_apply, onTarget_apply, bind_apply, WaitState.guest_setGuest]
      cases Guest.syscall guest <;> rfl
    | waiting =>
      dsimp only
      rw [bind_apply, onTarget_apply, bind_apply, WaitState.guest_setGuest]
      cases Guest.onInterpreter (Interpreter.interrupt 0) guest <;> rfl

/-- A round in `Run` mode on a quiet connection that goes on. -/
structure GoesOn (s u : WaitState M F C N) : Prop where
  serviced : Guest.serviced s.guest = .ok false u.guest
  notStopped : some u.guest.interpreter.programCounter ∉ s.target.breakpoints
  checked : Target.overflowChecks = true → s.cycles ≠ BitVec.intMax 32
  breakpoints : u.target.breakpoints = s.target.breakpoints
  execMode : u.target.execMode = .run
  quiet : Quiet u.conn
  cycles : u.cycles = s.cycles + 1

/-- A round goes on, or ends with one of the events. -/
theorem waitBody_none {u : WaitState M F C N} (hmode : s.target.execMode = .run)
    (hquiet : Quiet s.conn) (h : waitBody s = .ok none u) : GoesOn s u := by
  rw [waitBody_apply] at h
  cases hserviced : Guest.serviced s.guest with
  | error e guest =>
    rw [hserviced] at h
    cases h
  | ok halted guest =>
    rw [hserviced] at h
    cases halted with
    | true => cases h
    | false =>
      obtain ⟨conn', hconn', hafter⟩ := afterInstruction_apply (s := s.setGuest guest) hmode hquiet
      dsimp only at h
      rw [hafter] at h
      split_ifs at h with hstop hoverflow
      · cases h
      · cases h
        refine ⟨hserviced, hstop, ?_, rfl, hmode, hconn', rfl⟩
        intro hchecks hmax
        exact hoverflow ⟨hchecks, hmax⟩

/-- The state after rounds that all went on, next to the guest that stops at the set. -/
structure Stepped (breakpoints : Finset U32) (s : WaitState M F C N) (k : ℕ)
    (t : WaitState M F C N) : Prop where
  plain : forUpTo (Guest.round (E := E) breakpoints) k s.guest = .ok none t.guest
  notStopped : 0 < k → some t.guest.interpreter.programCounter ∉ s.target.breakpoints
  checked : Target.overflowChecks = true → k < 2 ^ 31
  breakpoints : t.target.breakpoints = s.target.breakpoints
  execMode : t.target.execMode = .run
  quiet : Quiet t.conn
  cycles : t.cycles = BitVec.ofNat 32 k

variable {breakpoints : Finset U32} {t u : WaitState M F C N} {k : ℕ}

theorem GoesOn.stepped (hset : ∀ addr ∈ breakpoints, some addr ∈ s.target.breakpoints)
    (ht : Stepped breakpoints s k t) (h : GoesOn t u) : Stepped breakpoints s (k + 1) u := by
  have hnot : some u.guest.interpreter.programCounter ∉ s.target.breakpoints :=
    ht.breakpoints ▸ h.notStopped
  refine ⟨?_, fun _ => hnot, ?_, h.breakpoints.trans ht.breakpoints, h.execMode, h.quiet, ?_⟩
  · rw [forUpTo_succ_of_none ht.plain, Guest.round_apply, h.serviced]
    exact if_neg (fun hmem => hnot (hset _ hmem))
  · intro hchecks
    have hlt := ht.checked hchecks
    have hmax := h.checked hchecks
    rw [ht.cycles] at hmax
    by_contra hge
    have hk : k = 2 ^ 31 - 1 := by omega
    rw [hk] at hmax
    exact hmax rfl
  · rw [h.cycles, ht.cycles, BitVec.ofNat_add]
    rfl

/-- After any number of rounds that went on. -/
theorem stepped_of_forUpTo (hset : ∀ addr ∈ breakpoints, some addr ∈ s.target.breakpoints)
    (hmode : s.target.execMode = .run) (hquiet : Quiet s.conn) (hcycles : s.cycles = 0)
    (h : forUpTo waitBody k s = .ok none t) : Stepped breakpoints s k t := by
  induction k generalizing t with
  | zero =>
    cases h
    exact ⟨rfl, fun hpos => absurd hpos (lt_irrefl 0), fun _ => by decide, rfl, hmode, hquiet,
      hcycles⟩
  | succ k ih =>
    obtain ⟨v, hv, hlast⟩ := forUpTo_pred h
    have hstepped := ih hv
    exact (waitBody_none hstepped.execMode hstepped.quiet hlast).stepped hset hstepped

/-- A round does to the guest what its own round does, where the debugger stops at the same
addresses and can count the round. -/
theorem waitBody_project (hset : ∀ addr ∈ breakpoints, some addr ∈ s.target.breakpoints)
    (hmode : s.target.execMode = .run) (hquiet : Quiet s.conn)
    (hon : ∀ guest, Guest.round (E := E) breakpoints s.guest = .ok none guest →
      some guest.interpreter.programCounter ∉ s.target.breakpoints ∧
        ¬(Target.overflowChecks = true ∧ s.cycles = BitVec.intMax 32)) :
    (waitBody s).mapState WaitState.guest = Guest.round breakpoints s.guest := by
  rw [waitBody_apply]
  rw [Guest.round_apply] at hon ⊢
  cases hserviced : Guest.serviced s.guest with
  | error e guest => rfl
  | ok halted guest =>
    rw [hserviced] at hon
    cases halted with
    | true => rfl
    | false =>
      obtain ⟨conn', -, hafter⟩ := afterInstruction_apply (s := s.setGuest guest) hmode hquiet
      dsimp only at hon ⊢
      rw [hafter]
      by_cases hmem : guest.interpreter.programCounter ∈ breakpoints
      · have hstop : some (s.setGuest guest).target.interpreter.programCounter ∈
            (s.setGuest guest).target.breakpoints := hset _ hmem
        rw [if_pos hmem, if_pos hstop]
        rfl
      · obtain ⟨hnot, hcount⟩ := hon guest (if_neg hmem)
        have hgo : some (s.setGuest guest).target.interpreter.programCounter ∉
            (s.setGuest guest).target.breakpoints := hnot
        have hcount' : ¬(Target.overflowChecks = true ∧
            (s.setGuest guest).cycles = BitVec.intMax 32) := hcount
        rw [if_neg hmem, if_neg hgo, if_neg hcount']
        rfl

end Debugger

variable [Target] [Memory M] [SyscallFnMut F M]

/-- Waiting does to the guest what stepping it until it arrives at one of the addresses does,
with the same outcome. -/
def Agrees (target : Debugger M F N) (conn : C) (breakpoints : Finset U32) : Prop :=
  ∀ fuel, (target.waitForStopReason fuel conn).map (fun r => r.mapState WaitState.guest) =
    target.guest.runTo breakpoints fuel

section Session

variable {calls : List BreakpointCall} {target : Debugger M F N} {conn : C}

omit [ConnectionExt C E] [Target] [Memory M] [SyscallFnMut F M] in
theorem Session.active_set (h : Session calls target) :
    ∀ addr ∈ active calls, some addr ∈ target.breakpoints := by
  intro addr hmem
  rw [← SlotTable.mem_contents, h.contents]
  exact mem_inserted_of_active hmem

/-- Where the debugger agrees, it goes on as long as the guest does. -/
theorem Agrees.stepped (h : Agrees target conn (active calls)) (hsession : Session calls target)
    (hmode : target.execMode = .run) (hquiet : Quiet conn) {k : ℕ} {guest : Guest M F}
    (hguest : forUpTo (Guest.round (E := E) (active calls)) k target.guest = .ok none guest) :
    ∃ t, Debugger.Stepped (active calls) ⟨target, conn, 0⟩ k t ∧ t.guest = guest := by
  have hfuel := h k
  rw [Debugger.waitForStopReason, Guest.runTo, loopFuel_eq_stopped, loopFuel_eq_stopped, hguest,
    stopped_ok_none, Option.map_eq_none_iff] at hfuel
  obtain ⟨t, ht⟩ := of_stopped_eq_none hfuel
  have hstepped := Debugger.stepped_of_forUpTo hsession.active_set hmode hquiet rfl ht
  refine ⟨t, hstepped, ?_⟩
  cases hstepped.plain.symm.trans hguest
  rfl

/-- Where the guest meets no leftover and the count does not overflow, the debugger agrees. -/
theorem agrees_of_misses (hsession : Session calls target) (hmode : target.execMode = .run)
    (hquiet : Quiet conn)
    (hmiss : ∀ addr, Leftover calls addr → ¬target.guest.ArrivesAt E (active calls) addr)
    (hcount : Target.overflowChecks = true →
      target.guest.StopsWithin E (active calls) (2 ^ 31)) :
    Agrees target conn (active calls) := by
  intro fuel
  rw [Debugger.waitForStopReason, Guest.runTo, loopFuel_eq_stopped, loopFuel_eq_stopped,
    ← stopped_mapState]
  apply congrArg stopped
  apply forUpTo_project
  intro k _ t hwait hplain
  have hstepped : Debugger.Stepped (active calls) ⟨target, conn, 0⟩ k t :=
    Debugger.stepped_of_forUpTo hsession.active_set hmode hquiet rfl hwait
  apply Debugger.waitBody_project (hstepped.breakpoints ▸ hsession.active_set) hstepped.execMode
    hstepped.quiet
  intro guest hround
  have hnext := (forUpTo_succ_of_none hplain).trans hround
  constructor
  · rw [hstepped.breakpoints, ← SlotTable.mem_contents, hsession.contents]
    intro hmem
    have hleft : Leftover calls guest.interpreter.programCounter :=
      ⟨hmem, (Guest.round_none hround).2⟩
    exact hmiss _ hleft ⟨k + 1, guest, Nat.succ_pos k, hnext, rfl⟩
  · rintro ⟨hchecks, hmax⟩
    have hk : k + 1 = 2 ^ 31 := by
      have hlt := hstepped.checked hchecks
      have hlast : (BitVec.intMax 32).toNat = 2 ^ 31 - 1 := rfl
      have htoNat := congrArg BitVec.toNat (hstepped.cycles.symm.trans hmax)
      rw [hlast, BitVec.toNat_ofNat, Nat.mod_eq_of_lt (by omega)] at htoNat
      omega
    rw [hk] at hnext
    exact hcount hchecks guest hnext

/-- When no address is added while it is active, the debugger stops at the set of the active
addresses. -/
theorem agrees_of_fresh (hsession : Session calls target) (hmode : target.execMode = .run)
    (hquiet : Quiet conn) (hfresh : AddsFresh calls)
    (hcount : Target.overflowChecks = true →
      target.guest.StopsWithin E (active calls) (2 ^ 31)) :
    Agrees target conn (active calls) := by
  apply agrees_of_misses hsession hmode hquiet _ hcount
  intro addr hleft
  exact absurd hleft hfresh.not_leftover

/-- The debugger agrees with a stop at the set of the addresses that were added and not
removed since if and only if the guest does not arrive before at an address of which a
removal has left a copy, and stops before the count of the instructions overflows where that
is checked. -/
theorem agrees_iff (hsession : Session calls target) (hmode : target.execMode = .run)
    (hquiet : Quiet conn) :
    Agrees target conn (active calls) ↔
      (∀ addr, Leftover calls addr → ¬target.guest.ArrivesAt E (active calls) addr) ∧
        (Target.overflowChecks = true →
          target.guest.StopsWithin E (active calls) (2 ^ 31)) := by
  constructor
  · intro h
    constructor
    · rintro addr ⟨hmem, -⟩ ⟨k, guest, hpos, hguest, rfl⟩
      obtain ⟨t, hstepped, rfl⟩ := h.stepped hsession hmode hquiet hguest
      rw [← hsession.contents, SlotTable.mem_contents] at hmem
      exact hstepped.notStopped hpos hmem
    · intro hchecks guest hguest
      obtain ⟨t, hstepped, -⟩ := h.stepped hsession hmode hquiet hguest
      exact lt_irrefl _ (hstepped.checked hchecks)
  · rintro ⟨hmiss, hcount⟩
    exact agrees_of_misses hsession hmode hquiet hmiss hcount

end Session

end Wait

/-- A connection that never has data. -/
@[reducible] def ConnectionExt.silent : ConnectionExt Unit Unit where
  peek := pure none
  read := throw ⟨⟩

/-- A closure that captures nothing and answers every call with zero. -/
@[reducible] def SyscallFnMut.zero : SyscallFnMut Unit SliceMemory where
  function _ _ _ := pure (.ok 0)
  afterCall _ _ _ _ := ⟨⟩

/-- A debugger for code that starts with a `c.nop`. -/
def nopDebugger : Debugger SliceMemory Unit 4 := .new ⟨[0x03, 0x00, 0x03, 0x00], []⟩ ⟨⟩

/-- The same debugger with other breakpoints. -/
def slotsWith (breakpoints : Vector (Option U32) 4) : Debugger SliceMemory Unit 4 :=
  { nopDebugger with breakpoints }

theorem session_addedOnce : Session [.add 2] (slotsWith #v[some 2, none, none, none]) := by
  have hadd : nopDebugger.addSwBreakpoint 2 =
      (true, slotsWith #v[some 2, none, none, none]) := by
    with_unfolding_all rfl
  exact (Session.new _ _).add hadd

theorem session_removedOnce :
    Session [.add 2, .add 2, .remove 2] (slotsWith #v[none, some 2, none, none]) := by
  have hadd : (slotsWith #v[some 2, none, none, none]).addSwBreakpoint 2 =
      (true, slotsWith #v[some 2, some 2, none, none]) := by
    with_unfolding_all rfl
  have hremove : (slotsWith #v[some 2, some 2, none, none]).removeSwBreakpoint 2 =
      (true, slotsWith #v[none, some 2, none, none]) := by
    with_unfolding_all rfl
  have hsession := (session_addedOnce.add hadd).remove 2
  rw [hremove] at hsession
  exact hsession

theorem quiet_silent : letI := ConnectionExt.silent
    Quiet (C := Unit) (E := Unit) () := by
  let _ := ConnectionExt.silent
  exact ⟨fun _ => True, trivial, fun c _ => ⟨c, rfl, trivial⟩⟩

/-- Waiting stops after the `c.nop` at an address that was added twice and removed once,
where plain execution goes on. -/
theorem removedOnce_not_agrees : letI := Target.release64
    letI := ConnectionExt.silent
    letI := SyscallFnMut.zero
    Session [.add 2, .add 2, .remove 2] (slotsWith #v[none, some 2, none, none]) ∧
      Quiet (C := Unit) (E := Unit) () ∧
      ¬Agrees (slotsWith #v[none, some 2, none, none]) ()
        (active [.add 2, .add 2, .remove 2]) := by
  let _ := Target.release64
  let _ := ConnectionExt.silent
  let _ := SyscallFnMut.zero
  refine ⟨session_removedOnce, quiet_silent, ?_⟩
  intro h
  have hone := congrArg Option.isSome (h 1)
  revert hone
  with_unfolding_all decide

theorem agrees_iff_addedOnce : letI := Target.release64
    letI := ConnectionExt.silent
    letI := SyscallFnMut.zero
    Agrees (slotsWith #v[some 2, none, none, none]) () (active [.add 2]) := by
  let _ := Target.release64
  let _ := ConnectionExt.silent
  let _ := SyscallFnMut.zero
  apply (agrees_iff session_addedOnce rfl quiet_silent).mpr
  constructor
  · rintro addr ⟨hmem, hnot⟩
    exact absurd hmem hnot
  · intro hchecks
    cases hchecks

end Embive
