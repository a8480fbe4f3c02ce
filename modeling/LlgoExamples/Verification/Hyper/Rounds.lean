import LlgoExamples.Verification.Hyper.Port
import LlgoExamples.Verification.Hyper.Upload

/-! # Rounds of `select`

Where `select` reports only what was asked for and is ready, a round that goes on has a
waker to wake. The wakers in the slots pay for the rounds, and each call that would block
pays for one waker, so no program spins. -/

namespace LlgoExamples.Hyper

open Machine

/-! ## The slots pay -/

namespace Connection

variable {c : Connection} {dir : Direction} {ready : Readiness}

/-- The descriptor of the connection was asked for and is ready. -/
def Served (c : Connection) (ready : Readiness) : Prop :=
  c.data.fd ∈ c.fdSet .read ∩ ready.read ∨ c.data.fd ∈ c.fdSet .write ∩ ready.write

instance (c : Connection) (ready : Readiness) : Decidable (c.Served ready) :=
  inferInstanceAs (Decidable (_ ∨ _))

theorem length_slots (c : Connection) (dir : Direction) :
    c.slots.length = (c.held dir).length + (c.held dir.flip).length := by
  rw [(c.slots_perm dir).length_eq, List.length_append]

theorem length_held_le (c : Connection) (dir : Direction) : (c.held dir).length ≤ 1 := by
  rw [held]
  cases c.data.waker dir with
  | none => exact Nat.zero_le 1
  | some w => exact Nat.le_refl 1

theorem length_slots_wake (c : Connection) (dir : Direction) (h : c.data.waker dir ≠ none) :
    (c.wake dir).slots.length + 1 = c.slots.length := by
  obtain ⟨w, hw⟩ := Option.ne_none_iff_exists'.1 h
  have hheld : (c.held dir).length = 1 := by
    rw [held, hw]
    rfl
  have hempty : ((c.wake dir).held dir).length = 0 := by
    rw [wake, held_store_same]
    rfl
  have hkept : (c.wake dir).held dir.flip = c.held dir.flip := by
    rw [wake, held_store_flip]
    rfl
  rw [length_slots _ dir, length_slots c dir, hheld, hempty, hkept]
  omega

theorem length_slots_newWaker (c : Connection) (dir : Direction) :
    ((c.freeWaker dir).newWaker dir).slots.length ≤ c.slots.length + 1 := by
  have hheld := length_held_le ((c.freeWaker dir).newWaker dir) dir
  have hkept : ((c.freeWaker dir).newWaker dir).held dir.flip = c.held dir.flip := by
    rw [newWaker, held_store_flip, held, held, data_record, data_freeWaker]
  rw [length_slots _ dir, length_slots c dir, hkept]
  omega

theorem length_slots_woken (h : c.Served ready) :
    (C.woken ready c).slots.length + 1 ≤ c.slots.length := by
  simp only [C.woken]
  by_cases hread : c.data.fd ∈ c.fdSet .read ∩ ready.read
  · have hwoken := length_slots_wake c .read (waker_ne_none_of_mem_fdSet hread)
    rw [if_pos hread]
    split
    · rename_i hwrite
      have hother : (c.wake .read).data.waker .write = c.data.waker .write := rfl
      have hboth := length_slots_wake (c.wake .read) .write
        (by rw [hother]; exact waker_ne_none_of_mem_fdSet hwrite)
      omega
    · omega
  · have hwrite := h.resolve_left hread
    have hwoken := length_slots_wake c .write (waker_ne_none_of_mem_fdSet hwrite)
    rw [if_neg hread, if_pos hwrite]
    omega

/-- A round that ends in a panic leaves the slots as they are. -/
theorem selectRound_failed (h : ¬ 0 < ready.ret) :
    (c.selectRound ready).2 = c.record (.select c.selectCall) := by
  by_cases hneg : ready.ret < 0
  · rw [selectRound, if_pos hneg]
  · have hzero : ready.ret = 0 := by omega
    rw [selectRound, if_neg hneg, if_pos hzero]

end Connection

/-- The result of a call that would block. -/
def wouldBlock (ret errno : ℤ) : Bool :=
  ret < 0 ∧ errno = eagain

theorem Connection.length_slots_ioCallBack (dir : Direction) (fail : String) (ret errno : ℤ)
    (c : Connection) : (ioCallBack dir fail ret errno c).2.slots.length ≤
      c.slots.length + if wouldBlock ret errno then 1 else 0 := by
  rw [ioCallBack]
  by_cases hret : 0 ≤ ret
  · rw [if_pos hret]
    exact Nat.le_add_right _ _
  · by_cases herrno : errno ≠ eagain
    · rw [if_neg hret, if_pos herrno]
      exact Nat.le_add_right _ _
    · have hblock : wouldBlock ret errno = true := by
        rw [wouldBlock, decide_eq_true_eq]
        exact ⟨by omega, not_not.1 herrno⟩
      rw [if_neg hret, if_neg herrno, if_pos hblock]
      exact length_slots_newWaker c dir

/-! ## The Go client -/

section Get

/-- A call of a callback that would block. -/
def Input.blocks : Input → Bool
  | .readCallBack ret errno => wouldBlock ret errno
  | .writeCallBack ret errno => wouldBlock ret errno
  | _ => false

/-- A round of `select` after which the loop goes on. -/
def Input.rounds : Input → Bool
  | .select ready => 0 < ready.ret
  | _ => false

/-- `select` counts only descriptors that it was asked for and that are ready. -/
def CountsReady (s : GetState) : Input → Prop
  | .select ready => 0 < ready.ret → s.connection.Served ready
  | _ => True

variable {s s' : GetState} {i : Input}

theorem slots_step (herr : ErrNil s) (hcounts : CountsReady s i) (hstep : step s i = some s') :
    s'.connection.slots.length + [i].countP Input.rounds ≤
      s.connection.slots.length + [i].countP Input.blocks := by
  obtain ⟨-, hstepped⟩ := stepped (herr (status_of_step hstep)) hstep
  simp only [List.countP_singleton]
  cases hstepped with
  | readCallBack ret errno => exact Connection.length_slots_ioCallBack .read _ ret errno _
  | writeCallBack ret errno => exact Connection.length_slots_ioCallBack .write _ ret errno _
  | bodyChunk mallocOk chunk r happend => exact Nat.le_refl _
  | task t a s' hhandled =>
      cases hhandled with
      | returned htag hpasses =>
          have hslots : (s.connection.freeConnData).slots.length = 0 := by
            rw [Connection.slots_freeConnData]
            rfl
          exact hslots.le.trans (Nat.zero_le _)
      | _ => exact Nat.le_refl _
  | select ready hready =>
      have hneg : ¬ ready.ret < 0 := by
        intro hneg
        rw [Connection.selectRound, if_pos hneg] at hready
        cases hready
      have hzero : ready.ret ≠ 0 := by
        intro hzero
        rw [Connection.selectRound, if_neg hneg, if_pos hzero] at hready
        cases hready
      have hround : Input.rounds (.select ready) = true :=
        decide_eq_true (show 0 < ready.ret by omega)
      have hblock : Input.blocks (.select ready) = false := rfl
      have hserved : (s.connection.record (.select s.connection.selectCall)).Served ready :=
        hcounts (by omega)
      rw [hround, hblock, C.Client.selectRound_eq hneg hzero]
      exact Connection.length_slots_woken hserved
  | selectPanics ready p hready =>
      have hpos : ¬ 0 < ready.ret := by
        intro hpos
        rw [C.Client.selectRound_eq (by omega) (by omega)] at hready
        cases hready
      have hround : Input.rounds (.select ready) = false := decide_eq_false hpos
      rw [hround, Connection.selectRound_failed hpos]
      exact Nat.le_refl _

/-- Over a whole `Get`, the loop comes back from `select` at most as often as a read or a
write would have blocked. -/
theorem get_rounds (fd : ℤ) (handshakeTask : ℕ) (handshakeRes : Code) {inputs : List Input}
    (hcounts : AtEach step CountsReady (GetState.start fd handshakeTask handshakeRes) inputs)
    (hrun : run step (GetState.start fd handshakeTask handshakeRes) inputs = some s) :
    inputs.countP Input.rounds ≤ inputs.countP Input.blocks := by
  have hpaid := run_potential (fun s => s.connection.slots.length) ErrNil
    (fun _ _ _ herr => herr.of_step) (fun _ _ _ => slots_step)
    (errNil_start fd handshakeTask handshakeRes) hcounts hrun
  have hstart : (GetState.start fd handshakeTask handshakeRes).connection.slots.length = 0 := rfl
  simp only [hstart] at hpaid
  omega

instance (s : GetState) : DecidablePred (CountsReady s)
  | .select ready => inferInstanceAs (Decidable (0 < ready.ret → s.connection.Served ready))
  | .readCallBack _ _ => isTrue trivial
  | .writeCallBack _ _ => isTrue trivial
  | .bodyChunk _ _ => isTrue trivial
  | .task _ _ => isTrue trivial

theorem get_rounds_request : ∃ s, run step (GetState.start 3 0 .ok) requestInputs = some s ∧
    requestInputs.countP Input.rounds = 1 ∧
    requestInputs.countP Input.rounds ≤ requestInputs.countP Input.blocks := by
  obtain ⟨s, hrun⟩ : ∃ s, run step (GetState.start 3 0 .ok) requestInputs = some s := ⟨_, rfl⟩
  have hcounts : AtEach step CountsReady (GetState.start 3 0 .ok) requestInputs := by decide
  exact ⟨s, hrun, by decide, get_rounds 3 0 .ok hcounts hrun⟩

end Get

/-! ## The C programs -/

namespace C

variable {L K A : Type}

def Input.blocks : Input K A → Bool
  | .readCb ret errno => wouldBlock ret errno
  | .writeCb ret errno => wouldBlock ret errno
  | _ => false

def Input.rounds : Input K A → Bool
  | .select ready => 0 ≤ ready.ret
  | _ => false

/-- Without a timeout `select` comes back only with a descriptor, or with an error. -/
def CountsReady (s : State L) : Input K A → Prop
  | .select ready => 0 ≤ ready.ret → s.connection.Served ready
  | _ => True

theorem length_slots_ioCb (dir : Direction) (ret errno : ℤ) (conn : Connection) :
    (ioCb dir ret errno conn).2.slots.length ≤
      conn.slots.length + if wouldBlock ret errno then 1 else 0 := by
  by_cases hblocked : 0 ≤ ret ∨ errno ≠ eagain
  · rw [ioCb_unblocked conn hblocked]
    exact Nat.le_add_right _ _
  · obtain ⟨hret, herrno⟩ := not_or.1 hblocked
    rw [ioCb_blocked "" conn hret (not_not.1 herrno)]
    exact Connection.length_slots_ioCallBack dir "" ret errno conn

namespace Program

variable {p : Program} {s s' : State p.Locals} {i : Input p.CallBack p.Answers}
  {inputs : List (Input p.CallBack p.Answers)}

theorem FreesConn.slots_step (hp : p.FreesConn) (hcounts : CountsReady s i)
    (hstep : p.step s i = some s') :
    s'.connection.slots.length + [i].countP Input.rounds ≤
      s.connection.slots.length + [i].countP Input.blocks := by
  obtain ⟨hnone, hstepped⟩ := stepped hstep
  simp only [List.countP_singleton]
  cases hstepped with
  | readCb ret errno => exact length_slots_ioCb .read ret errno _
  | writeCb ret errno => exact length_slots_ioCb .write ret errno _
  | callBack k s' hcall =>
      obtain ⟨hconn, -⟩ := hp.callBack k s hnone
      rw [hcall] at hconn
      rw [hconn]
      exact Nat.le_refl _
  | task t a s' hcase =>
      have htask := hp.handleTask t a (s.emits [.call (.polled t)]) hnone
      rw [hcase] at htask
      rcases htask with ⟨hconn, -⟩ | hfreed
      · rw [hconn]
        exact Nat.le_refl _
      · rw [hfreed, Connection.slots_freeConnData]
        exact Nat.zero_le _
  | select ready hret =>
      have hround : Input.rounds (.select ready : Input p.CallBack p.Answers) = true :=
        decide_eq_true (show 0 ≤ ready.ret by omega)
      rw [hround]
      exact Connection.length_slots_woken (hcounts (by omega))
  | selectFails ready hret =>
      have hround : Input.rounds (.select ready : Input p.CallBack p.Answers) = false :=
        decide_eq_false (show ¬ 0 ≤ ready.ret by omega)
      rw [hround]
      exact Nat.le_refl _

theorem FreesConn.rounds (hp : p.FreesConn) (fd : ℤ) (locals : p.Locals) (log : List Event)
    (hcounts : AtEach p.step CountsReady (entered fd locals log) inputs)
    (hrun : run p.step (entered fd locals log) inputs = some s) :
    inputs.countP Input.rounds ≤ inputs.countP Input.blocks := by
  have hpaid := run_potential (fun s => s.connection.slots.length) (fun _ => True)
    (fun _ _ _ _ _ => trivial) (fun _ _ _ _ => hp.slots_step) trivial hcounts hrun
  have hstart : (entered fd locals log).connection.slots.length = 0 := rfl
  simp only [hstart] at hpaid
  omega

end Program

/-- Neither program comes back from `select` more often than a read or a write would have
blocked. -/
theorem programs_rounds (host path : CString) (fd : ℤ) (file : Bytes) (log : List Event) :
    (∀ inputs s, AtEach (Client.step host path) CountsReady (entered fd () log) inputs →
        run (Client.step host path) (entered fd () log) inputs = some s →
          inputs.countP Input.rounds ≤ inputs.countP Input.blocks) ∧
      ∀ inputs s,
        AtEach (Upload.step host path) CountsReady (entered fd (Upload.Locals.start file) log)
          inputs →
        run (Upload.step host path) (entered fd (Upload.Locals.start file) log) inputs = some s →
          inputs.countP Input.rounds ≤ inputs.countP Input.blocks := by
  constructor
  · intro inputs s hcounts hrun
    exact (Client.freesConn host path).rounds fd () log hcounts hrun
  · intro inputs s hcounts hrun
    exact (Upload.freesConn host path).rounds fd (Upload.Locals.start file) log hcounts hrun

instance (s : State L) : ∀ i : Input K A, Decidable (CountsReady s i)
  | .select ready => inferInstanceAs (Decidable (0 ≤ ready.ret → s.connection.Served ready))
  | .readCb _ _ => isTrue trivial
  | .writeCb _ _ => isTrue trivial
  | .callBack _ => isTrue trivial
  | .task _ _ => isTrue trivial

/-- The write is served before the read. -/
def servedInTurn : List (Input Upload.CallBack Upload.Answers) :=
  [.callBack (.pollReqUpload (.ready 4)), .writeCb (-1) eagain, .readCb (-1) eagain,
    .select { ret := 1, read := ∅, write := {3} }, .writeCb 1 0,
    .select { ret := 1, read := {3}, write := ∅ }, .readCb 1 0]

theorem programs_rounds_request :
    ((requestInputs.map Client.toC).countP Input.rounds = 1 ∧
      (requestInputs.map Client.toC).countP Input.rounds ≤
        (requestInputs.map Client.toC).countP Input.blocks) ∧
      servedInTurn.countP Input.rounds = 2 ∧
        servedInTurn.countP Input.rounds ≤ servedInTurn.countP Input.blocks := by
  obtain ⟨s, hrun⟩ : ∃ s, run (Client.step defaultHost Client.defaultPath) (entered 3 () [])
      (requestInputs.map Client.toC) = some s := ⟨_, rfl⟩
  have hcounts : AtEach (Client.step defaultHost Client.defaultPath) CountsReady (entered 3 () [])
      (requestInputs.map Client.toC) := by
    decide
  have hserved : (run (Upload.step defaultHost Upload.defaultPath)
      (entered 3 (Upload.Locals.start [7]) []) servedInTurn).isSome := by
    decide +kernel
  obtain ⟨s', hrun'⟩ := Option.isSome_iff_exists.1 hserved
  have hcounts' : AtEach (Upload.step defaultHost Upload.defaultPath) CountsReady
      (entered 3 (Upload.Locals.start [7]) []) servedInTurn := by
    decide +kernel
  constructor
  · exact ⟨by decide, (programs_rounds defaultHost Client.defaultPath 3 [] []).1 _ s hcounts hrun⟩
  · exact ⟨by decide,
      (programs_rounds defaultHost Upload.defaultPath 3 [7] []).2 _ s' hcounts' hrun'⟩

end C

end LlgoExamples.Hyper
