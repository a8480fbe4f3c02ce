import LlgoExamples.Verification.Hyper.Polling

/-! # Wakers and their slots

Every waker ever made is in one slot or has been consumed once. The three operations that
touch the slots are shown to keep this, whatever order they come in. -/

namespace LlgoExamples.Hyper

open Machine Ledger

/-! ## The ledger of the wakers -/

/-- Making a waker acquires it, freeing and waking release it. -/
def ConnEvent.entry? : ConnEvent → Option (Entry (Option ℕ))
  | .made w => some (.acquire (some w))
  | .freed w => some (.release w)
  | .woken w => some (.release w)
  | .perror _ => none
  | .select _ => none

def Direction.flip : Direction → Direction
  | .read => .write
  | .write => .read

def SelectCall.set (call : SelectCall) : Direction → Finset ℤ
  | .read => call.fdsRead
  | .write => call.fdsWrite

def Readiness.set (ready : Readiness) : Direction → Finset ℤ
  | .read => ready.read
  | .write => ready.write

namespace Connection

variable {c : Connection} {dir : Direction} {ret errno : ℤ} {fail : String}

def ledger (c : Connection) : List (Entry (Option ℕ)) :=
  c.log.filterMap ConnEvent.entry?

def held (c : Connection) (dir : Direction) : List (Option ℕ) :=
  (c.data.waker dir).toList.map some

def slots (c : Connection) : List (Option ℕ) :=
  c.held .read ++ c.held .write

theorem slots_perm (c : Connection) (dir : Direction) :
    c.slots.Perm (c.held dir ++ c.held dir.flip) := by
  cases dir with
  | read => exact List.Perm.refl _
  | write => exact List.perm_append_comm

/-! ## Reading back the fields -/

@[simp] theorem waker_store_same (w : Option ℕ) : (c.store dir w).data.waker dir = w := by
  cases dir <;> rfl

@[simp] theorem waker_store_flip (w : Option ℕ) :
    (c.store dir w).data.waker dir.flip = c.data.waker dir.flip := by
  cases dir <;> rfl

@[simp] theorem fd_store (w : Option ℕ) : (c.store dir w).data.fd = c.data.fd := by
  cases dir <;> rfl

@[simp] theorem log_store (w : Option ℕ) : (c.store dir w).log = c.log := rfl

@[simp] theorem wakers_store (w : Option ℕ) : (c.store dir w).wakers = c.wakers := rfl

@[simp] theorem data_record (e : ConnEvent) : (c.record e).data = c.data := rfl

@[simp] theorem wakers_record (e : ConnEvent) : (c.record e).wakers = c.wakers := rfl

@[simp] theorem ledger_store (w : Option ℕ) : (c.store dir w).ledger = c.ledger := rfl

theorem ledger_record (e : ConnEvent) :
    (c.record e).ledger = c.ledger ++ e.entry?.toList := by
  cases h : e.entry? <;> simp [ledger, record, h]

theorem held_store_same (w : Option ℕ) : (c.store dir w).held dir = w.toList.map some := by
  rw [held, waker_store_same]

theorem held_store_flip (w : Option ℕ) :
    (c.store dir w).held dir.flip = c.held dir.flip := by
  rw [held, waker_store_flip, held]

/-! ## The three operations keep the account -/

/-- The wakers in the slots are the ones outstanding, and they were numbered in order. -/
structure Accounted (c : Connection) : Prop where
  leaves : Leaves c.ledger c.slots
  numbered : ∀ w, c.ledger.count (.acquire (some w)) = if w < c.wakers then 1 else 0

theorem accounted_opened (fd : ℤ) : (opened fd).Accounted :=
  ⟨leaves_nil, fun _ => rfl⟩

/-- Consuming the waker of a slot leaves the other slot's. -/
theorem Accounted.consume (h : c.Accounted) {e : ConnEvent}
    (he : e.entry? = some (.release (c.data.waker dir))) (hw : c.data.waker dir ≠ none) :
    Leaves (c.record e).ledger (c.held dir.flip) ∧
      ∀ w, (c.record e).ledger.count (.acquire (some w)) = if w < c.wakers then 1 else 0 := by
  obtain ⟨v, hv⟩ := Option.ne_none_iff_exists'.1 hw
  rw [ledger_record, he]
  constructor
  · have hslots := h.leaves.perm (c.slots_perm dir)
    rw [held, hv] at hslots
    rw [hv]
    exact hslots.release
  · intro w
    rw [List.count_append, h.numbered w]
    simp

/-- A slot that was emptied. -/
theorem Accounted.clear (h : c.Accounted) {e : ConnEvent}
    (he : e.entry? = some (.release (c.data.waker dir))) (hw : c.data.waker dir ≠ none) :
    ((c.record e).store dir none).Accounted := by
  obtain ⟨hleaves, hnumbered⟩ := h.consume he hw
  refine ⟨?_, hnumbered⟩
  apply hleaves.perm
  apply List.Perm.symm
  apply (slots_perm _ dir).trans
  rw [held_store_same, held_store_flip]
  exact List.Perm.refl _

/-- An event that neither makes nor consumes a waker. -/
theorem Accounted.record (h : c.Accounted) {e : ConnEvent} (he : e.entry? = none) :
    (c.record e).Accounted := by
  have hledger : (c.record e).ledger = c.ledger := by
    rw [ledger_record, he]
    exact List.append_nil _
  constructor
  · rw [hledger]
    exact h.leaves
  · rw [hledger]
    exact h.numbered

/-- A new waker goes to a slot whose old one is no longer outstanding. -/
theorem accounted_newWaker (hleaves : Leaves c.ledger (c.held dir.flip))
    (hnumbered : ∀ w, c.ledger.count (.acquire (some w)) = if w < c.wakers then 1 else 0) :
    (c.newWaker dir).Accounted := by
  have hledger : (c.newWaker dir).ledger = c.ledger ++ [.acquire (some c.wakers)] := by
    simp [newWaker, ledger, record, ConnEvent.entry?]
  constructor
  · rw [hledger]
    apply (hleaves.acquire (some c.wakers)).perm
    apply List.Perm.symm
    apply (slots_perm _ dir).trans
    rw [newWaker, held_store_same, held_store_flip]
    exact List.Perm.refl _
  · intro w
    have hwakers : (c.newWaker dir).wakers = c.wakers + 1 := rfl
    rw [hledger, hwakers, List.count_append, hnumbered w]
    by_cases hw : w = c.wakers
    · subst hw
      simp
    · have hne : c.wakers ≠ w := fun h => hw h.symm
      simp only [List.count_singleton, beq_iff_eq, Entry.acquire.injEq, Option.some.injEq, hne,
        if_false]
      split <;> split <;> omega

theorem Accounted.ioCallBack (h : c.Accounted) :
    (ioCallBack dir fail ret errno c).2.Accounted := by
  rw [Connection.ioCallBack]
  split
  · exact h
  · split
    · exact h.record rfl
    · rw [freeWaker]
      split
      · rename_i hw
        obtain ⟨hleaves, hnumbered⟩ := h.consume (e := .freed (c.data.waker dir)) rfl hw
        exact accounted_newWaker hleaves hnumbered
      · rename_i hw
        apply accounted_newWaker _ h.numbered
        apply h.leaves.perm
        have hempty : c.held dir = [] := by
          rw [held, not_not.1 hw]
          rfl
        have hperm := c.slots_perm dir
        rwa [hempty, List.nil_append] at hperm

theorem waker_ne_none_of_mem_fdSet {fd : ℤ} {ready : Finset ℤ}
    (h : fd ∈ c.fdSet dir ∩ ready) : c.data.waker dir ≠ none := by
  intro hw
  rw [fdSet, if_neg (not_not.2 hw)] at h
  simp at h

theorem Accounted.wake (h : c.Accounted) (hw : c.data.waker dir ≠ none) :
    (c.wake dir).Accounted :=
  h.clear rfl hw

/-- The write slot is tested with the set made before the read slot was woken. -/
theorem Accounted.selectRound (h : c.Accounted) (ready : Readiness) :
    (selectRound ready c).2.Accounted := by
  have hselect : (c.record (.select c.selectCall)).Accounted := h.record rfl
  simp only [Connection.selectRound]
  split
  · exact hselect
  · split
    · exact hselect
    · split <;> split
      · rename_i hread hwrite
        have hr := waker_ne_none_of_mem_fdSet hread
        have hw := waker_ne_none_of_mem_fdSet hwrite
        exact (hselect.wake hr).wake hw
      · rename_i hread _
        exact hselect.wake (waker_ne_none_of_mem_fdSet hread)
      · rename_i hwrite
        exact hselect.wake (waker_ne_none_of_mem_fdSet hwrite)
      · exact hselect

theorem Accounted.freeSlot (h : c.Accounted) : (c.freeSlot dir).Accounted := by
  rw [Connection.freeSlot]
  split
  · rename_i hw
    exact h.clear rfl hw
  · exact h

theorem Accounted.freeConnData (h : c.Accounted) : c.freeConnData.Accounted :=
  h.freeSlot.freeSlot

theorem waker_freeSlot (c : Connection) (dir : Direction) :
    (c.freeSlot dir).data.waker dir = none ∧
      (c.freeSlot dir).data.waker dir.flip = c.data.waker dir.flip := by
  rw [Connection.freeSlot]
  split
  · exact ⟨waker_store_same _, waker_store_flip _⟩
  · rename_i hw
    exact ⟨not_not.1 hw, rfl⟩

theorem slots_freeConnData (c : Connection) : c.freeConnData.slots = [] := by
  obtain ⟨hread, -⟩ := waker_freeSlot c .read
  obtain ⟨hwrite, hkeep⟩ := waker_freeSlot (c.freeSlot .read) .write
  have hread' : c.freeConnData.data.waker .read = none := hkeep.trans hread
  have hwrite' : c.freeConnData.data.waker .write = none := hwrite
  rw [slots, held, held, hread', hwrite']
  rfl

/-! ## What the account says of each waker -/

/-- The wakers that were freed or woken, in order. -/
def consumed (c : Connection) : List (Option ℕ) :=
  c.log.filterMap fun e => match e with
    | .freed w => some w
    | .woken w => some w
    | _ => none

/-- Every waker ever made is in exactly one slot, or was consumed exactly once; nothing
else is in a slot, and nothing else was consumed. -/
structure WakersKept (c : Connection) : Prop where
  once : ∀ w < c.wakers, c.slots.count (some w) + c.consumed.count (some w) = 1
  unmade : ∀ w, c.wakers ≤ w → some w ∉ c.slots ∧ some w ∉ c.consumed
  neverNil : none ∉ c.slots ∧ none ∉ c.consumed

theorem consumed_count (c : Connection) (r : Option ℕ) :
    c.consumed.count r = c.ledger.count (.release r) := by
  rw [consumed, ledger]
  induction c.log with
  | nil => rfl
  | cons e log ih =>
      cases e with
      | made w => simpa only [List.filterMap_cons, ConnEvent.entry?, List.count_cons,
          beq_iff_eq, reduceCtorEq, if_false, Nat.add_zero] using ih
      | freed w => simp [ConnEvent.entry?, List.count_cons, ih]
      | woken w => simp [ConnEvent.entry?, List.count_cons, ih]
      | perror text => exact ih
      | select call => exact ih

theorem nil_never_made (c : Connection) : c.ledger.count (.acquire none) = 0 := by
  rw [List.count_eq_zero, ledger]
  intro hmem
  obtain ⟨e, -, he⟩ := List.mem_filterMap.1 hmem
  cases e <;> simp [ConnEvent.entry?] at he

theorem Accounted.wakersKept (h : c.Accounted) : c.WakersKept where
  once w hw := by
    rw [consumed_count, h.leaves.count, h.numbered, if_pos hw]
  unmade w hw := by
    have hcount := h.leaves.count (some w)
    rw [h.numbered, if_neg (Nat.not_lt.2 hw), ← consumed_count] at hcount
    exact ⟨List.count_eq_zero.1 (by omega), List.count_eq_zero.1 (by omega)⟩
  neverNil := by
    have hcount := h.leaves.count none
    rw [nil_never_made, ← consumed_count] at hcount
    exact ⟨List.count_eq_zero.1 (by omega), List.count_eq_zero.1 (by omega)⟩

/-! ## One callback -/

def callBack (dir : Direction) (ret errno : ℤ) (c : Connection) : ℕ × Connection :=
  match dir with
  | .read => c.readCallBack ret errno
  | .write => c.writeCallBack ret errno

theorem callBack_eq (dir : Direction) (ret errno : ℤ) (c : Connection) :
    ∃ fail, c.callBack dir ret errno = ioCallBack dir fail ret errno c := by
  cases dir
  · exact ⟨"[read callback fail]", rfl⟩
  · exact ⟨"[write callback fail]", rfl⟩

@[simp] theorem data_freeWaker : (c.freeWaker dir).data = c.data := by
  rw [freeWaker]
  split <;> rfl

@[simp] theorem wakers_freeWaker : (c.freeWaker dir).wakers = c.wakers := by
  rw [freeWaker]
  split <;> rfl

/-- A callback leaves the descriptor and the other direction's slot alone. -/
theorem ioCallBack_frame (dir : Direction) (fail : String) (ret errno : ℤ) (c : Connection) :
    (ioCallBack dir fail ret errno c).2.data.fd = c.data.fd ∧
      (ioCallBack dir fail ret errno c).2.data.waker dir.flip = c.data.waker dir.flip := by
  rw [ioCallBack]
  split
  · exact ⟨rfl, rfl⟩
  · split
    · exact ⟨rfl, rfl⟩
    · simp [newWaker]

/-- A count that the kernel can return is told apart from `IoPending`. -/
theorem ioCallBack_pending {fail : String} (hret : -1 ≤ ret ∧ ret ≤ 0x7ffff000)
    (h : (ioCallBack dir fail ret errno c).1 = ioPending) :
    (ioCallBack dir fail ret errno c).2 = (c.freeWaker dir).newWaker dir := by
  rw [ioCallBack] at h ⊢
  split at h
  · simp only [ioPending] at h
    omega
  · rename_i hneg
    rw [if_neg hneg]
    split at h
    · simp [ioError, ioPending] at h
    · rename_i heagain
      rw [if_neg heagain]

theorem newWaker_made (c : Connection) (dir : Direction) :
    (c.newWaker dir).log.getLast? = some (.made c.wakers) ∧
      (c.newWaker dir).data.waker dir = some c.wakers := by
  simp [newWaker, record]

/-! ## One select round -/

/-- The round reports the connection ready for `dir`. -/
def Reports (c : Connection) (ready : Readiness) (dir : Direction) : Prop :=
  0 < ready.ret ∧ c.data.fd ∈ c.selectCall.set dir ∩ ready.set dir

theorem wake_frame (c : Connection) (dir : Direction) :
    (c.wake dir).data.fd = c.data.fd ∧
      (c.wake dir).data.waker dir.flip = c.data.waker dir.flip := by
  simp [wake]

theorem selectRound_frame {ready : Readiness} (hquiet : ¬ c.Reports ready dir) :
    (selectRound ready c).2.data.fd = c.data.fd ∧
      (selectRound ready c).2.data.waker dir = c.data.waker dir := by
  simp only [selectRound]
  split
  · exact ⟨rfl, rfl⟩
  · split
    · exact ⟨rfl, rfl⟩
    · have hpos : 0 < ready.ret := by omega
      have hnot : c.data.fd ∉ c.selectCall.set dir ∩ ready.set dir := fun hmem =>
        hquiet ⟨hpos, hmem⟩
      cases dir with
      | read =>
          rw [if_neg (show (c.record (.select c.selectCall)).data.fd ∉
            c.selectCall.fdsRead ∩ ready.read from hnot)]
          split
          · exact wake_frame (c.record (.select c.selectCall)) .write
          · exact ⟨rfl, rfl⟩
      | write =>
          split
          · obtain ⟨hfd, hkeep⟩ := wake_frame (c.record (.select c.selectCall)) .read
            rw [hfd, if_neg (show (c.record (.select c.selectCall)).data.fd ∉
              c.selectCall.fdsWrite ∩ ready.write from hnot)]
            exact ⟨hfd, hkeep⟩
          · rw [if_neg (show (c.record (.select c.selectCall)).data.fd ∉
              c.selectCall.fdsWrite ∩ ready.write from hnot)]
            exact ⟨rfl, rfl⟩

/-- The call to `select` is the first thing that a round does. -/
theorem selectRound_recorded (c : Connection) (ready : Readiness) :
    ∃ rest, (selectRound ready c).2.log = c.log ++ .select c.selectCall :: rest := by
  have hselect : (c.record (.select c.selectCall)).log = c.log ++ [.select c.selectCall] := rfl
  simp only [selectRound]
  split
  · exact ⟨[], hselect⟩
  · split
    · exact ⟨[], hselect⟩
    · split <;> split <;> simp [wake, record]

/-- A direction that is reported ready waited; its waker is woken and its slot cleared. -/
theorem selectRound_reports {ready : Readiness} (h : c.Reports ready dir) :
    ∃ w rest, c.data.waker dir = some w ∧
      (selectRound ready c).2.log = c.log ++ .select c.selectCall :: rest ∧
      .woken (some w) ∈ rest ∧ (selectRound ready c).2.data.waker dir = none := by
  obtain ⟨hret, hmem⟩ := h
  have hset : c.data.fd ∈ c.fdSet dir ∩ ready.set dir := by
    cases dir <;> exact hmem
  obtain ⟨w, hw⟩ := Option.ne_none_iff_exists'.1 (waker_ne_none_of_mem_fdSet hset)
  simp only [selectRound, if_neg (show ¬ ready.ret < 0 by omega),
    if_neg (show ready.ret ≠ 0 by omega)]
  cases dir with
  | read =>
      rw [if_pos (show (c.record (.select c.selectCall)).data.fd ∈
        c.selectCall.fdsRead ∩ ready.read from hmem)]
      have hw' : c.data.readWaker = some w := hw
      split
      · refine ⟨w, [.woken (some w), .woken c.data.writeWaker], hw, ?_, by simp, ?_⟩
        · simp [wake, record, store, ConnData.waker, ConnData.setWaker, hw']
        · simp [wake, record, store, ConnData.waker, ConnData.setWaker]
      · refine ⟨w, [.woken (some w)], hw, ?_, by simp, ?_⟩
        · simp [wake, record, ConnData.waker, hw']
        · simp [wake]
  | write =>
      have hw' : c.data.writeWaker = some w := hw
      split
      · rw [(wake_frame (c.record (.select c.selectCall)) .read).1,
          if_pos (show (c.record (.select c.selectCall)).data.fd ∈
            c.selectCall.fdsWrite ∩ ready.write from hmem)]
        refine ⟨w, [.woken c.data.readWaker, .woken (some w)], hw, ?_, by simp, ?_⟩
        · simp [wake, record, store, ConnData.waker, ConnData.setWaker, hw']
        · simp [wake]
      · rw [if_pos (show (c.record (.select c.selectCall)).data.fd ∈
          c.selectCall.fdsWrite ∩ ready.write from hmem)]
        refine ⟨w, [.woken (some w)], hw, ?_, by simp, ?_⟩
        · simp [wake, record, ConnData.waker, hw']
        · simp [wake]

/-- A direction that waits is selected for. -/
theorem mem_selectCall_of_waker {w : ℕ} (h : c.data.waker dir = some w) :
    c.data.fd ∈ c.selectCall.set dir := by
  have hset : c.data.fd ∈ c.fdSet dir := by
    rw [fdSet, if_pos (by rw [h]; exact Option.some_ne_none w)]
    exact Finset.mem_singleton_self _
  cases dir with
  | read => exact hset
  | write => exact hset

end Connection

/-! ## Whole runs -/

variable {s s' : GetState} {i : Input} {inputs : List Input} {dir : Direction}

/-- What holds between any two inputs of `Get`. -/
structure WakersSound (s : GetState) : Prop where
  errNil : ErrNil s
  accounted : s.connection.Accounted
  cleared : s.status = .returned → s.connection.slots = []

theorem wakersSound_start (fd : ℤ) (handshakeTask : ℕ) (handshakeRes : Code) :
    WakersSound (GetState.start fd handshakeTask handshakeRes) where
  errNil := errNil_start fd handshakeTask handshakeRes
  accounted := Connection.accounted_opened fd
  cleared h := by cases h

theorem WakersSound.of_step (h : WakersSound s) (hstep : step s i = some s') :
    WakersSound s' := by
  obtain ⟨hrunning, hstepped⟩ := stepped (h.errNil (status_of_step hstep)) hstep
  have hnot : s.status ≠ .returned := by
    rw [hrunning]
    decide
  refine ⟨h.errNil.of_step hstep, ?_, ?_⟩
  · exact connection_step (fun _ _ _ _ _ hc => hc.ioCallBack)
      (fun _ ready hc => hc.selectRound ready) (fun _ hc => hc.freeConnData) h.errNil
      h.accounted hstep
  · intro hreturned
    cases hstepped with
    | task t a s' hhandled =>
        cases hhandled with
        | returned htag hpasses => exact Connection.slots_freeConnData _
        | failed | notSent | noReason => cases hreturned
        | _ => exact absurd hreturned hnot
    | selectPanics ready p hselect => cases hreturned
    | _ => exact absurd hreturned hnot

theorem wakersSound_run (h : WakersSound s) (hrun : run step s inputs = some s') :
    WakersSound s' :=
  run_invariant (fun _ _ _ hinv => hinv.of_step) h hrun

/-! ## No lost wake-up -/

/-- The callback of a direction, called by hyper. -/
def Input.callBack (dir : Direction) (ret errno : ℤ) : Input :=
  match dir with
  | .read => .readCallBack ret errno
  | .write => .writeCallBack ret errno

/-- What `read` and `write` can return: an error, or a count up to the limit per call. -/
def Input.CountInRange : Input → Prop
  | .readCallBack ret _ => -1 ≤ ret ∧ ret ≤ 0x7ffff000
  | .writeCallBack ret _ => -1 ≤ ret ∧ ret ≤ 0x7ffff000
  | _ => True

instance : DecidablePred Input.CountInRange
  | .readCallBack ret _ => inferInstanceAs (Decidable (-1 ≤ ret ∧ ret ≤ 0x7ffff000))
  | .writeCallBack ret _ => inferInstanceAs (Decidable (-1 ≤ ret ∧ ret ≤ 0x7ffff000))
  | .bodyChunk _ _ => inferInstanceAs (Decidable True)
  | .task _ _ => inferInstanceAs (Decidable True)
  | .select _ => inferInstanceAs (Decidable True)

/-- The input is no callback of the direction, and does not report it ready. -/
def Quiet (dir : Direction) (s : GetState) : Input → Prop
  | .readCallBack _ _ => dir ≠ .read
  | .writeCallBack _ _ => dir ≠ .write
  | .select ready => ¬ s.connection.Reports ready dir
  | _ => True

theorem step_callBack {ret errno : ℤ} (hstep : step s (.callBack dir ret errno) = some s') :
    s' = { s with connection := (s.connection.callBack dir ret errno).2 } := by
  have hrunning := status_of_step hstep
  rw [step.eq_def, if_pos hrunning] at hstep
  cases dir <;> exact (Option.some.inj hstep).symm

theorem waker_step {w : ℕ} (herr : ErrNil s) (hw : s.connection.data.waker dir = some w)
    (hquiet : Quiet dir s i) (hstep : step s i = some s') (hnot : s'.status ≠ .returned) :
    s'.connection.data.waker dir = some w := by
  obtain ⟨-, hstepped⟩ := stepped (herr (status_of_step hstep)) hstep
  cases hstepped with
  | readCallBack ret errno =>
      cases dir with
      | read => exact absurd rfl hquiet
      | write =>
          exact (Connection.ioCallBack_frame .read _ ret errno s.connection).2.trans hw
  | writeCallBack ret errno =>
      cases dir with
      | read =>
          exact (Connection.ioCallBack_frame .write _ ret errno s.connection).2.trans hw
      | write => exact absurd rfl hquiet
  | bodyChunk mallocOk chunk r happend => exact hw
  | select ready hselect => exact (Connection.selectRound_frame hquiet).2.trans hw
  | selectPanics ready p hselect => exact (Connection.selectRound_frame hquiet).2.trans hw
  | task t a s' hhandled =>
      cases hhandled with
      | returned htag hpasses => exact absurd rfl hnot
      | _ => exact hw

theorem waker_run {w : ℕ} (herr : ErrNil s) (hw : s.connection.data.waker dir = some w)
    (hquiet : AtEach step (Quiet dir) s inputs) (hrun : run step s inputs = some s')
    (hnot : s'.status ≠ .returned) : s'.connection.data.waker dir = some w := by
  induction inputs generalizing s with
  | nil =>
      cases hrun
      exact hw
  | cons i inputs ih =>
      obtain ⟨u, hu, hrest⟩ := run_cons_eq_some.1 hrun
      have hrunning : u.status ≠ .returned := by
        cases inputs with
        | nil =>
            cases hrest
            exact hnot
        | cons j inputs =>
            obtain ⟨v, hv, -⟩ := run_cons_eq_some.1 hrest
            rw [status_of_step hv]
            decide
      exact ih (herr.of_step hu) (waker_step herr hw hquiet.1 hu hrunning)
        (hquiet.2 u hu) hrest

theorem step_select {ready : Readiness} (hstep : step s (.select ready) = some s') :
    s'.connection = (s.connection.selectRound ready).2 := by
  have hrunning := status_of_step hstep
  rw [step.eq_def, if_pos hrunning] at hstep
  rcases hround : s.connection.selectRound ready with ⟨p, c⟩
  simp only [hround] at hstep
  cases p <;> cases hstep <;> rfl

/-- Whenever the last callback of a direction answered `IoPending`, and the direction was
not reported ready since, its slot holds the waker that callback made, and the next select
asks for the direction: the call that a round then makes has the descriptor in its set. -/
def NoLostWakeUp (start : GetState) (inputs : List Input) (s : GetState) : Prop :=
  ∀ pre dir ret errno post before after,
    inputs = pre ++ Input.callBack dir ret errno :: post →
    run step start pre = some before →
    step before (.callBack dir ret errno) = some after →
    (before.connection.callBack dir ret errno).1 = ioPending →
    AtEach step (Quiet dir) after post → s.status ≠ .returned →
      ∃ w, after.connection.log.getLast? = some (.made w) ∧
        s.connection.data.waker dir = some w ∧
        s.connection.data.fd ∈ s.connection.selectCall.set dir ∧
        ∀ ready next, step s (.select ready) = some next → ∃ rest,
          next.connection.log =
            s.connection.log ++ .select s.connection.selectCall :: rest

/-- A direction that a round reports ready waited, and its waker is woken and its slot
cleared by that round. -/
def ReadyWoken (start : GetState) (inputs : List Input) : Prop :=
  ∀ pre ready post before after dir, inputs = pre ++ .select ready :: post →
    run step start pre = some before → step before (.select ready) = some after →
    before.connection.Reports ready dir →
      ∃ w rest, before.connection.data.waker dir = some w ∧
        after.connection.log =
          before.connection.log ++ .select before.connection.selectCall :: rest ∧
        .woken (some w) ∈ rest ∧ after.connection.data.waker dir = none

theorem readyWoken (start : GetState) (inputs : List Input) : ReadyWoken start inputs := by
  intro pre ready post before after dir _ _ hstep hreports
  rw [step_select hstep]
  exact Connection.selectRound_reports hreports

theorem noLostWakeUp {start : GetState} (herr : ErrNil start)
    (hrun : run step start inputs = some s) (hret : ∀ i ∈ inputs, i.CountInRange) :
    NoLostWakeUp start inputs s := by
  intro pre dir ret errno post before after hsplit hbefore hafter hpending hquiet hnot
  have hcount : -1 ≤ ret ∧ ret ≤ 0x7ffff000 := by
    have h := hret (.callBack dir ret errno) (by rw [hsplit]; simp)
    cases dir <;> exact h
  have hpost : run step after post = some s := by
    rw [hsplit] at hrun
    obtain ⟨b, hb, hrest⟩ := run_append_eq_some.1 hrun
    rw [hbefore] at hb
    cases hb
    obtain ⟨a, ha, hrest⟩ := run_cons_eq_some.1 hrest
    rw [hafter] at ha
    cases ha
    exact hrest
  obtain ⟨fail, hcall⟩ := Connection.callBack_eq dir ret errno before.connection
  have hconn : after.connection = (before.connection.freeWaker dir).newWaker dir := by
    rw [step_callBack hafter, hcall]
    rw [hcall] at hpending
    exact Connection.ioCallBack_pending hcount hpending
  obtain ⟨hmade, hslot⟩ := Connection.newWaker_made (before.connection.freeWaker dir) dir
  have hw := waker_run ((errNil_run herr hbefore).of_step hafter) (by rw [hconn]; exact hslot)
    hquiet hpost hnot
  refine ⟨_, by rw [hconn]; exact hmade, hw, Connection.mem_selectCall_of_waker hw, ?_⟩
  intro ready next hnext
  rw [step_select hnext]
  exact Connection.selectRound_recorded s.connection ready

/-- The waker protocol of `Get`, over every interleaving of callbacks, select rounds and
handled tasks, and the cleanup on its return. -/
theorem waker_protocol (fd : ℤ) (handshakeTask : ℕ) (handshakeRes : Code)
    (inputs : List Input) (s : GetState)
    (hrun : run step (GetState.start fd handshakeTask handshakeRes) inputs = some s)
    (hret : ∀ i ∈ inputs, i.CountInRange) :
    s.connection.WakersKept ∧
      (s.status = .returned → s.connection.slots = [] ∧
        ∀ w < s.connection.wakers, s.connection.consumed.count (some w) = 1) ∧
      NoLostWakeUp (GetState.start fd handshakeTask handshakeRes) inputs s ∧
      ReadyWoken (GetState.start fd handshakeTask handshakeRes) inputs := by
  have hsound := wakersSound_run (wakersSound_start fd handshakeTask handshakeRes) hrun
  have hkept := hsound.accounted.wakersKept
  refine ⟨hkept, ?_, noLostWakeUp (errNil_start fd handshakeTask handshakeRes) hrun hret,
    readyWoken _ _⟩
  intro hreturned
  have hslots := hsound.cleared hreturned
  refine ⟨hslots, ?_⟩
  intro w hw
  have honce := hkept.once w hw
  rwa [hslots, List.count_nil, Nat.zero_add] at honce

/-- A read that waits, waits again, and is woken; then a write that waits. -/
def waitingInputs : List Input :=
  [.readCallBack (-1) eagain, .readCallBack (-1) eagain,
    .select { ret := 1, read := {3}, write := {3} }, .readCallBack 12 0,
    .writeCallBack (-1) eagain]

/-- The body is done: the waker of the write is freed. -/
def bodyDone : Input :=
  .task { id := 0, userdata := .respBody, type := .empty, value := none }
    { errorCode := 0, errorDetails := [], sendTask := 0, sendRes := .ok,
      reasonPhrase := none, reasonPhraseLen := 0, status := 200, headers := [],
      foreachTask := 0, foreachRes := .ok }

/-- The read is woken by the round, the write waits with a waker of its own, and when `Get`
returns it has consumed all three. -/
theorem waker_protocol_waiting :
    (∃ s, run step (GetState.start 3 0 .ok) waitingInputs = some s ∧
        s.connection.WakersKept ∧ ∃ w, s.connection.data.waker .write = some w ∧
          s.connection.data.fd ∈ s.connection.selectCall.set .write) ∧
      (∃ s, run step (GetState.start 3 0 .ok) (waitingInputs.take 3) = some s ∧
        s.connection.data.waker .read = none ∧ ∃ w, .woken (some w) ∈ s.connection.log) ∧
      ∃ s, run step (GetState.start 3 0 .ok) (waitingInputs ++ [bodyDone]) = some s ∧
        ∀ w < 3, s.connection.consumed.count (some w) = 1 := by
  obtain ⟨hkept, -, hwaits, hwoken⟩ := waker_protocol 3 0 .ok waitingInputs _ rfl (by decide)
  refine ⟨?_, ?_, ?_⟩
  · obtain ⟨w, -, hslot, hselect, -⟩ := hwaits (waitingInputs.take 4) .write (-1) eagain [] _ _
      rfl rfl rfl rfl trivial (by decide)
    exact ⟨_, rfl, hkept, w, hslot, hselect⟩
  · obtain ⟨w, rest, -, hlog, hmem, hslot⟩ := hwoken (waitingInputs.take 2) _
      (waitingInputs.drop 3) _ _ .read rfl rfl rfl ⟨by decide, by decide⟩
    refine ⟨_, rfl, hslot, w, ?_⟩
    rw [hlog]
    exact List.mem_append_right _ (List.mem_cons_of_mem _ hmem)
  · obtain ⟨-, hreturned, -⟩ :=
      waker_protocol 3 0 .ok (waitingInputs ++ [bodyDone]) _ rfl (by decide)
    exact ⟨_, rfl, (hreturned rfl).2⟩

end LlgoExamples.Hyper
