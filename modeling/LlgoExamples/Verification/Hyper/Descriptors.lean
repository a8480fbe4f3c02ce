import LlgoExamples.Verification.Hyper.AddressLoop
import LlgoExamples.Verification.Hyper.Phases
import LlgoExamples.Verification.Hyper.Wakers

/-! # Descriptors over many requests

`ConnectTo` closes the sockets it gives up and keeps the one it returns. The descriptors
of a process are followed from one request to the next. -/

namespace LlgoExamples.Hyper

open Machine Ledger

variable {alloc : Sockets} {k k' : Kernel} {fd : ℤ} {live : List ℤ}

/-! ## The descriptor that ConnectTo returns -/

/-- What is open after the calls of a connection: what was open before, and its socket. -/
theorem leaves_connected {addresses : List AddrInfo} {tries : List KernelEvent} {n : ℕ}
    (h : Leaves k.ledger live) (htries : GaveUp addresses tries) (host port : Bytes)
    (rp : AddrInfo)
    (hlog : k'.log = k.log ++ lookup host port :: (tries ++
      [.socket rp.family rp.sockType rp.protocol n, .connect n rp.addr rp.addr.length,
        .freeaddrinfo, .fcntl n fSetFl oNonblock])) :
    Leaves k'.ledger ((n : ℤ) :: live) := by
  have hledger : k'.ledger = k.ledger ++ tries.filterMap KernelEvent.entry? ++
      [.acquire (n : ℤ)] ++ [.use (n : ℤ)] ++ [.use (n : ℤ)] := by
    rw [Kernel.ledger, hlog, Kernel.ledger, List.filterMap_append,
      List.filterMap_cons_none (show KernelEvent.entry? (lookup host port) = none from rfl),
      List.filterMap_append, List.filterMap_cons_some (entry?_socket rp n)]
    simp only [List.append_assoc, List.cons_append, List.nil_append]
    rfl
  rw [hledger]
  have hopened := (h.settled htries.settled).acquire (n : ℤ)
  exact (hopened.use List.mem_cons_self).use List.mem_cons_self

/-- A connection that `ConnectTo` returns is the one new descriptor. -/
theorem connectTo_ok {host port : Bytes} {net : Network} (h : Leaves k.ledger live)
    (hok : connectTo .lowest host port net k = (.ok fd, k')) :
    fd = Supply.lowestUnused k.fds ∧ k'.fds = insert (Supply.lowestUnused k.fds) k.fds ∧
      Leaves k'.ledger (fd :: live) := by
  by_cases hresolved : net.getaddrinfoRet = 0
  · rcases first_or_none net.result with
      hnone | ⟨before, rp, attempt, after, hresult, hbefore, hsucceeds⟩
    · obtain ⟨tries, -, heq⟩ := connectTo_allFail .lowest host port k hresolved hnone
      rw [heq] at hok
      cases hok
    · obtain ⟨tries, k₁, htries, hfds, heq⟩ :=
        connectTo_first .lowest host port k hresolved hresult hbefore hsucceeds
      have hpick : Sockets.lowest.pick k₁ = Supply.lowestUnused k.fds := by
        rw [← hfds]
        rfl
      rw [heq, hpick] at hok
      split at hok
      · cases hok
      · cases hok
        exact ⟨rfl, rfl, leaves_connected h htries host port rp rfl⟩
  · simp [connectTo, hresolved] at hok

/-! ## The descriptor that Get selects on -/

/-- The call asks about `fd` and nothing else. -/
structure SelectCall.On (call : SelectCall) (fd : ℤ) : Prop where
  fd_eq : call.fd = fd
  nfds_eq : call.nfds = fd + 1
  read : call.fdsRead ⊆ {fd}
  write : call.fdsWrite ⊆ {fd}

/-- Every index into a set, and the first argument, are within the size of a set. -/
structure SelectCall.Fits (call : SelectCall) : Prop where
  nfds : call.nfds ≤ fdSetSize
  indices : ∀ fd ∈ insert call.fd (call.fdsRead ∪ call.fdsWrite), 0 ≤ fd ∧ fd < fdSetSize

theorem SelectCall.On.fits_iff {call : SelectCall} {n : ℕ} (h : call.On n) :
    call.Fits ↔ (n : ℤ) < fdSetSize := by
  constructor
  · intro hfits
    have hn := hfits.indices call.fd (Finset.mem_insert_self _ _)
    rw [h.fd_eq] at hn
    exact hn.2
  · intro hn
    constructor
    · rw [h.nfds_eq]
      omega
    · intro fd hfd
      have heq : fd = n := by
        rcases Finset.mem_insert.1 hfd with hfd | hfd
        · exact hfd.trans h.fd_eq
        · rcases Finset.mem_union.1 hfd with hfd | hfd
          · exact Finset.mem_singleton.1 (h.read hfd)
          · exact Finset.mem_singleton.1 (h.write hfd)
      omega

namespace Connection

variable {c : Connection} {dir : Direction}

/-- Every select made for the connection was on its descriptor. -/
structure Watches (c : Connection) (fd : ℤ) : Prop where
  fd_eq : c.data.fd = fd
  calls : ∀ call, .select call ∈ c.log → call.On fd

theorem watches_opened (fd : ℤ) : (opened fd).Watches fd :=
  ⟨rfl, fun _ h => by cases h⟩

theorem Watches.record (h : c.Watches fd) {e : ConnEvent}
    (he : ∀ call, e = .select call → call.On fd) : (c.record e).Watches fd := by
  refine ⟨h.fd_eq, ?_⟩
  intro call hcall
  rcases List.mem_append.1 hcall with hold | hnew
  · exact h.calls call hold
  · exact he call (List.mem_singleton.1 hnew).symm

theorem Watches.store (h : c.Watches fd) (w : Option ℕ) : (c.store dir w).Watches fd :=
  ⟨(fd_store w).trans h.fd_eq, h.calls⟩

theorem Watches.freeWaker (h : c.Watches fd) : (c.freeWaker dir).Watches fd := by
  rw [Connection.freeWaker]
  split
  · exact h.record (by simp)
  · exact h

theorem Watches.newWaker (h : c.Watches fd) : (c.newWaker dir).Watches fd := by
  have hcount : Watches { c with wakers := c.wakers + 1 } fd := ⟨h.fd_eq, h.calls⟩
  exact (hcount.record (by simp)).store _

theorem Watches.ioCallBack {fail : String} {ret errno : ℤ} (h : c.Watches fd) :
    (ioCallBack dir fail ret errno c).2.Watches fd := by
  rw [Connection.ioCallBack]
  split
  · exact h
  · split
    · exact h.record (by simp)
    · exact h.freeWaker.newWaker

theorem Watches.wake (h : c.Watches fd) : (c.wake dir).Watches fd :=
  (h.record (by simp)).store _

theorem fdSet_subset (c : Connection) (dir : Direction) : c.fdSet dir ⊆ {c.data.fd} := by
  rw [fdSet]
  split
  · exact Finset.Subset.refl _
  · exact Finset.empty_subset _

theorem selectCall_on (c : Connection) : c.selectCall.On c.data.fd where
  fd_eq := rfl
  nfds_eq := rfl
  read := c.fdSet_subset .read
  write := c.fdSet_subset .write

theorem Watches.selectRound (h : c.Watches fd) (ready : Readiness) :
    (selectRound ready c).2.Watches fd := by
  have hselect : (c.record (.select c.selectCall)).Watches fd := by
    apply h.record
    intro call hcall
    cases hcall
    rw [← h.fd_eq]
    exact c.selectCall_on
  simp only [Connection.selectRound]
  split
  · exact hselect
  · split
    · exact hselect
    · split <;> split
      · exact hselect.wake.wake
      · exact hselect.wake
      · exact hselect.wake
      · exact hselect

theorem Watches.freeSlot (h : c.Watches fd) : (c.freeSlot dir).Watches fd := by
  rw [Connection.freeSlot]
  split
  · exact (h.record (by simp)).store _
  · exact h

end Connection

theorem watches_run {s : GetState} {inputs : List Input} {handshakeTask : ℕ}
    {handshakeRes : Code}
    (hrun : run step (GetState.start fd handshakeTask handshakeRes) inputs = some s) :
    s.connection.Watches fd :=
  connection_run (fun (c : Connection) _ _ _ _ (hc : c.Watches fd) => hc.ioCallBack)
    (fun _ ready hc => hc.selectRound ready) (fun _ hc => hc.freeSlot.freeSlot)
    (errNil_start fd handshakeTask handshakeRes) (Connection.watches_opened fd) hrun

/-! ## One request -/

theorem get_ok {host port path : Bytes} {env : Surroundings} {r : GetRun} {s : GetState}
    (hget : get alloc host port path env k = some r) (hs : r.outcome = .ok s) :
    ∃ fd, connectTo alloc host port env.network k = (.ok fd, r.kernel) ∧
      run step (GetState.start fd env.handshakeTask env.handshakeRes) env.inputs = some s := by
  rw [get.eq_def] at hget
  split at hget
  · cases hget
    cases hs
  · split at hget
    · cases hget
      cases hs
    · rename_i fd k' hconnect
      obtain ⟨s', hrun, heq⟩ := Option.map_eq_some_iff.1 hget
      rw [← heq] at hs ⊢
      cases hs
      exact ⟨fd, hconnect, hrun⟩

/-- Whatever `Get` selects on is the descriptor that `ConnectTo` opened for it. -/
theorem get_select {host port path : Bytes} {env : Surroundings} {r : GetRun} {s : GetState}
    {call : SelectCall} (h : Leaves k.ledger live)
    (hget : get .lowest host port path env k = some r) (hs : r.outcome = .ok s)
    (hselect : .select call ∈ s.connection.log) : call.On (Supply.lowestUnused k.fds) := by
  obtain ⟨fd, hconnect, hrun⟩ := get_ok hget hs
  obtain ⟨hfd, -, -⟩ := connectTo_ok h hconnect
  rw [← hfd]
  exact (watches_run hrun).calls call hselect

/-! ## Request after request -/

/-- The arguments of a call of `Get`, and what it meets. -/
structure GetCall where
  host : Bytes
  port : Bytes
  path : Bytes
  env : Surroundings
  deriving DecidableEq

/-- The kernel after a call of `Get` that returned a response. -/
def afterGet (k : Kernel) (call : GetCall) : Option Kernel :=
  match get .lowest call.host call.port call.path call.env k with
  | some { request := _, kernel := k', outcome := .ok s } =>
      if s.status = .returned then some k' else none
  | _ => none

/-- The process before its first request, with `fds` open. -/
def Kernel.start (fds : Finset ℕ) : Kernel :=
  { fds := fds, log := [] }

theorem afterGet_eq_some {call : GetCall} (h : afterGet k call = some k') :
    ∃ r s, get .lowest call.host call.port call.path call.env k = some r ∧
      r.outcome = .ok s ∧ r.kernel = k' := by
  rw [afterGet] at h
  split at h
  · rename_i hget
    split at h
    · cases h
      exact ⟨_, _, hget, rfl, rfl⟩
    · cases h
  · cases h

/-- What `n` requests leave open. -/
structure Leaked (fds : Finset ℕ) (n : ℕ) (k : Kernel) : Prop where
  card : k.fds.card = fds.card + n
  below : Finset.range n ⊆ k.fds
  leaves : ∃ live, live.length = n ∧ Leaves k.ledger live

theorem leaked_start (fds : Finset ℕ) : Leaked fds 0 (Kernel.start fds) :=
  ⟨rfl, Finset.empty_subset _, [], rfl, leaves_nil⟩

variable {fds : Finset ℕ} {n : ℕ}

/-- Each request leaves one descriptor more. -/
theorem Leaked.of_get {call : GetCall} (h : Leaked fds n k) (hget : afterGet k call = some k') :
    Leaked fds (n + 1) k' := by
  obtain ⟨r, s, hr, hs, rfl⟩ := afterGet_eq_some hget
  obtain ⟨live, hlength, hleaves⟩ := h.leaves
  obtain ⟨fd, hconnect, -⟩ := get_ok hr hs
  obtain ⟨-, hfds, hleaves'⟩ := connectTo_ok hleaves hconnect
  refine ⟨?_, ?_, fd :: live, ?_, hleaves'⟩
  · rw [hfds, Finset.card_insert_of_notMem (Supply.lowestUnused_notMem k.fds), h.card,
      Nat.add_assoc]
  · rw [hfds]
    exact Supply.range_succ_subset h.below
  · rw [List.length_cons, hlength]

theorem leaked_run {calls : List GetCall} (h : Leaked fds n k)
    (hrun : run afterGet k calls = some k') : Leaked fds (n + calls.length) k' := by
  induction calls generalizing n k with
  | nil =>
      cases hrun
      exact h
  | cons call calls ih =>
      obtain ⟨mid, hmid, hrest⟩ := run_cons_eq_some.1 hrun
      have hall := ih (h.of_get hmid) hrest
      rwa [Nat.add_assoc, Nat.add_comm 1] at hall

/-! ## Conservation -/

/-- Every select of the next request fits the size of a set. -/
def SelectsFit (k : Kernel) : Prop :=
  ∀ (call : GetCall) r s select,
    get .lowest call.host call.port call.path call.env k = some r →
      r.outcome = .ok s → .select select ∈ s.connection.log → select.Fits

/-- The descriptors of a process that started with `fds` are conserved: the same ones are
open, every socket opened was closed once, and the next request fits the sets of `select`
if the process started with room for it. -/
structure Conserved (fds : Finset ℕ) (k : Kernel) : Prop where
  fds_eq : k.fds = fds
  closed_once : Settles k.ledger
  selects_fit : (fds.card : ℤ) < fdSetSize - 1 → SelectsFit k

/-- The next request selects on the least descriptor that is not in use. -/
theorem Leaked.select_fits_iff {call : GetCall} {r : GetRun} {s : GetState}
    {select : SelectCall} (h : Leaked fds n k)
    (hget : get .lowest call.host call.port call.path call.env k = some r)
    (hs : r.outcome = .ok s) (hselect : .select select ∈ s.connection.log) :
    select.Fits ↔ (Supply.lowestUnused k.fds : ℤ) < fdSetSize := by
  obtain ⟨live, -, hleaves⟩ := h.leaves
  exact (get_select hleaves hget hs hselect).fits_iff

/-- As long as few requests were made, the next one fits. -/
theorem Leaked.selectsFit (h : Leaked fds n k) (hroom : (fds.card : ℤ) + n < fdSetSize) :
    SelectsFit k := by
  intro call r s select hget hs hselect
  rw [h.select_fits_iff hget hs hselect]
  have hle : Supply.lowestUnused k.fds ≤ k.fds.card := Supply.lowestUnused_le_card k.fds
  rw [h.card] at hle
  omega

/-- After as many requests as a set has bits, no select fits any more. -/
theorem Leaked.select_overflows {call : GetCall} {r : GetRun} {s : GetState}
    {select : SelectCall} (h : Leaked fds n k) (hmany : fdSetSize ≤ n)
    (hget : get .lowest call.host call.port call.path call.env k = some r)
    (hs : r.outcome = .ok s) (hselect : .select select ∈ s.connection.log) :
    ¬ select.Fits := by
  rw [h.select_fits_iff hget hs hselect]
  have hge : n ≤ Supply.lowestUnused k.fds := Supply.le_lowestUnused h.below
  omega

/-- Descriptors are conserved over successive requests only while there were none. -/
theorem conserved_iff (fds : Finset ℕ) (calls : List GetCall) (k : Kernel)
    (hrun : run afterGet (Kernel.start fds) calls = some k) :
    Conserved fds k ↔ calls = [] := by
  have hleaked := leaked_run (leaked_start fds) hrun
  rw [Nat.zero_add] at hleaked
  constructor
  · intro h
    have hcard := hleaked.card
    rw [h.fds_eq] at hcard
    exact List.length_eq_zero_iff.1 (by omega)
  · rintro rfl
    cases hrun
    refine ⟨rfl, rfl, ?_⟩
    intro hroom
    apply hleaked.selectsFit
    rw [List.length_nil]
    omega

def requestCall : GetCall :=
  { host := literal "h"
    port := literal "80"
    path := literal "/"
    env :=
      { request := { setMethod := .ok, setURI := .ok, setHeader := .ok }
        network :=
          { getaddrinfoRet := 0
            result := [({ family := 2, sockType := 1, protocol := 6, addr := [127] },
              { socketOk := true, connectRet := 0 })]
            fcntlRet := 0 }
        handshakeTask := 0
        handshakeRes := .ok
        inputs := requestInputs } }

theorem conserved_iff_twoRequests :
    ∃ k, run afterGet (Kernel.start {0, 1, 2}) [requestCall, requestCall] = some k ∧
      k.fds = {0, 1, 2, 3, 4} ∧
        (Conserved {0, 1, 2} k ↔ [requestCall, requestCall] = []) := by
  refine ⟨_, rfl, by decide, ?_⟩
  exact conserved_iff {0, 1, 2} [requestCall, requestCall] _ rfl

/-- The first response leaves its socket open. -/
theorem not_conserved_firstRequest :
    ∃ k, run afterGet (Kernel.start {0, 1, 2}) [requestCall] = some k ∧
      ¬ Conserved {0, 1, 2} k := by
  refine ⟨_, rfl, ?_⟩
  intro h
  exact absurd h.fds_eq (by decide)

end LlgoExamples.Hyper
