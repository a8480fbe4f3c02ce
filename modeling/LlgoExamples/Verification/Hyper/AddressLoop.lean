import LlgoExamples.Library.Ledger
import LlgoExamples.Model.Hyper.Connect

/-! # The address loop of ConnectTo

An address that is given up leaves the open descriptors as they were, so the loop is its
given-up addresses one after another, up to the first one that a connection is made to. -/

namespace LlgoExamples.Hyper

open Machine Ledger

variable {alloc : Sockets} {k : Kernel} {rp : AddrInfo} {attempt : Attempt}
  {rest result : List (AddrInfo × Attempt)} {sfd : ℤ} {es : List KernelEvent}

/-! ## The ledger of the sockets -/

/-- A socket is acquired when it is opened and released when it is closed. -/
def KernelEvent.entry? : KernelEvent → Option (Entry ℤ)
  | .getaddrinfo _ _ _ _ => none
  | .socket _ _ _ sfd => if sfd = -1 then none else some (.acquire sfd)
  | .connect sfd _ _ => some (.use sfd)
  | .close fd => some (.release fd)
  | .freeaddrinfo => none
  | .fcntl fd _ _ => some (.use fd)

def Kernel.ledger (k : Kernel) : List (Entry ℤ) :=
  k.log.filterMap KernelEvent.entry?

theorem entry?_socket_refused (rp : AddrInfo) :
    KernelEvent.entry? (.socket rp.family rp.sockType rp.protocol (-1)) = none := by
  rw [KernelEvent.entry?, if_pos rfl]

theorem entry?_socket (rp : AddrInfo) (fd : ℕ) :
    KernelEvent.entry? (.socket rp.family rp.sockType rp.protocol fd) =
      some (.acquire (fd : ℤ)) := by
  rw [KernelEvent.entry?, if_neg]
  omega

/-! ## Addresses that are given up -/

/-- Both calls for the address succeed. -/
def Attempt.Succeeds (a : Attempt) : Prop :=
  a.socketOk = true ∧ a.connectRet ≠ -1

instance : DecidablePred Attempt.Succeeds := fun a =>
  inferInstanceAs (Decidable (a.socketOk = true ∧ a.connectRet ≠ -1))

/-- The calls made for addresses that are given up one after another: a socket that is
refused, or one that is opened, not connected and closed. -/
inductive GaveUp : List AddrInfo → List KernelEvent → Prop where
  | nil : GaveUp [] []
  | refused (rp : AddrInfo) {addresses : List AddrInfo} {es : List KernelEvent}
      (rest : GaveUp addresses es) :
      GaveUp (rp :: addresses) (.socket rp.family rp.sockType rp.protocol (-1) :: es)
  | closed (rp : AddrInfo) (fd : ℕ) {addresses : List AddrInfo} {es : List KernelEvent}
      (rest : GaveUp addresses es) :
      GaveUp (rp :: addresses) (.socket rp.family rp.sockType rp.protocol fd ::
        .connect fd rp.addr rp.addr.length :: .close fd :: es)

/-- The descriptor that a call is made on. -/
def KernelEvent.fd? : KernelEvent → Option ℤ
  | .connect sfd _ _ => some sfd
  | .close fd => some fd
  | .fcntl fd _ _ => some fd
  | _ => none

/-- Every socket opened for these addresses was closed once before the next was opened, no
call was made on -1, and the resolver's list was not touched. -/
structure Tidy (addresses : List AddrInfo) (es : List KernelEvent) : Prop where
  gaveUp : GaveUp addresses es
  settled : Settles (es.filterMap KernelEvent.entry?)
  valid : ∀ e ∈ es, e.fd? ≠ some (-1)
  listKept : .freeaddrinfo ∉ es

theorem GaveUp.settled {addresses : List AddrInfo} (h : GaveUp addresses es) :
    Settles (es.filterMap KernelEvent.entry?) := by
  induction h with
  | nil => rfl
  | refused rp rest ih =>
      rw [List.filterMap_cons_none (entry?_socket_refused rp)]
      exact ih
  | closed rp fd rest ih =>
      rw [List.filterMap_cons_some (entry?_socket rp fd)]
      simpa [Settles, KernelEvent.entry?, post] using ih

theorem GaveUp.tidy {addresses : List AddrInfo} (h : GaveUp addresses es) :
    Tidy addresses es := by
  refine ⟨h, h.settled, ?_, ?_⟩
  · induction h with
    | nil => simp
    | refused rp rest ih => simpa [KernelEvent.fd?] using ih
    | closed rp fd rest ih =>
        have hne : (fd : ℤ) ≠ -1 := by omega
        simpa [KernelEvent.fd?, hne] using ih
  · induction h with
    | nil => simp
    | refused rp rest ih => simpa using ih
    | closed rp fd rest ih => simpa using ih

/-! ## The loop, address by address -/

/-- The kernel after a socket was opened for `rp` and connected, with any result. -/
def Kernel.tried (alloc : Sockets) (rp : AddrInfo) (k : Kernel) : Kernel :=
  (k.socket alloc rp true).2.record (.connect (alloc.pick k) rp.addr rp.addr.length)

theorem tried_eq (alloc : Sockets) (rp : AddrInfo) (k : Kernel) :
    k.tried alloc rp =
      { fds := insert (alloc.pick k) k.fds
        log := k.log ++ [.socket rp.family rp.sockType rp.protocol (alloc.pick k),
          .connect (alloc.pick k) rp.addr rp.addr.length] } := by
  simp [Kernel.tried, Kernel.socket, Kernel.record]

/-- Closing the socket that was opened last gives the open descriptors back. -/
theorem close_tried (alloc : Sockets) (rp : AddrInfo) (k : Kernel) :
    (k.tried alloc rp).close (alloc.pick k) =
      { fds := k.fds
        log := k.log ++ [.socket rp.family rp.sockType rp.protocol (alloc.pick k),
          .connect (alloc.pick k) rp.addr rp.addr.length, .close (alloc.pick k)] } := by
  have hfds : (insert (alloc.pick k) k.fds).filter (fun n : ℕ => (n : ℤ) ≠ alloc.pick k) =
      k.fds := by
    ext n
    have hfresh := alloc.fresh k
    simp only [Finset.mem_filter, Finset.mem_insert, ne_eq, Int.natCast_inj]
    constructor
    · rintro ⟨hn | hn, hne⟩
      · exact absurd hn hne
      · exact hn
    · intro hn
      refine ⟨Or.inr hn, ?_⟩
      rintro rfl
      exact hfresh hn
  rw [tried_eq, Kernel.close, Kernel.record]
  simp only [hfds, List.append_assoc, List.cons_append, List.nil_append]

theorem connectLoop_refused (hno : attempt.socketOk = false) :
    connectLoop alloc sfd ((rp, attempt) :: rest) k =
      connectLoop alloc (-1) rest
        (k.record (.socket rp.family rp.sockType rp.protocol (-1))) := by
  simp only [connectLoop, Kernel.socket, hno, Bool.false_eq_true, if_false, if_true]

theorem connectLoop_connected (h : attempt.Succeeds) :
    connectLoop alloc sfd ((rp, attempt) :: rest) k =
      { sfd := alloc.pick k, rp := some rp, kernel := k.tried alloc rp } := by
  have hne : (alloc.pick k : ℤ) ≠ -1 := by omega
  simp only [connectLoop, Kernel.tried, Kernel.socket, h.1, if_true, hne, if_false, h.2,
    ne_eq, not_false_eq_true]

theorem connectLoop_givenUp (hopen : attempt.socketOk = true)
    (hret : attempt.connectRet = -1) :
    connectLoop alloc sfd ((rp, attempt) :: rest) k =
      connectLoop alloc (alloc.pick k) rest ((k.tried alloc rp).close (alloc.pick k)) := by
  have hne : (alloc.pick k : ℤ) ≠ -1 := by omega
  simp only [connectLoop, Kernel.tried, Kernel.socket, hopen, if_true, hne, if_false, hret,
    ne_eq, not_true_eq_false]

/-- The loop passes over addresses that do not succeed, and gives up each of them. -/
theorem connectLoop_passes (alloc : Sockets) (failed rest : List (AddrInfo × Attempt))
    (sfd : ℤ) (k : Kernel) (h : ∀ x ∈ failed, ¬ x.2.Succeeds) :
    ∃ tries sfd', GaveUp (failed.map Prod.fst) tries ∧
      connectLoop alloc sfd (failed ++ rest) k =
        connectLoop alloc sfd' rest { fds := k.fds, log := k.log ++ tries } := by
  induction failed generalizing sfd k with
  | nil => exact ⟨[], sfd, .nil, by simp⟩
  | cons x failed ih =>
      obtain ⟨rp, attempt⟩ := x
      have hfails : ¬ attempt.Succeeds := h (rp, attempt) List.mem_cons_self
      have hrest : ∀ x ∈ failed, ¬ x.2.Succeeds := fun x hx => h x (List.mem_cons_of_mem _ hx)
      cases hopen : attempt.socketOk with
      | false =>
          obtain ⟨tries, sfd', htries, hloop⟩ := ih (-1)
            (k.record (.socket rp.family rp.sockType rp.protocol (-1))) hrest
          refine ⟨_, sfd', .refused rp htries, ?_⟩
          rw [List.cons_append, connectLoop_refused hopen, hloop]
          simp [Kernel.record]
      | true =>
          have hret : attempt.connectRet = -1 := by
            by_contra hne
            exact hfails ⟨hopen, hne⟩
          obtain ⟨tries, sfd', htries, hloop⟩ := ih (alloc.pick k)
            ((k.tried alloc rp).close (alloc.pick k)) hrest
          refine ⟨_, sfd', .closed rp (alloc.pick k) htries, ?_⟩
          rw [List.cons_append, connectLoop_givenUp hopen hret, hloop, close_tried]
          simp

/-! ## ConnectTo -/

variable {host port : Bytes} {net : Network}

def lookup (host port : Bytes) : KernelEvent :=
  .getaddrinfo (allocaCStr host) (allocaCStr port) afUnspec sockStream

def connectFailed (host : Bytes) : Panic :=
  { text := "connect failed for %s\n", args := [host] }

theorem connectTo_allFail (alloc : Sockets) (host port : Bytes) (k : Kernel)
    (hresolved : net.getaddrinfoRet = 0) (h : ∀ x ∈ net.result, ¬ x.2.Succeeds) :
    ∃ tries, GaveUp (net.result.map Prod.fst) tries ∧
      connectTo alloc host port net k = (.error (connectFailed host),
        { fds := k.fds
          log := k.log ++ lookup host port :: (tries ++ [.freeaddrinfo]) }) := by
  obtain ⟨tries, sfd', htries, hloop⟩ :=
    connectLoop_passes alloc net.result [] 0 (k.record (lookup host port)) h
  rw [List.append_nil] at hloop
  refine ⟨tries, htries, ?_⟩
  have hrecord : k.record (.getaddrinfo (allocaCStr host) (allocaCStr port) afUnspec
    sockStream) = k.record (lookup host port) := rfl
  simp only [connectTo, hresolved, ne_eq, not_true_eq_false, if_false, hrecord, hloop,
    connectLoop, true_or, if_true]
  simp [connectFailed, Kernel.record]

/-- The descriptor is picked by a kernel that has the same ones open as before. -/
theorem connectTo_first (alloc : Sockets) (host port : Bytes) (k : Kernel)
    {before after : List (AddrInfo × Attempt)} (hresolved : net.getaddrinfoRet = 0)
    (hresult : net.result = before ++ (rp, attempt) :: after)
    (hbefore : ∀ x ∈ before, ¬ x.2.Succeeds) (hsucceeds : attempt.Succeeds) :
    ∃ tries k₁, GaveUp (before.map Prod.fst) tries ∧ k₁.fds = k.fds ∧
      connectTo alloc host port net k =
        (if net.fcntlRet ≠ 0 then .error (.plain "failed to set net to non-blocking\n")
          else .ok (alloc.pick k₁ : ℤ),
        { fds := insert (alloc.pick k₁) k.fds
          log := k.log ++ lookup host port :: (tries ++
            [.socket rp.family rp.sockType rp.protocol (alloc.pick k₁),
              .connect (alloc.pick k₁) rp.addr rp.addr.length, .freeaddrinfo,
              .fcntl (alloc.pick k₁) fSetFl oNonblock]) }) := by
  obtain ⟨tries, sfd', htries, hloop⟩ := connectLoop_passes alloc before
    ((rp, attempt) :: after) 0 (k.record (lookup host port)) hbefore
  rw [← hresult, connectLoop_connected hsucceeds, tried_eq] at hloop
  refine ⟨tries, { fds := k.fds, log := k.log ++ lookup host port :: tries }, htries, rfl, ?_⟩
  have hrecord : k.record (.getaddrinfo (allocaCStr host) (allocaCStr port) afUnspec
    sockStream) = k.record (lookup host port) := rfl
  have hopen : ∀ fd : ℕ, ¬ ((some rp : Option AddrInfo) = none ∨ (fd : ℤ) < 0) := by
    intro fd h
    rcases h with h | h
    · cases h
    · omega
  simp only [connectTo, hresolved, ne_eq, not_true_eq_false, if_false, hrecord, hloop,
    hopen]
  split <;> simp [Kernel.record]

/-- The first address that succeeds, and what comes before and after it. -/
theorem first_or_none (result : List (AddrInfo × Attempt)) :
    (∀ x ∈ result, ¬ x.2.Succeeds) ∨
      ∃ before rp attempt after, result = before ++ (rp, attempt) :: after ∧
        (∀ x ∈ before, ¬ x.2.Succeeds) ∧ attempt.Succeeds := by
  cases hfind : result.find? fun x => x.2.Succeeds with
  | none =>
      left
      simpa using hfind
  | some x =>
      right
      obtain ⟨hx, before, after, hresult, hbefore⟩ := List.find?_eq_some_iff_append.1 hfind
      exact ⟨before, x.1, x.2, after, hresult, by simpa using hbefore, by simpa using hx⟩

/-- The first call of `ConnectTo` asks the resolver, whatever follows. -/
theorem connectTo_lookup (alloc : Sockets) (host port : Bytes) (net : Network) (k : Kernel) :
    ∃ calls, (connectTo alloc host port net k).2.log = k.log ++ lookup host port :: calls := by
  by_cases hresolved : net.getaddrinfoRet = 0
  · rcases first_or_none net.result with
      hnone | ⟨before, rp, attempt, after, hresult, hbefore, hsucceeds⟩
    · obtain ⟨tries, -, heq⟩ := connectTo_allFail alloc host port k hresolved hnone
      rw [heq]
      exact ⟨_, rfl⟩
    · obtain ⟨tries, k₁, -, -, heq⟩ :=
        connectTo_first alloc host port k hresolved hresult hbefore hsucceeds
      rw [heq]
      exact ⟨_, rfl⟩
  · refine ⟨[], ?_⟩
    simp only [connectTo, ne_eq, hresolved, not_false_eq_true, if_true]
    rfl

/-! ## Every list of addresses -/

/-- Every address was given up, and then the resolver's list was released. -/
structure ConnectedToNone (host port : Bytes) (addresses : List AddrInfo) (k k' : Kernel) :
    Prop where
  fds_eq : k'.fds = k.fds
  calls : ∃ tries, Tidy addresses tries ∧
    k'.log = k.log ++ lookup host port :: (tries ++ [.freeaddrinfo])

/-- The addresses before `rp` were given up, `fd` was opened for `rp` and connected, and
then the resolver's list was released. -/
structure ConnectedToFirst (host port : Bytes) (addresses : List AddrInfo) (rp : AddrInfo)
    (fd : ℕ) (k k' : Kernel) : Prop where
  fresh : fd ∉ k.fds
  fds_eq : k'.fds = insert fd k.fds
  calls : ∃ tries, Tidy addresses tries ∧
    k'.log = k.log ++ lookup host port :: (tries ++
      [.socket rp.family rp.sockType rp.protocol fd, .connect fd rp.addr rp.addr.length,
        .freeaddrinfo, .fcntl fd fSetFl oNonblock])

/-- `ConnectTo` over every list of addresses and every way that `socket` and `connect`
answer for them. -/
theorem connectTo_addresses (alloc : Sockets) (host port : Bytes) (net : Network) (k : Kernel)
    (hresolved : net.getaddrinfoRet = 0) :
    ((connectTo alloc host port net k).1 = .error (connectFailed host) ↔
      ∀ x ∈ net.result, ¬ x.2.Succeeds) ∧
    ((∀ x ∈ net.result, ¬ x.2.Succeeds) →
      ConnectedToNone host port (net.result.map Prod.fst) k
        (connectTo alloc host port net k).2) ∧
    ∀ before rp attempt after, net.result = before ++ (rp, attempt) :: after →
      (∀ x ∈ before, ¬ x.2.Succeeds) → attempt.Succeeds → net.fcntlRet = 0 →
        ∃ fd : ℕ, (connectTo alloc host port net k).1 = .ok (fd : ℤ) ∧
          ConnectedToFirst host port (before.map Prod.fst) rp fd k
            (connectTo alloc host port net k).2 := by
  refine ⟨⟨?_, ?_⟩, ?_, ?_⟩
  · intro herror
    rcases first_or_none net.result with hnone | ⟨before, rp, attempt, after, hresult, hbefore, hs⟩
    · exact hnone
    · exfalso
      obtain ⟨tries, k₁, -, -, heq⟩ :=
        connectTo_first alloc host port k hresolved hresult hbefore hs
      rw [heq] at herror
      split at herror
      · simp [Panic.plain, connectFailed] at herror
      · cases herror
  · intro hnone
    obtain ⟨tries, -, heq⟩ := connectTo_allFail alloc host port k hresolved hnone
    rw [heq]
  · intro hnone
    obtain ⟨tries, htries, heq⟩ := connectTo_allFail alloc host port k hresolved hnone
    rw [heq]
    exact ⟨rfl, tries, htries.tidy, rfl⟩
  · intro before rp attempt after hresult hbefore hs hfcntl
    obtain ⟨tries, k₁, htries, hfds, heq⟩ :=
      connectTo_first alloc host port k hresolved hresult hbefore hs
    have hfresh := alloc.fresh k₁
    rw [hfds] at hfresh
    rw [heq]
    refine ⟨alloc.pick k₁, ?_, hfresh, rfl, tries, htries.tidy, rfl⟩
    simp only [hfcntl, ne_eq, not_true_eq_false, if_false]

def address (last : UInt8) : AddrInfo :=
  { family := 2, sockType := 1, protocol := 6, addr := [127, 0, 0, last] }

/-- A refused socket, a connection that fails, and two that succeed. -/
def fourAddresses : Network :=
  { getaddrinfoRet := 0
    result := [(address 1, { socketOk := false, connectRet := 0 }),
      (address 2, { socketOk := true, connectRet := -1 }),
      (address 3, { socketOk := true, connectRet := 0 }),
      (address 4, { socketOk := true, connectRet := 0 })]
    fcntlRet := 0 }

theorem connectTo_addresses_third :
    ∃ fd : ℕ, (connectTo .lowest (literal "h") (literal "80") fourAddresses
        { fds := {0, 1, 2}, log := [] }).1 = .ok (fd : ℤ) ∧
      ConnectedToFirst (literal "h") (literal "80") [address 1, address 2] (address 3) fd
        { fds := {0, 1, 2}, log := [] }
        (connectTo .lowest (literal "h") (literal "80") fourAddresses
          { fds := {0, 1, 2}, log := [] }).2 :=
  (connectTo_addresses .lowest (literal "h") (literal "80") fourAddresses
    { fds := {0, 1, 2}, log := [] } rfl).2.2
      [(address 1, { socketOk := false, connectRet := 0 }),
        (address 2, { socketOk := true, connectRet := -1 })]
      (address 3) { socketOk := true, connectRet := 0 } _ rfl (by decide) (by decide) rfl

end LlgoExamples.Hyper
