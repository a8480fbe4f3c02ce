import LlgoExamples.Model.Hyper.CProgram
import LlgoExamples.Verification.Hyper.TypeSafety
import LlgoExamples.Verification.Hyper.Wakers

/-! # What every C program does

The parts that the programs share are evaluated once. What holds of the connection then
follows for each program from what its own functions do with it. -/

namespace LlgoExamples.Hyper.C

open Machine

variable {L : Type} {s s' : State L} {t : Task}

/-! ## Events -/

def State.emits (s : State L) (es : List Event) : State L :=
  { s with log := s.log ++ es }

@[simp] theorem emits_emits (es es' : List Event) :
    (s.emits es).emits es' = s.emits (es ++ es') := by
  simp only [State.emits, List.append_assoc]

@[simp] theorem emits_nil : s.emits [] = s := by
  simp only [State.emits, List.append_nil]

@[simp] theorem run_emit (e : Event) (s : State L) : (emit e).run s = .ok () (s.emits [e]) := rfl

@[simp] theorem run_call (e : Hyper.Event) (s : State L) :
    (call e).run s = .ok () (s.emits [.call e]) := rfl

@[simp] theorem run_printf (format : String) (args : List Arg) (s : State L) :
    (printf format args).run s = .ok () (s.emits [.call (.printf format args)]) := rfl

@[simp] theorem run_taskValue (t : Task) (kind : ValueKind) (s : State L) :
    (taskValue t kind).run s = .ok t.value (s.emits [.call (.value t kind)]) := rfl

theorem run_cAssert_of {condition : String} {holds : Prop} [Decidable holds] (h : holds) :
    (cAssert condition holds).run s = .ok () s := by
  rw [cAssert, if_pos h]
  rfl

theorem run_cAssert_not {condition : String} {holds : Prop} [Decidable holds] (h : ¬ holds) :
    (cAssert condition holds).run s = .error (.assertion condition) s := by
  rw [cAssert, if_neg h]
  rfl

def headerEvents (headers : List (Bytes × Bytes)) : List Event :=
  headers.map fun header => .call (.printf "%.*s: %.*s\n" [.bytes header.1, .bytes header.2])

@[simp] theorem run_printEachHeader (headers : List (Bytes × Bytes)) (s : State L) :
    (printEachHeader headers).run s = .ok () (s.emits (headerEvents headers)) := by
  induction headers generalizing s with
  | nil =>
      rw [headerEvents, List.map_nil, emits_nil]
      rfl
  | cons header headers ih =>
      have hstep : (printEachHeader (header :: headers)).run s =
          (printEachHeader headers).run (s.emits
            [.call (.printf "%.*s: %.*s\n" [.bytes header.1, .bytes header.2])]) := rfl
      rw [hstep, ih, emits_emits]
      rfl

@[simp] theorem run_freeConnData (s : State L) : (freeConnData (L := L)).run s =
    .ok () ({ s with connection := s.connection.freeConnData }.emits [.freeConn]) := rfl

/-! ## The select round -/

/-- The connection after a round that reported `ready`. -/
def woken (ready : Readiness) (conn : Connection) : Connection :=
  let conn' := if conn.data.fd ∈ conn.fdSet .read ∩ ready.read then conn.wake .read else conn
  if conn.data.fd ∈ conn.fdSet .write ∩ ready.write then conn'.wake .write else conn'

def selectEvent (conn : Connection) : Event :=
  .select (conn.data.fd + 1) (conn.fdSet .read) (conn.fdSet .write)

theorem run_selectRound_failed {ready : Readiness} (h : ready.ret < 0) :
    (selectRound ready).run s = .error (.exit 1)
      (s.emits [selectEvent s.connection, .call (.printf "select() error\n" [])]) := by
  simp only [selectRound, EStateM.run_bind, EStateM.run_get, run_emit, if_pos h, run_printf,
    EStateM.run_throw, emits_emits]
  rfl

theorem run_selectRound {ready : Readiness} (h : ¬ ready.ret < 0) :
    (selectRound ready).run s = .ok ()
      ({ s with connection := woken ready s.connection }.emits [selectEvent s.connection]) := by
  simp only [selectRound, EStateM.run_bind, EStateM.run_get, run_emit, if_neg h, woken]
  by_cases hread : s.connection.data.fd ∈ s.connection.fdSet .read ∩ ready.read
  · by_cases hwrite : s.connection.data.fd ∈ s.connection.fdSet .write ∩ ready.write
    · simp only [if_pos hread, if_pos hwrite]
      rfl
    · simp only [if_pos hread, if_neg hwrite]
      rfl
  · by_cases hwrite : s.connection.data.fd ∈ s.connection.fdSet .write ∩ ready.write
    · simp only [if_neg hread, if_pos hwrite]
      rfl
    · simp only [if_neg hread, if_neg hwrite]
      rfl

/-! ## Steps -/

namespace Program

/-- The states that one input can lead to from a program that goes on. -/
inductive Stepped (p : Program) (s : State p.Locals) :
    Input p.CallBack p.Answers → State p.Locals → Prop where
  | readCb (ret errno : ℤ) : Stepped p s (.readCb ret errno)
      { s with connection := (readCb ret errno s.connection).2 }
  | writeCb (ret errno : ℤ) : Stepped p s (.writeCb ret errno)
      { s with connection := (writeCb ret errno s.connection).2 }
  | callBack (k : p.CallBack) (s' : State p.Locals)
      (hcall : p.settle ((p.callBack k).run s) = s') : Stepped p s (.callBack k) s'
  | task (t : Task) (a : p.Answers) (s' : State p.Locals)
      (hcase : p.settle ((p.handleTask t a).run (s.emits [.call (.polled t)])) = s') :
      Stepped p s (.task t a) s'
  | select (ready : Readiness) (hret : ¬ ready.ret < 0) : Stepped p s (.select ready)
      ({ s with connection := woken ready s.connection }.emits [selectEvent s.connection])
  | selectFails (ready : Readiness) (hret : ready.ret < 0) : Stepped p s (.select ready)
      ({ s with ended := some (.exit 1) }.emits
        [selectEvent s.connection, .call (.printf "select() error\n" [])])

variable {p : Program} {s s' : State p.Locals} {i : Input p.CallBack p.Answers}

theorem step_eq (h : s.ended = none) : p.step s i = some (p.settle ((p.perform i).run s)) :=
  if_pos h

theorem ended_of_step (hstep : p.step s i = some s') : s.ended = none := by
  by_contra hended
  rw [step, if_neg hended] at hstep
  cases hstep

theorem stepped (hstep : p.step s i = some s') : s.ended = none ∧ p.Stepped s i s' := by
  have hnone := ended_of_step hstep
  refine ⟨hnone, ?_⟩
  rw [step_eq hnone] at hstep
  obtain rfl := Option.some.inj hstep
  cases i with
  | readCb ret errno => exact .readCb ret errno
  | writeCb ret errno => exact .writeCb ret errno
  | callBack k => exact .callBack k _ rfl
  | task t a => exact .task t a _ rfl
  | select ready =>
      by_cases hret : ready.ret < 0
      · have hselect := Stepped.selectFails (s := s) ready hret
        simpa only [perform, settle, run_selectRound_failed hret, State.emits] using hselect
      · have hselect := Stepped.select (s := s) ready hret
        simpa only [perform, settle, run_selectRound hret] using hselect

end Program

/-! ## Up to the loop -/

/-- What a program does before it enters the loop. -/
def prelude (connected : String) (host port path : CString) (version : Bytes)
    (handshakeTask : ℕ) (handshakeRes : Code) : List Event :=
  [.call (.printf "connecting to port %s on %s...\n" [.bytes port.bytes, .bytes host.bytes]),
    .call (.printf connected [.bytes host.bytes, .bytes path.bytes]),
    .call (.printf "http handshake (hyper v%s) ...\n" [.bytes version]),
    .call (.push handshakeTask .handshake handshakeRes)]

/-- A program as it enters the loop. -/
def entered (fd : ℤ) (locals : L) (log : List Event) : State L :=
  { connection := Connection.opened fd, locals := locals, log := log, ended := none }

section Main

variable {alloc : Sockets} {host port : CString} {k k' : Kernel} {fd : ℤ} {printed : List Event}

theorem connectTo_printed {sfd : ℤ} {net : Network}
    (h : connectTo alloc sfd host port net k = ((fd, printed), k')) (hpos : ¬ fd < 0) :
    printed = [] := by
  simp only [connectTo] at h
  split at h
  · cases h
    exact absurd (by decide) hpos
  · split at h
    · cases h
      exact absurd (by decide) hpos
    · cases h
      rfl

/-- The three ways to get to the loop, or not. -/
theorem Program.runMain_cases (p : Program) (connected : String) (path : CString)
    (locals : p.Locals) (env : Surroundings p.CallBack p.Answers)
    (h : connectTo alloc env.sfd host port env.network k = ((fd, printed), k')) :
    (fd < 0 → ∃ text, p.runMain alloc connected host port path locals env k =
      some { kernel := k', outcome := .error text }) ∧
    (¬ fd < 0 → env.network.fcntlRet ≠ 0 → ∃ text,
      p.runMain alloc connected host port path locals env k =
        some { kernel := k'.record (.fcntl fd fSetFl oNonblock), outcome := .error text }) ∧
    (¬ fd < 0 → ¬ env.network.fcntlRet ≠ 0 →
      p.runMain alloc connected host port path locals env k =
        (run p.step (entered fd locals (prelude connected host port path env.version
          env.handshakeTask env.handshakeRes)) env.inputs).map fun s =>
            { kernel := k'.record (.fcntl fd fSetFl oNonblock), outcome := .ok s }) := by
  refine ⟨?_, ?_, ?_⟩
  · intro hneg
    simp only [runMain, h, if_pos hneg]
    exact ⟨_, rfl⟩
  · intro hpos hfcntl
    simp only [runMain, h, if_neg hpos, if_pos hfcntl]
    exact ⟨_, rfl⟩
  · intro hpos hfcntl
    obtain rfl := connectTo_printed h hpos
    simp only [runMain, h, if_neg hpos, if_neg hfcntl]
    rfl

/-- A program that got to the loop entered it as `prelude` says. -/
theorem Program.run_of_runMain {p : Program} {connected : String} {path : CString}
    {locals : p.Locals} {env : Surroundings p.CallBack p.Answers} {r : MainRun p.Locals}
    {s : State p.Locals} (hmain : p.runMain alloc connected host port path locals env k = some r)
    (hs : r.outcome = .ok s) :
    ∃ fd, run p.step (entered fd locals (prelude connected host port path env.version
      env.handshakeTask env.handshakeRes)) env.inputs = some s := by
  rcases hconn : connectTo alloc env.sfd host port env.network k with ⟨⟨fd, printed⟩, k'⟩
  obtain ⟨hfailed, hblocking, hentered⟩ := p.runMain_cases connected path locals env hconn
  by_cases hneg : fd < 0
  · obtain ⟨text, hc⟩ := hfailed hneg
    rw [hc] at hmain
    cases hmain
    cases hs
  · by_cases hfcntl : env.network.fcntlRet ≠ 0
    · obtain ⟨text, hc⟩ := hblocking hneg hfcntl
      rw [hc] at hmain
      cases hmain
      cases hs
    · rw [hentered hneg hfcntl, Option.map_eq_some_iff] at hmain
      obtain ⟨s', hrun, rfl⟩ := hmain
      cases hs
      exact ⟨fd, hrun⟩

end Main

/-! ## Type safety -/

/-- The calls that the Go client has as well. -/
def calls (es : List Event) : List Hyper.Event :=
  es.filterMap fun e => match e with
    | .call e => some e
    | _ => none

/-- The call carries the request or its response on. -/
def Event.carriesOn : Event → Bool
  | .call e => e.carriesOn
  | .request _ => true
  | .onInformational => true
  | .setBody => true
  | .write _ => true
  | .responseBody _ _ => true
  | .bodyData _ => true
  | _ => false

def continued (es : List Event) : List Event :=
  es.filter Event.carriesOn

/-- The type of task whose value is taken for a pointer of this kind. -/
def valueType : ValueKind → TaskReturnType
  | .error => .error
  | .clientConn => .clientConn
  | .response => .response

/-- The values taken, each with the type its task would have to have. -/
def takes (es : List Event) : List (Task × TaskReturnType) :=
  es.filterMap fun e => match e with
    | .call (.value t kind) => some (t, valueType kind)
    | .bufValue t => some (t, .buf)
    | _ => none

/-- What a program may do while it handles `t`, where its cases go on with the types that
`expects` has for them: `es` are its events, `ended` is how it ends. -/
structure TypeSafe (expects : ExampleId → List TaskReturnType) (t : Task) (es : List Event)
    (ended : Option Ending) : Prop where
  honest : ∀ p ∈ takes es, p = (t, t.type)
  once : (takes es).length ≤ 1
  exits : ended = some (.exit 0) → t.userdata = .respBody ∧ t.type = .empty
  stops : t.userdata ≠ .notSet → t.type ∉ expects t.userdata →
    (ended = some (.exit 1) ∨ ∃ condition, ended = some (.assertion condition)) ∧
      continued es = []

/-- What was done between two states of a run. -/
def newEvents (s s' : State L) : List Event :=
  s'.log.drop s.log.length

/-- A program takes values, and exits with 0, only while it handles a task. -/
def SafeStep (p : Program) (expects : ExampleId → List TaskReturnType) (s : State p.Locals)
    (i : Input p.CallBack p.Answers) : Prop :=
  ∀ s', p.step s i = some s' → match i with
    | .task t _ => TypeSafe expects t (newEvents s s') s'.ended
    | _ => takes (newEvents s s') = [] ∧ s'.ended ≠ some (.exit 0)

section Safety

variable {es es' : List Event} {expects : ExampleId → List TaskReturnType}

theorem newEvents_eq (h : s'.log = s.log ++ es) : newEvents s s' = es := by
  rw [newEvents, h, List.drop_left]

/-- What a case does comes after its task was returned. -/
theorem newEvents_polled (h : s'.log = (s.emits [.call (.polled t)]).log ++ es) :
    newEvents s s' = .call (.polled t) :: es := by
  apply newEvents_eq
  rw [h, State.emits, List.append_assoc]
  rfl

theorem not_exited (h : s.ended = none) : s.ended ≠ some (.exit 0) := by
  rw [h]
  exact (Option.some_ne_none _).symm

theorem takes_append : takes (es ++ es') = takes es ++ takes es' :=
  List.filterMap_append

theorem calls_append : calls (es ++ es') = calls es ++ calls es' :=
  List.filterMap_append

theorem takes_request (requests : List RequestEvent) : takes (requests.map Event.request) = [] := by
  induction requests with
  | nil => rfl
  | cons e requests ih => exact ih

theorem takes_headerEvents (headers : List (Bytes × Bytes)) :
    takes (headerEvents headers) = [] := by
  induction headers with
  | nil => rfl
  | cons header headers ih => exact ih

/-- A case that takes its value for what it is, or takes none. -/
theorem typeSafe_of_takes {ended : Option Ending}
    (htakes : takes es = [] ∨ takes es = [(t, t.type)])
    (hexits : ended = some (.exit 0) → t.userdata = .respBody ∧ t.type = .empty)
    (hstops : t.userdata ≠ .notSet → t.type ∉ expects t.userdata →
      (ended = some (.exit 1) ∨ ∃ condition, ended = some (.assertion condition)) ∧
        continued es = []) : TypeSafe expects t es ended := by
  refine ⟨?_, ?_, hexits, hstops⟩
  · intro p hp
    rcases htakes with htakes | htakes
    · rw [htakes] at hp
      cases hp
    · rw [htakes] at hp
      exact List.mem_singleton.1 hp
  · rcases htakes with htakes | htakes
    · rw [htakes]
      exact Nat.zero_le 1
    · rw [htakes]
      exact Nat.le_refl 1

/-- Of the inputs that are no task, only a function of the program's own could take a
value. -/
theorem safeStep_of_cases {p : Program} {s : State p.Locals} {i : Input p.CallBack p.Answers}
    (hcallBack : ∀ k s', s.ended = none → p.settle ((p.callBack k).run s) = s' →
      takes (newEvents s s') = [] ∧ s'.ended ≠ some (.exit 0))
    (htask : ∀ t a s', s.ended = none →
      p.settle ((p.handleTask t a).run (s.emits [.call (.polled t)])) = s' →
        TypeSafe expects t (newEvents s s') s'.ended) : SafeStep p expects s i := by
  intro s' hstep
  obtain ⟨hnone, hstepped⟩ := Program.stepped hstep
  have hnot := not_exited hnone
  have hquiet : ∀ conn : Connection, takes (newEvents s { s with connection := conn }) = [] := by
    intro conn
    rw [newEvents, List.drop_length]
    rfl
  cases hstepped with
  | readCb ret errno => exact ⟨hquiet _, hnot⟩
  | writeCb ret errno => exact ⟨hquiet _, hnot⟩
  | callBack k s' hcall => exact hcallBack k s' hnone hcall
  | task t a s' hcase => exact htask t a s' hnone hcase
  | select ready hret => exact ⟨by rw [newEvents_eq rfl]; rfl, hnot⟩
  | selectFails ready hret =>
      rw [newEvents_eq rfl]
      refine ⟨rfl, ?_⟩
      intro h
      cases h

end Safety

/-! ## Wakers -/

theorem ioCb_blocked {dir : Direction} {ret errno : ℤ} (fail : String) (conn : Connection)
    (hret : ¬ 0 ≤ ret) (herrno : errno = eagain) :
    ioCb dir ret errno conn = Connection.ioCallBack dir fail ret errno conn := by
  rw [ioCb, Connection.ioCallBack, if_neg hret, if_neg (not_not.2 herrno), if_neg hret,
    if_neg (not_not.2 herrno)]

theorem ioCb_unblocked {dir : Direction} {ret errno : ℤ} (conn : Connection)
    (h : 0 ≤ ret ∨ errno ≠ eagain) : (ioCb dir ret errno conn).2 = conn := by
  rw [ioCb]
  split
  · rfl
  · rename_i hret
    rw [if_pos (h.resolve_left hret)]

theorem accounted_ioCb {conn : Connection} (h : conn.Accounted) (dir : Direction)
    (ret errno : ℤ) : (ioCb dir ret errno conn).2.Accounted := by
  by_cases hblocked : 0 ≤ ret ∨ errno ≠ eagain
  · rw [ioCb_unblocked conn hblocked]
    exact h
  · obtain ⟨hret, herrno⟩ := not_or.1 hblocked
    rw [ioCb_blocked "" conn hret (not_not.1 herrno)]
    exact h.ioCallBack

theorem accounted_woken {conn : Connection} (h : conn.Accounted) (ready : Readiness) :
    (woken ready conn).Accounted := by
  have hconn' : (if conn.data.fd ∈ conn.fdSet .read ∩ ready.read then conn.wake .read
      else conn).Accounted ∧ (if conn.data.fd ∈ conn.fdSet .read ∩ ready.read then
        conn.wake .read else conn).data.waker .write = conn.data.waker .write := by
    split
    · rename_i hread
      exact ⟨h.wake (Connection.waker_ne_none_of_mem_fdSet hread), rfl⟩
    · exact ⟨h, rfl⟩
  simp only [woken]
  split
  · rename_i hwrite
    apply hconn'.1.wake
    rw [hconn'.2]
    exact Connection.waker_ne_none_of_mem_fdSet hwrite
  · exact hconn'.1

/-- The functions of a program leave the connection alone, but for the exit with 0, which
frees it. -/
structure Program.FreesConn (p : Program) : Prop where
  callBack : ∀ k (s : State p.Locals), s.ended = none →
    (p.settle ((p.callBack k).run s)).connection = s.connection ∧
      (p.settle ((p.callBack k).run s)).ended ≠ some (.exit 0)
  handleTask : ∀ t a (s : State p.Locals), s.ended = none →
    (p.settle ((p.handleTask t a).run s)).connection = s.connection ∧
        (p.settle ((p.handleTask t a).run s)).ended ≠ some (.exit 0) ∨
      (p.settle ((p.handleTask t a).run s)).connection = s.connection.freeConnData

/-- No waker is used after it is consumed or lost, and the exit with 0 leaves none. -/
structure WakersSound (s : State L) : Prop where
  accounted : s.connection.Accounted
  cleared : s.ended = some (.exit 0) → s.connection.slots = []

theorem wakersSound_entered (fd : ℤ) (locals : L) (log : List Event) :
    WakersSound (entered fd locals log) where
  accounted := Connection.accounted_opened fd
  cleared h := by cases h

namespace Program

variable {p : Program} {s s' : State p.Locals} {i : Input p.CallBack p.Answers}
  {inputs : List (Input p.CallBack p.Answers)}

theorem FreesConn.wakersSound_step (hp : p.FreesConn) (h : WakersSound s)
    (hstep : p.step s i = some s') : WakersSound s' := by
  obtain ⟨hnone, hstepped⟩ := stepped hstep
  have hnot := not_exited hnone
  cases hstepped with
  | readCb ret errno => exact ⟨accounted_ioCb h.accounted .read ret errno, fun h => absurd h hnot⟩
  | writeCb ret errno =>
      exact ⟨accounted_ioCb h.accounted .write ret errno, fun h => absurd h hnot⟩
  | callBack k s' hcall =>
      obtain ⟨hconn, hend⟩ := hp.callBack k s hnone
      rw [hcall] at hconn hend
      refine ⟨?_, fun h => absurd h hend⟩
      rw [hconn]
      exact h.accounted
  | task t a s' hcase =>
      have htask := hp.handleTask t a (s.emits [.call (.polled t)]) hnone
      rw [hcase] at htask
      rcases htask with ⟨hconn, hend⟩ | hfreed
      · refine ⟨?_, fun h => absurd h hend⟩
        rw [hconn]
        exact h.accounted
      · have hfree : s'.connection = s.connection.freeConnData := hfreed
        constructor
        · rw [hfree]
          exact h.accounted.freeConnData
        · intro _
          rw [hfree]
          exact Connection.slots_freeConnData _
  | select ready hret => exact ⟨accounted_woken h.accounted ready, fun h => absurd h hnot⟩
  | selectFails ready hret => exact ⟨h.accounted, fun h => by cases h⟩

theorem FreesConn.wakersSound_run (hp : p.FreesConn) (h : WakersSound s)
    (hrun : run p.step s inputs = some s') : WakersSound s' :=
  run_invariant (fun _ _ _ hinv => hp.wakersSound_step hinv) h hrun

end Program

end LlgoExamples.Hyper.C
