import LlgoExamples.Verification.Hyper.Polling

/-! # Type safety of the polling loop

`fail` panics only when it is given an error. A task of an unexpected type has none to
give, so its case goes on with a value of the wrong type. The loop is type safe on exactly
the runs in which no such task is returned. -/

namespace LlgoExamples.Hyper

open Machine

variable {s s' : GetState} {t : Task} {a : Answers} {es es' : List Event}

/-! ## What is expected of a task -/

def expectedType : ExampleId → TaskReturnType
  | .handshake => .clientConn
  | .send => .response
  | .respBody => .empty
  | .notSet => .empty

/-- A tagged task has the type of its case, or an error that is not null. -/
def Task.WellTyped (t : Task) : Prop :=
  t.userdata ≠ .notSet → t.type = expectedType t.userdata ∨ t.type = .error ∧ t.value ≠ none

instance : DecidablePred Task.WellTyped := fun t =>
  inferInstanceAs (Decidable (t.userdata ≠ .notSet →
    t.type = expectedType t.userdata ∨ t.type = .error ∧ t.value ≠ none))

def Input.WellTyped : Input → Prop
  | .task t _ => t.WellTyped
  | _ => True

/-! ## What is expected of Get -/

/-- The values taken, each with the kind of pointer it was cast to. -/
def taken (es : List Event) : List (Task × ValueKind) :=
  es.filterMap fun e => match e with
    | .value t kind => some (t, kind)
    | _ => none

/-- The tasks that were returned. -/
def polledTasks (es : List Event) : List Task :=
  es.filterMap fun e => match e with
    | .polled t => some t
    | _ => none

/-- The call carries the request on. -/
def Event.carriesOn : Event → Bool
  | .send _ => true
  | .push _ _ _ => true
  | .foreachBody _ => true
  | _ => false

def continued (es : List Event) : List Event :=
  es.filter Event.carriesOn

/-- What `Get` may do while it handles `t`: `es` are its events, `status` is how it ends. -/
structure TypeSafe (t : Task) (es : List Event) (status : Status) : Prop where
  clientConn : ∀ u, (u, .clientConn) ∈ taken es →
    u = t ∧ t.userdata = .handshake ∧ t.type = .clientConn
  response : ∀ u, (u, .response) ∈ taken es → u = t ∧ t.userdata = .send ∧ t.type = .response
  error : ∀ u, (u, .error) ∈ taken es → u = t ∧ t.type = .error
  takenOnce : (taken es).length ≤ 1
  returns : status = .returned → t.userdata = .respBody ∧ t.type = .empty
  fails : t.userdata ≠ .notSet → t.type ≠ expectedType t.userdata →
    status = .panicked requestFailed ∧ continued es = []

/-- What was done between two states of a run. -/
def newEvents (s s' : GetState) : List Event :=
  s'.log.drop s.log.length

/-- `Get` takes values, and returns, only while it handles a task, and type safely. -/
def SafeStep (s : GetState) (i : Input) : Prop :=
  ∀ s', step s i = some s' → match i with
    | .task t _ => TypeSafe t (newEvents s s') s'.status
    | _ => taken (newEvents s s') = [] ∧ s'.status ≠ .returned

/-! ## The values taken by each part -/

theorem newEvents_eq (h : s'.log = s.log ++ es) : newEvents s s' = es := by
  rw [newEvents, h, List.drop_left]

theorem taken_append : taken (es ++ es') = taken es ++ taken es' :=
  List.filterMap_append

theorem continued_append : continued (es ++ es') = continued es ++ continued es' :=
  List.filter_append es es'

theorem taken_printf {α : Type} (items : List α) (format : String) (args : α → List Arg) :
    taken (items.map fun x => .printf format (args x)) = [] := by
  induction items with
  | nil => rfl
  | cons x items ih => exact ih

theorem continued_printf {α : Type} (items : List α) (format : String) (args : α → List Arg) :
    continued (items.map fun x => .printf format (args x)) = [] := by
  induction items with
  | nil => rfl
  | cons x items ih => exact ih

theorem taken_failEvents (e : ℕ) (a : Answers) : taken (failEvents e a) = [] := by
  rw [failEvents, taken_append, taken_append, taken_printf]
  rfl

theorem continued_failEvents (e : ℕ) (a : Answers) : continued (failEvents e a) = [] := by
  rw [failEvents, continued_append, continued_append, continued_printf]
  rfl

theorem mem_taken {kind : ValueKind} (h : .value t kind ∈ es) : (t, kind) ∈ taken es :=
  List.mem_filterMap.2 ⟨_, h, rfl⟩

theorem taken_bodyEvents : taken (bodyEvents t a) = [] := by
  rw [bodyEvents, taken_append, taken_printf]
  rfl

/-! ## One handled task -/

/-- A task of the expected type has to meet no more than its own case's part. -/
theorem typeSafe_of_expected {status : Status} (htype : t.type = expectedType t.userdata)
    (hkinds : ∀ p ∈ taken es, p = (t, .clientConn) ∧ t.userdata = .handshake ∨
      p = (t, .response) ∧ t.userdata = .send)
    (honce : (taken es).length ≤ 1) (hreturns : status = .returned → t.userdata = .respBody) :
    TypeSafe t es status where
  clientConn u hu := by
    rcases hkinds _ hu with ⟨heq, htag⟩ | ⟨heq, -⟩
    · rw [htag] at htype
      exact ⟨(Prod.mk.inj heq).1, htag, htype⟩
    · cases heq
  response u hu := by
    rcases hkinds _ hu with ⟨heq, -⟩ | ⟨heq, htag⟩
    · cases heq
    · rw [htag] at htype
      exact ⟨(Prod.mk.inj heq).1, htag, htype⟩
  error u hu := by
    rcases hkinds _ hu with ⟨heq, -⟩ | ⟨heq, -⟩ <;> cases heq
  takenOnce := honce
  returns h := by
    rw [hreturns h] at htype
    exact ⟨hreturns h, htype⟩
  fails _ hne := absurd htype hne

theorem complaints_expected {expected : TaskReturnType} {errorText unexpectedText : String}
    (h : t.type = expected) : complaints t expected errorText unexpectedText = [] :=
  if_pos h

/-- A task that passes the checks and is well typed has the expected type. -/
theorem Task.WellTyped.type_eq (h : t.WellTyped) (htag : t.userdata ≠ .notSet)
    (hpasses : t.Passes) : t.type = expectedType t.userdata := by
  rcases h htag with htype | ⟨herror, hvalue⟩
  · exact htype
  · exact absurd (hpasses herror) hvalue

/-- Nothing is said of such a task. -/
theorem Task.WellTyped.complaints_eq (h : t.WellTyped) {g : ExampleId} (htag : t.userdata = g)
    (hg : g ≠ .notSet) (hpasses : t.Passes) (errorText unexpectedText : String) :
    complaints t (expectedType g) errorText unexpectedText = [] := by
  subst htag
  exact complaints_expected (h.type_eq hg hpasses)

theorem handshakeComplaints_eq (hwell : t.WellTyped) (htag : t.userdata = .handshake)
    (hpasses : t.Passes) : handshakeComplaints t = [] :=
  hwell.complaints_eq htag (by decide) hpasses _ _

theorem sendComplaints_eq (hwell : t.WellTyped) (htag : t.userdata = .send)
    (hpasses : t.Passes) : sendComplaints t = [] :=
  hwell.complaints_eq htag (by decide) hpasses _ _

theorem respBodyComplaints_eq (hwell : t.WellTyped) (htag : t.userdata = .respBody)
    (hpasses : t.Passes) : respBodyComplaints t = [] :=
  hwell.complaints_eq htag (by decide) hpasses _ _

/-- A case that takes its value once is type safe unless it returns. -/
theorem typeSafe_taken {kind : ValueKind} {status : Status} (hwell : t.WellTyped)
    (hpasses : t.Passes) (htagged : t.userdata ≠ .notSet) (htaken : taken es = [(t, kind)])
    (hkind : kind = .clientConn ∧ t.userdata = .handshake ∨ kind = .response ∧ t.userdata = .send)
    (hnot : status ≠ .returned) : TypeSafe t es status := by
  apply typeSafe_of_expected (hwell.type_eq htagged hpasses)
  · intro p hp
    rw [htaken] at hp
    rw [List.mem_singleton.1 hp]
    exact hkind.imp (fun h => ⟨by rw [h.1], h.2⟩) fun h => ⟨by rw [h.1], h.2⟩
  · rw [htaken]
    exact Nat.le_refl 1
  · exact fun h => absurd h hnot

theorem Handled.typeSafe (h : Handled t a s s') (hrunning : s.status = .running)
    (hwell : t.WellTyped) : TypeSafe t (newEvents s s') s'.status := by
  have hnot : s.status ≠ .returned := by
    rw [hrunning]
    decide
  cases h with
  | background htag =>
      rw [newEvents_eq rfl]
      have htaken : taken [.polled t, .freeTask t] = [] := rfl
      refine ⟨?_, ?_, ?_, Nat.zero_le 1, fun h => absurd h hnot, fun h => absurd htag h⟩
      · simp [htaken]
      · simp [htaken]
      · simp [htaken]
  | failed htag text e htype hvalue =>
      have htaken : taken (.polled t :: .printf text [] :: .value t .error :: failEvents e a) =
          [(t, .error)] := congrArg (List.cons (t, ValueKind.error)) (taken_failEvents e a)
      have hcontinued : continued (.polled t :: .printf text [] :: .value t .error ::
          failEvents e a) = [] := continued_failEvents e a
      rw [newEvents_eq rfl]
      refine ⟨?_, ?_, ?_, ?_, ?_, fun _ _ => ⟨rfl, hcontinued⟩⟩
      · simp [htaken]
      · simp [htaken]
      · simp [htaken, htype]
      · simp [htaken]
      · intro h
        cases h
  | sent htag hpasses hres =>
      rw [newEvents_eq rfl, handshakeComplaints_eq hwell htag hpasses]
      have htagged : t.userdata ≠ .notSet := by rw [htag]; decide
      exact typeSafe_taken hwell hpasses htagged rfl (Or.inl ⟨rfl, htag⟩) hnot
  | notSent htag hpasses hres =>
      rw [newEvents_eq rfl, handshakeComplaints_eq hwell htag hpasses]
      have htagged : t.userdata ≠ .notSet := by rw [htag]; decide
      exact typeSafe_taken hwell hpasses htagged rfl (Or.inl ⟨rfl, htag⟩) (by intro h; cases h)
  | noReason htag hpasses p hreason =>
      rw [newEvents_eq rfl, sendComplaints_eq hwell htag hpasses]
      have htagged : t.userdata ≠ .notSet := by rw [htag]; decide
      exact typeSafe_taken hwell hpasses htagged rfl (Or.inr ⟨rfl, htag⟩) (by intro h; cases h)
  | responded htag hpasses message hreason =>
      have htaken : taken (.polled t :: (sendComplaints t ++ reasonEvents t a ++
          bodyEvents t a)) = [(t, .response)] := by
        rw [sendComplaints_eq hwell htag hpasses]
        exact congrArg (List.cons (t, ValueKind.response)) taken_bodyEvents
      rw [newEvents_eq rfl]
      have htagged : t.userdata ≠ .notSet := by rw [htag]; decide
      exact typeSafe_taken hwell hpasses htagged htaken (Or.inr ⟨rfl, htag⟩) hnot
  | returned htag hpasses =>
      rw [newEvents_eq rfl, respBodyComplaints_eq hwell htag hpasses]
      apply typeSafe_of_expected (hwell.type_eq (by rw [htag]; decide) hpasses)
      · intro p hp
        cases hp
      · exact Nat.zero_le 1
      · exact fun _ => htag

/-- A case that goes on although its task has the wrong type is caught: it takes a value
for what it is not, or returns. -/
theorem Handled.wellTyped (h : Handled t a s s')
    (hsafe : TypeSafe t (newEvents s s') s'.status) : t.WellTyped := by
  intro htagged
  cases h with
  | background htag => exact absurd htag htagged
  | failed htag text e htype hvalue =>
      refine Or.inr ⟨htype, ?_⟩
      rw [hvalue]
      exact Option.some_ne_none e
  | sent htag hpasses hres =>
      rw [newEvents_eq rfl] at hsafe
      left
      rw [htag]
      exact (hsafe.clientConn t (mem_taken (by simp [sendEvents]))).2.2
  | notSent htag hpasses hres =>
      rw [newEvents_eq rfl] at hsafe
      left
      rw [htag]
      exact (hsafe.clientConn t (mem_taken (by simp [sendEvents]))).2.2
  | noReason htag hpasses p hreason =>
      rw [newEvents_eq rfl] at hsafe
      left
      rw [htag]
      exact (hsafe.response t (mem_taken (by simp [reasonEvents]))).2.2
  | responded htag hpasses message hreason =>
      rw [newEvents_eq rfl] at hsafe
      left
      rw [htag]
      exact (hsafe.response t (mem_taken (by simp [reasonEvents]))).2.2
  | returned htag hpasses =>
      left
      rw [htag]
      exact (hsafe.returns rfl).2

/-! ## Every run -/

/-- Every input but a task leaves the log as it is. -/
theorem Stepped.safe {i : Input} (h : Stepped s i s') (hrunning : s.status = .running)
    (htask : ∀ t a, i ≠ .task t a) : taken (newEvents s s') = [] ∧ s'.status ≠ .returned := by
  have hnot : s.status ≠ .returned := by
    rw [hrunning]
    decide
  have hquiet : s'.log = s.log ++ [] ∧ s'.status ≠ .returned := by
    rw [List.append_nil]
    cases h with
    | task t a s' hhandled => exact absurd rfl (htask t a)
    | selectPanics ready p hselect =>
        refine ⟨rfl, ?_⟩
        intro h
        cases h
    | _ => exact ⟨rfl, hnot⟩
  rw [newEvents_eq hquiet.1]
  exact ⟨rfl, hquiet.2⟩

theorem safeStep_iff {i : Input} (herr : ErrNil s) :
    SafeStep s i ↔ (s.status = .running → i.WellTyped) := by
  constructor
  · intro hsafe hrunning
    cases i with
    | task t a =>
        have hstep : step s (.task t a) = some (settle ((handleTask t a).run s)) := by
          rw [step.eq_def, if_pos hrunning]
        exact (handled (herr hrunning)).wellTyped (hsafe _ hstep)
    | _ => trivial
  · intro hwell s' hstep
    have hrunning := status_of_step hstep
    obtain ⟨-, hstepped⟩ := stepped (herr hrunning) hstep
    cases i with
    | task t a =>
        cases hstepped with
        | task t a s' hhandled => exact hhandled.typeSafe hrunning (hwell hrunning)
    | _ => exact hstepped.safe hrunning (by simp)

/-! ## The values taken over a run -/

theorem Handled.polls (h : Handled t a s s') : ∃ rest, s'.log = s.log ++ .polled t :: rest := by
  cases h <;> exact ⟨_, rfl⟩

/-- Where a returned task is handled safely, at most its own value is taken. -/
theorem TypeSafe.sublist {status : Status} (h : TypeSafe t es status) (ht : t ∈ polledTasks es) :
    ((taken es).map Prod.fst).Sublist (polledTasks es) := by
  have hown : ∀ p ∈ taken es, p.1 = t := by
    rintro ⟨u, kind⟩ hp
    cases kind with
    | error => exact (h.error u hp).1
    | clientConn => exact (h.clientConn u hp).1
    | response => exact (h.response u hp).1
  have honce := h.takenOnce
  cases htaken : taken es with
  | nil => exact List.nil_sublist _
  | cons p rest =>
      have hrest : rest = [] := by
        rw [htaken, List.length_cons] at honce
        exact List.length_eq_zero_iff.1 (by omega)
      rw [hrest, List.map_singleton, hown p (by simp [htaken])]
      exact List.singleton_sublist.2 ht

/-- Each time that a task was returned its value was taken at most once. -/
def TakenOnce (s : GetState) : Prop :=
  ((taken s.log).map Prod.fst).Sublist (polledTasks s.log)

theorem TakenOnce.of_step {i : Input} (h : TakenOnce s) (herr : ErrNil s) (hsafe : SafeStep s i)
    (hstep : step s i = some s') : TakenOnce s' := by
  have hsafe := hsafe s' hstep
  obtain ⟨-, hstepped⟩ := stepped (herr (status_of_step hstep)) hstep
  cases hstepped with
  | task t a s' hhandled =>
      obtain ⟨rest, hlog⟩ := hhandled.polls
      have hsublist := TypeSafe.sublist hsafe (by rw [newEvents_eq hlog]; simp [polledTasks])
      rw [newEvents_eq hlog] at hsublist
      rw [TakenOnce, hlog, taken_append, List.map_append, polledTasks, List.filterMap_append]
      exact List.Sublist.append h hsublist
  | _ => exact h

theorem takenOnce_run {inputs : List Input} (h : TakenOnce s) (herr : ErrNil s)
    (hsafe : AtEach step SafeStep s inputs) (hrun : run step s inputs = some s') :
    TakenOnce s' := by
  have hsteps : ∀ s i s', ErrNil s ∧ TakenOnce s → SafeStep s i → step s i = some s' →
      ErrNil s' ∧ TakenOnce s' := by
    intro s i s' hinv hsafe hstep
    exact ⟨hinv.1.of_step hstep, hinv.2.of_step hinv.1 hsafe hstep⟩
  exact (run_invariant_of_atEach hsteps ⟨herr, h⟩ hsafe hrun).2

/-- The value is that of a task that came in, and a client or a response that of a task of
that type. -/
structure TakenFrom (inputs : List Input) (t : Task) (kind : ValueKind) : Prop where
  input : ∃ a, .task t a ∈ inputs
  clientConn : kind = .clientConn → t.userdata = .handshake ∧ t.type = .clientConn
  response : kind = .response → t.userdata = .send ∧ t.type = .response

theorem taken_of_step {i : Input} {u : Task} {kind : ValueKind} (herr : ErrNil s)
    (hsafe : SafeStep s i) (hstep : step s i = some s') (ht : (u, kind) ∈ taken s'.log) :
    (u, kind) ∈ taken s.log ∨ TakenFrom [i] u kind := by
  have hsafe := hsafe s' hstep
  obtain ⟨-, hstepped⟩ := stepped (herr (status_of_step hstep)) hstep
  cases hstepped with
  | task t a s' hhandled =>
      obtain ⟨rest, hlog⟩ := hhandled.polls
      have hsafe : TypeSafe t (newEvents s s') s'.status := hsafe
      rw [newEvents_eq hlog] at hsafe
      rw [hlog, taken_append, List.mem_append] at ht
      refine ht.imp_right fun hnew => ?_
      cases kind with
      | error =>
          obtain ⟨rfl, -⟩ := hsafe.error u hnew
          refine ⟨⟨a, List.mem_singleton_self _⟩, ?_, ?_⟩ <;> intro h <;> cases h
      | clientConn =>
          obtain ⟨rfl, htag, htype⟩ := hsafe.clientConn u hnew
          refine ⟨⟨a, List.mem_singleton_self _⟩, fun _ => ⟨htag, htype⟩, ?_⟩
          intro h
          cases h
      | response =>
          obtain ⟨rfl, htag, htype⟩ := hsafe.response u hnew
          refine ⟨⟨a, List.mem_singleton_self _⟩, ?_, fun _ => ⟨htag, htype⟩⟩
          intro h
          cases h
  | _ => exact .inl ht

theorem taken_of_run {inputs : List Input} {u : Task} {kind : ValueKind} (herr : ErrNil s)
    (hsafe : AtEach step SafeStep s inputs) (hrun : run step s inputs = some s')
    (ht : (u, kind) ∈ taken s'.log) : (u, kind) ∈ taken s.log ∨ TakenFrom inputs u kind := by
  induction inputs generalizing s with
  | nil =>
      cases hrun
      exact .inl ht
  | cons i inputs ih =>
      obtain ⟨mid, hstep, hrest⟩ := run_cons_eq_some.1 hrun
      obtain ⟨hsafe, hsafeRest⟩ := hsafe
      rcases ih (herr.of_step hstep) (hsafeRest mid hstep) hrest with hmid | hfrom
      · refine (taken_of_step herr hsafe hstep hmid).imp_right fun hfrom => ?_
        obtain ⟨a, ha⟩ := hfrom.input
        have hi : .task u a ∈ i :: inputs := List.mem_cons.2 (.inl (List.mem_singleton.1 ha))
        exact ⟨⟨a, hi⟩, hfrom.clientConn, hfrom.response⟩
      · obtain ⟨a, ha⟩ := hfrom.input
        exact .inr ⟨⟨a, List.mem_cons_of_mem i ha⟩, hfrom.clientConn, hfrom.response⟩

/-- `Get` is type safe along a run exactly when every tagged task that it is returned has
the type of its case, or an error that is not null. Over a safe run the value of a task is
taken no more often than the task was returned. -/
theorem safe_run_iff (fd : ℤ) (handshakeTask : ℕ) (handshakeRes : Code)
    (inputs : List Input) :
    (AtEach step SafeStep (GetState.start fd handshakeTask handshakeRes) inputs ↔
        AtEach step (fun s i => s.status = .running → i.WellTyped)
          (GetState.start fd handshakeTask handshakeRes) inputs) ∧
      (AtEach step SafeStep (GetState.start fd handshakeTask handshakeRes) inputs →
        ∀ s, run step (GetState.start fd handshakeTask handshakeRes) inputs = some s →
          ∀ t, ((taken s.log).map Prod.fst).count t ≤ (polledTasks s.log).count t) := by
  have hstart := errNil_start fd handshakeTask handshakeRes
  constructor
  · apply atEach_congr ErrNil
    · intro s i herr
      exact safeStep_iff herr
    · intro s i s' herr _ hstep
      exact herr.of_step hstep
    · exact hstart
  · intro hsafe s hrun t
    have htaken : TakenOnce (GetState.start fd handshakeTask handshakeRes) :=
      List.nil_sublist []
    exact (takenOnce_run htaken hstart hsafe hrun).count_le t

/-- A handshake task that completed without a value. -/
def emptyHandshake : Task :=
  { id := 0, userdata := .handshake, type := .empty, value := none }

def refusedAnswers : Answers :=
  { errorCode := 0, errorDetails := [], sendTask := 0, sendRes := .invalidArg,
    reasonPhrase := none, reasonPhraseLen := 0, status := 0, headers := [],
    foreachTask := 0, foreachRes := .ok }

/-- `fail` returns, and the missing value is sent on as a client. -/
theorem not_safe_emptyHandshake :
    ¬ AtEach step SafeStep (GetState.start 3 0 .ok) [.task emptyHandshake refusedAnswers] := by
  intro h
  have hsafe := h.1 _ rfl
  have hclient := hsafe.clientConn emptyHandshake (by decide)
  exact absurd hclient.2.2 (by decide)

end LlgoExamples.Hyper
