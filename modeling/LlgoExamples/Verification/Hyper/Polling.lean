import LlgoExamples.Model.Hyper.Get

/-! # What handling a task can do

The programs of the polling loop are evaluated once. Every later proof about a handled
task is a case analysis on `Handled`. -/

namespace LlgoExamples.Hyper

open Machine

variable {s : GetState} {t : Task} {a : Answers}

/-! ## Events -/

def GetState.emits (s : GetState) (es : List Event) : GetState :=
  { s with log := s.log ++ es }

theorem emits_emits (es es' : List Event) :
    (s.emits es).emits es' = s.emits (es ++ es') := by
  simp only [GetState.emits, List.append_assoc]

theorem emits_nil : s.emits [] = s := by
  simp only [GetState.emits, List.append_nil]

@[simp] theorem run_emit (e : Event) (s : GetState) :
    (emit e).run s = .ok () (s.emits [e]) := rfl

@[simp] theorem run_printf (format : String) (args : List Arg) (s : GetState) :
    (printf format args).run s = .ok () (s.emits [.printf format args]) := rfl

@[simp] theorem run_taskValue (t : Task) (kind : ValueKind) (s : GetState) :
    (taskValue t kind).run s = .ok t.value (s.emits [.value t kind]) := rfl

theorem run_forM_printf {α : Type} (items : List α) (format : String) (args : α → List Arg)
    (s : GetState) : (items.forM fun x => printf format (args x)).run s =
      .ok () (s.emits (items.map fun x => .printf format (args x))) := by
  induction items generalizing s with
  | nil =>
      rw [List.map_nil, emits_nil]
      rfl
  | cons x items ih =>
      have hstep : ((x :: items).forM fun x => printf format (args x)).run s =
          (items.forM fun x => printf format (args x)).run
            (s.emits [.printf format (args x)]) := rfl
      rw [hstep, ih, emits_emits]
      rfl

/-! ## Failing -/

def requestFailed : Panic :=
  .plain "request failed\n"

/-- What `fail` does with an error before it panics. -/
def failEvents (err : ℕ) (a : Answers) : List Event :=
  [.printf "error code: %d\n" [.int a.errorCode], .printf "details: " []] ++
    ((a.errorDetails.take errBufLen).map fun char => .printf "%c" [.bytes [char]]) ++
    [.printf "\n" [], .freeError (some err)]

theorem run_fail_none (a : Answers) (s : GetState) : (fail none a).run s = .ok () s := rfl

theorem run_fail_some (err : ℕ) (a : Answers) (s : GetState) :
    (fail (some err) a).run s = .error requestFailed (s.emits (failEvents err a)) := by
  simp only [fail, ne_eq, reduceCtorEq, not_false_eq_true, if_true, EStateM.run_bind,
    run_printf, run_forM_printf, run_emit, EStateM.run_throw, emits_emits, failEvents,
    requestFailed, List.append_assoc, List.cons_append, List.nil_append]

/-! ## The checks of a case -/

/-- What a case reports of a task that its checks let through. -/
def complaints (t : Task) (expected : TaskReturnType) (errorText unexpectedText : String) :
    List Event :=
  if t.type = expected then []
  else if t.type = .error then
    [.printf errorText [], .value t .error, .printf unexpectedText []]
  else [.printf unexpectedText []]

/-- `fail` returns, so that the case goes on, unless the task has an error to show. -/
def Task.Passes (t : Task) : Prop :=
  t.type = .error → t.value = none

theorem run_checkType_passes {expected : TaskReturnType} {errorText unexpectedText : String}
    (herr : s.err = none) (hexpected : expected ≠ .error) (hpasses : t.Passes) :
    (checkType t a expected errorText unexpectedText).run s =
      .ok () (s.emits (complaints t expected errorText unexpectedText)) := by
  by_cases htype : t.type = expected
  · simp only [checkType, htype, hexpected, if_false, ne_eq, not_true_eq_false,
      EStateM.run_pure, complaints, if_true, emits_nil]
  · -- neither check panics: the first has no error to show, the second has nil
    have hcomplain : (failWithErr a).run (s.emits (complaints t expected errorText
        unexpectedText)) = .ok () (s.emits (complaints t expected errorText unexpectedText)) := by
      have herr' : (s.emits (complaints t expected errorText unexpectedText)).err = none := herr
      simp only [failWithErr, EStateM.run_bind, EStateM.run_get, herr', run_fail_none]
    by_cases herror : t.type = .error
    · have hkeep : ∀ s : GetState, s.err = none → { s with err := none } = s := by
        rintro ⟨_, _, _, _, _, _⟩ rfl
        rfl
      rw [complaints, if_neg htype, if_pos herror] at hcomplain ⊢
      simp only [checkType, herror, if_true, EStateM.run_bind, run_printf, failWithValue,
        run_taskValue, EStateM.run_modify, hpasses herror, run_fail_none, emits_emits]
      have hunexpected : TaskReturnType.error ≠ expected := by rwa [herror] at htype
      rw [hkeep (s.emits _) herr, if_pos hunexpected]
      simp only [EStateM.run_bind, run_printf, emits_emits]
      exact hcomplain
    · rw [complaints, if_neg htype, if_neg herror] at hcomplain ⊢
      simp only [checkType, herror, if_false, htype, ne_eq, not_false_eq_true, if_true,
        EStateM.run_bind, run_printf]
      exact hcomplain

theorem run_checkType_fails {expected : TaskReturnType} {errorText unexpectedText : String}
    {e : ℕ} (htype : t.type = .error) (hvalue : t.value = some e) :
    (checkType t a expected errorText unexpectedText).run s = .error requestFailed
      ({ s with err := some e }.emits
        (.printf errorText [] :: .value t .error :: failEvents e a)) := by
  simp only [checkType, htype, if_true, EStateM.run_bind, run_printf, failWithValue,
    run_taskValue, EStateM.run_modify, hvalue, run_fail_some]
  simp only [GetState.emits, List.append_assoc, List.cons_append, List.nil_append]

/-! ## What a case does after its checks -/

def sendEvents (t : Task) (a : Answers) : List Event :=
  [.printf "preparing http request ...\n" [], .value t .clientConn, .freeTask t, .send t.value,
    .printf "sending ...\n" [], .push a.sendTask .send a.sendRes]

def reasonEvents (t : Task) (a : Answers) : List Event :=
  [.value t .response, .freeTask t, .reasonPhrase t.value a.reasonPhrase a.reasonPhraseLen,
    .status t.value a.status]

def bodyEvents (t : Task) (a : Answers) : List Event :=
  (a.headers.map fun header =>
      .printf "%.*s: %.*s\n" [.bytes header.1, .bytes header.2]) ++
    [.printf "\n" [], .foreachBody t.value, .push a.foreachTask .respBody a.foreachRes,
      .freeResponse t.value]

def handshakeComplaints (t : Task) : List Event :=
  complaints t .clientConn "handshake error!\n" "169 unexpected task type\n"

def sendComplaints (t : Task) : List Event :=
  complaints t .response "send error!\n" "unexpected task type\n"

def respBodyComplaints (t : Task) : List Event :=
  complaints t .empty "body error!\n" "unexpected task type\n"

def returnEvents (t : Task) : List Event :=
  [.freeTask t, .freeExec]

theorem run_handshakeCase_sent (herr : s.err = none) (hpasses : t.Passes)
    (hres : a.sendRes = .ok) : (handshakeCase t a).run s =
      .ok () (s.emits (handshakeComplaints t ++ sendEvents t a ++ [.freeClient t.value])) := by
  have hcheck : (checkType t a .clientConn _ _).run s =
      .ok () (s.emits (handshakeComplaints t)) :=
    run_checkType_passes herr (by decide) hpasses
  simp only [handshakeCase, EStateM.run_bind, hcheck, run_printf, run_taskValue, run_emit, hres,
    ne_eq, not_true_eq_false, if_false, emits_emits, sendEvents, List.append_assoc,
    List.cons_append, List.nil_append]

theorem run_handshakeCase_notSent (herr : s.err = none) (hpasses : t.Passes)
    (hres : a.sendRes ≠ .ok) : (handshakeCase t a).run s =
      .error (.plain "error send\n") (s.emits (handshakeComplaints t ++ sendEvents t a)) := by
  have hcheck : (checkType t a .clientConn _ _).run s =
      .ok () (s.emits (handshakeComplaints t)) :=
    run_checkType_passes herr (by decide) hpasses
  simp only [handshakeCase, EStateM.run_bind, hcheck, run_printf, run_taskValue, run_emit, hres,
    ne_eq, not_false_eq_true, if_true, EStateM.run_throw, emits_emits, sendEvents,
    List.append_assoc, List.cons_append, List.nil_append]

theorem run_sendCase_noReason (herr : s.err = none) (hpasses : t.Passes) {p : Panic}
    (hreason : stringOf a.reasonPhrase a.reasonPhraseLen = .error p) : (sendCase t a).run s =
      .error p ({ s with response := { s.response with status := a.status } }.emits
        (sendComplaints t ++ reasonEvents t a)) := by
  have hcheck : (checkType t a .response _ _).run s = .ok () (s.emits (sendComplaints t)) :=
    run_checkType_passes herr (by decide) hpasses
  simp only [sendCase, EStateM.run_bind, hcheck, run_taskValue, run_emit, EStateM.run_modify,
    hreason, EStateM.run_throw, emits_emits, reasonEvents, List.append_assoc, List.cons_append,
    List.nil_append]
  rfl

theorem run_sendCase_responded (herr : s.err = none) (hpasses : t.Passes) {message : Bytes}
    (hreason : stringOf a.reasonPhrase a.reasonPhraseLen = .ok message) : (sendCase t a).run s =
      .ok () ({ s with
        response := { s.response with status := a.status, message := message } }.emits
          (sendComplaints t ++ reasonEvents t a ++ bodyEvents t a)) := by
  have hcheck : (checkType t a .response _ _).run s = .ok () (s.emits (sendComplaints t)) :=
    run_checkType_passes herr (by decide) hpasses
  simp only [sendCase, EStateM.run_bind, hcheck, run_taskValue, run_emit, EStateM.run_modify,
    hreason, run_forM_printf, run_printf, emits_emits, reasonEvents, bodyEvents]
  simp only [GetState.emits, List.append_assoc, List.cons_append, List.nil_append]

theorem run_respBodyCase (herr : s.err = none) (hpasses : t.Passes) :
    (respBodyCase t a).run s =
      .ok () ({ s with
        connection := s.connection.freeConnData
        status := .returned }.emits (respBodyComplaints t ++ returnEvents t)) := by
  have hcheck : (checkType t a .empty _ _).run s = .ok () (s.emits (respBodyComplaints t)) :=
    run_checkType_passes herr (by decide) hpasses
  simp only [respBodyCase, EStateM.run_bind, hcheck, run_emit, EStateM.run_modify, emits_emits,
    returnEvents, List.append_assoc, List.cons_append, List.nil_append]
  rfl

/-! ## Every outcome -/

/-- The states that handling `t` in `s` can lead to, and when. -/
inductive Handled (t : Task) (a : Answers) (s : GetState) : GetState → Prop where
  | background (htag : t.userdata = .notSet) :
      Handled t a s (s.emits [.polled t, .freeTask t])
  | failed (htag : t.userdata ≠ .notSet) (text : String) (e : ℕ) (htype : t.type = .error)
      (hvalue : t.value = some e) :
      Handled t a s ({ s with err := some e, status := .panicked requestFailed }.emits
        (.polled t :: .printf text [] :: .value t .error :: failEvents e a))
  | sent (htag : t.userdata = .handshake) (hpasses : t.Passes) (hres : a.sendRes = .ok) :
      Handled t a s (s.emits
        (.polled t :: (handshakeComplaints t ++ sendEvents t a ++ [.freeClient t.value])))
  | notSent (htag : t.userdata = .handshake) (hpasses : t.Passes) (hres : a.sendRes ≠ .ok) :
      Handled t a s ({ s with status := .panicked (.plain "error send\n") }.emits
        (.polled t :: (handshakeComplaints t ++ sendEvents t a)))
  | noReason (htag : t.userdata = .send) (hpasses : t.Passes) (p : Panic)
      (hreason : stringOf a.reasonPhrase a.reasonPhraseLen = .error p) :
      Handled t a s ({ s with
        response := { s.response with status := a.status }
        status := .panicked p }.emits
          (.polled t :: (sendComplaints t ++ reasonEvents t a)))
  | responded (htag : t.userdata = .send) (hpasses : t.Passes) (message : Bytes)
      (hreason : stringOf a.reasonPhrase a.reasonPhraseLen = .ok message) :
      Handled t a s ({ s with
        response := { s.response with status := a.status, message := message } }.emits
          (.polled t :: (sendComplaints t ++ reasonEvents t a ++ bodyEvents t a)))
  | returned (htag : t.userdata = .respBody) (hpasses : t.Passes) :
      Handled t a s ({ s with
        connection := s.connection.freeConnData
        status := .returned }.emits
          (.polled t :: (respBodyComplaints t ++ returnEvents t)))

/-- A tagged task either has an error to show, or its case goes on to the end. -/
theorem passes_or_error (t : Task) : t.Passes ∨ ∃ e, t.type = .error ∧ t.value = some e := by
  by_cases htype : t.type = .error
  · cases hvalue : t.value with
    | none => exact Or.inl fun _ => hvalue
    | some e => exact Or.inr ⟨e, htype, rfl⟩
  · exact Or.inl fun h => absurd h htype

theorem handled (herr : s.err = none) :
    Handled t a s (settle ((handleTask t a).run s)) := by
  have herr' : (s.emits [.polled t]).err = none := herr
  rcases passes_or_error t with hpasses | ⟨e, htype, hvalue⟩
  · cases htag : t.userdata with
    | notSet =>
        simp only [handleTask, EStateM.run_bind, run_emit, htag, notSetCase, settle, emits_emits]
        exact .background htag
    | handshake =>
        simp only [handleTask, EStateM.run_bind, run_emit, htag]
        by_cases hres : a.sendRes = .ok
        · have h := Handled.sent (s := s) htag hpasses hres
          rw [run_handshakeCase_sent herr' hpasses hres, emits_emits]
          exact h
        · have h := Handled.notSent (s := s) htag hpasses hres
          rw [run_handshakeCase_notSent herr' hpasses hres, emits_emits]
          exact h
    | send =>
        simp only [handleTask, EStateM.run_bind, run_emit, htag]
        cases hreason : stringOf a.reasonPhrase a.reasonPhraseLen with
        | error p =>
            have h := Handled.noReason (s := s) htag hpasses p hreason
            rw [run_sendCase_noReason herr' hpasses hreason]
            simpa only [settle, GetState.emits, List.append_assoc, List.singleton_append] using h
        | ok message =>
            have h := Handled.responded (s := s) htag hpasses message hreason
            rw [run_sendCase_responded herr' hpasses hreason]
            simpa only [settle, GetState.emits, List.append_assoc, List.singleton_append] using h
    | respBody =>
        have h := Handled.returned (a := a) (s := s) htag hpasses
        simp only [handleTask, EStateM.run_bind, run_emit, htag]
        rw [run_respBodyCase herr' hpasses]
        simpa only [settle, GetState.emits, List.append_assoc, List.singleton_append] using h
  · -- the error value stops the first check of whichever case it is
    have hcheck : ∀ expected errorText unexpectedText,
        (checkType t a expected errorText unexpectedText).run (s.emits [.polled t]) =
          .error requestFailed ({ s.emits [.polled t] with err := some e }.emits
            (.printf errorText [] :: .value t .error :: failEvents e a)) :=
      fun _ _ _ => run_checkType_fails htype hvalue
    have hfailed := fun htag text => Handled.failed (a := a) (s := s) htag text e htype hvalue
    cases htag : t.userdata with
    | notSet =>
        simp only [handleTask, EStateM.run_bind, run_emit, htag, notSetCase, settle, emits_emits]
        exact .background htag
    | handshake =>
        have h := hfailed (by rw [htag]; decide) "handshake error!\n"
        simp only [handleTask, EStateM.run_bind, run_emit, htag, handshakeCase, hcheck]
        simpa only [settle, GetState.emits, List.append_assoc, List.singleton_append] using h
    | send =>
        have h := hfailed (by rw [htag]; decide) "send error!\n"
        simp only [handleTask, EStateM.run_bind, run_emit, htag, sendCase, hcheck]
        simpa only [settle, GetState.emits, List.append_assoc, List.singleton_append] using h
    | respBody =>
        have h := hfailed (by rw [htag]; decide) "body error!\n"
        simp only [handleTask, EStateM.run_bind, run_emit, htag, respBodyCase, hcheck]
        simpa only [settle, GetState.emits, List.append_assoc, List.singleton_append] using h

/-! ## Every step -/

/-- The states that one input can lead to from a running `Get`. -/
inductive Stepped (s : GetState) : Input → GetState → Prop where
  | readCallBack (ret errno : ℤ) : Stepped s (.readCallBack ret errno)
      { s with connection := (s.connection.readCallBack ret errno).2 }
  | writeCallBack (ret errno : ℤ) : Stepped s (.writeCallBack ret errno)
      { s with connection := (s.connection.writeCallBack ret errno).2 }
  | bodyChunk (mallocOk : Bool) (chunk : Bytes) (r : ℕ × Response × CHeap)
      (happend : appendToResponseBody mallocOk chunk s.response s.heap = some r) :
      Stepped s (.bodyChunk mallocOk chunk) { s with response := r.2.1, heap := r.2.2 }
  | task (t : Task) (a : Answers) (s' : GetState) (hhandled : Handled t a s s') :
      Stepped s (.task t a) s'
  | select (ready : Readiness) (hselect : (s.connection.selectRound ready).1 = none) :
      Stepped s (.select ready) { s with connection := (s.connection.selectRound ready).2 }
  | selectPanics (ready : Readiness) (p : Panic)
      (hselect : (s.connection.selectRound ready).1 = some p) :
      Stepped s (.select ready)
        { s with connection := (s.connection.selectRound ready).2, status := .panicked p }

theorem stepped {i : Input} {s' : GetState} (herr : s.err = none) (hstep : step s i = some s') :
    s.status = .running ∧ Stepped s i s' := by
  by_cases hrunning : s.status = .running
  · refine ⟨hrunning, ?_⟩
    rw [step.eq_def, if_pos hrunning] at hstep
    cases i with
    | readCallBack ret errno =>
        rw [← Option.some.inj hstep]
        exact .readCallBack ret errno
    | writeCallBack ret errno =>
        rw [← Option.some.inj hstep]
        exact .writeCallBack ret errno
    | bodyChunk mallocOk chunk =>
        obtain ⟨r, hr, heq⟩ := Option.map_eq_some_iff.1 hstep
        rw [← heq]
        exact .bodyChunk mallocOk chunk r hr
    | task t a =>
        rw [← Option.some.inj hstep]
        exact .task t a _ (handled herr)
    | select ready =>
        rcases hround : s.connection.selectRound ready with ⟨p, c⟩
        simp only [hround] at hstep
        have hc : c = (s.connection.selectRound ready).2 := by rw [hround]
        cases p with
        | none =>
            rw [← Option.some.inj hstep, hc]
            exact .select ready (by rw [hround])
        | some p =>
            rw [← Option.some.inj hstep, hc]
            exact .selectPanics ready p (by rw [hround])
  · rw [step.eq_def, if_neg hrunning] at hstep
    exact absurd hstep (by simp)

/-- While `Get` runs, `err` is nil: it is assigned only what `fail` then panics on. -/
def ErrNil (s : GetState) : Prop :=
  s.status = .running → s.err = none

theorem errNil_start (fd : ℤ) (handshakeTask : ℕ) (handshakeRes : Code) :
    ErrNil (GetState.start fd handshakeTask handshakeRes) :=
  fun _ => rfl

theorem status_of_step {i : Input} {s' : GetState} (hstep : step s i = some s') :
    s.status = .running := by
  by_contra hrunning
  rw [step.eq_def, if_neg hrunning] at hstep
  exact absurd hstep (by simp)

theorem ErrNil.of_step {i : Input} {s' : GetState} (h : ErrNil s) (hstep : step s i = some s') :
    ErrNil s' := by
  have herr := h (status_of_step hstep)
  intro hrunning
  obtain ⟨-, hstepped⟩ := stepped herr hstep
  cases hstepped with
  | readCallBack ret errno => exact herr
  | writeCallBack ret errno => exact herr
  | bodyChunk mallocOk chunk r happend => exact herr
  | select ready hselect => exact herr
  | selectPanics ready p hselect => exact herr
  | task t a s' hhandled =>
      cases hhandled with
      | failed htag text e htype hvalue =>
          -- the one assignment ends the run
          cases hrunning
      | _ => exact herr

theorem errNil_run {inputs : List Input} {s' : GetState} (h : ErrNil s)
    (hrun : run step s inputs = some s') : ErrNil s' :=
  run_invariant (fun _ _ _ hinv => hinv.of_step) h hrun

/-! ## The connection -/

section Connection

variable {Inv : Connection → Prop} {s' : GetState}
  (hio : ∀ c dir fail ret errno, Inv c → Inv (Connection.ioCallBack dir fail ret errno c).2)
  (hselect : ∀ c ready, Inv c → Inv (Connection.selectRound ready c).2)
  (hfree : ∀ c, Inv c → Inv c.freeConnData)

include hio hselect hfree

/-- What the callbacks, the select round and the cleanup keep of the connection, every
step keeps. -/
theorem connection_step {i : Input} (herr : ErrNil s) (hinv : Inv s.connection)
    (hstep : step s i = some s') : Inv s'.connection := by
  obtain ⟨-, hstepped⟩ := stepped (herr (status_of_step hstep)) hstep
  cases hstepped with
  | readCallBack ret errno => exact hio _ _ _ _ _ hinv
  | writeCallBack ret errno => exact hio _ _ _ _ _ hinv
  | bodyChunk mallocOk chunk r happend => exact hinv
  | select ready hready => exact hselect _ ready hinv
  | selectPanics ready p hready => exact hselect _ ready hinv
  | task t a s' hhandled =>
      cases hhandled with
      | returned htag hpasses => exact hfree _ hinv
      | _ => exact hinv

theorem connection_run {inputs : List Input} (herr : ErrNil s) (hinv : Inv s.connection)
    (hrun : run step s inputs = some s') : Inv s'.connection := by
  induction inputs generalizing s with
  | nil =>
      cases hrun
      exact hinv
  | cons i inputs ih =>
      obtain ⟨mid, hmid, hrest⟩ := run_cons_eq_some.1 hrun
      have hnext := connection_step hio hselect hfree herr hinv hmid
      exact ih (herr.of_step hmid) hnext hrest

end Connection

end LlgoExamples.Hyper
