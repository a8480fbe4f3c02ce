import LlgoExamples.Model.Hyper.Client
import LlgoExamples.Verification.Hyper.CProgram

/-! # What `client.c` does

Its assertions end it where the Go client goes on, so it is type safe whatever it is
returned. -/

namespace LlgoExamples.Hyper.C.Client

open Machine

variable {host path : CString} {t : Task} {a : Answers} {s s' : State Unit}

/-! ## Events -/

def failEvents (t : Task) (a : Answers) : List Event :=
  .call (.value t .error) :: match t.value with
    | none => []
    | some err =>
        [.call (.printf "error code: %d\n" [.int a.errorCode]),
          .call (.printf "details: %.*s\n" [.bytes (a.errorDetails.take errBufLen)]),
          .call (.freeError (some err))]

theorem run_fail : (fail t a).run s = .error (.exit 1) (s.emits (failEvents t a)) := by
  cases hvalue : t.value with
  | none =>
      simp only [fail, EStateM.run_bind, run_taskValue, hvalue, ne_eq, not_true_eq_false,
        if_false, EStateM.run_throw, failEvents]
  | some err =>
      simp only [fail, EStateM.run_bind, run_taskValue, hvalue, ne_eq, reduceCtorEq,
        not_false_eq_true, if_true, run_printf, run_call, EStateM.run_throw, emits_emits,
        failEvents]
      rfl

def clientEvents (t : Task) : List Event :=
  [.call (.printf "preparing http request ...\n" []), .call (.value t .clientConn),
    .call (.freeTask t)]

def requestEvents (host path : CString) : List Event :=
  [.request (.setMethod (literal "GET")), .request (.setURI path.bytes),
    .request (.setHeader (literal "Host") host.bytes)]

def sendEvents (t : Task) (a : Answers) : List Event :=
  [.call (.send t.value), .call (.printf "sending ...\n" []),
    .call (.push a.sendTask .send a.sendRes), .call (.freeClient t.value)]

def reasonPhrase (a : Hyper.Answers) : Bytes :=
  (a.reasonPhrase.getD []).take a.reasonPhraseLen

def responseEvents (t : Task) (a : Answers) : List Event :=
  [.call (.value t .response), .call (.freeTask t), .call (.status t.value a.status),
      .call (.reasonPhrase t.value a.reasonPhrase a.reasonPhraseLen),
      .call (.printf "\nResponse Status: %d %.*s\n"
        [.int a.status.toNat, .bytes (reasonPhrase a.toAnswers)])] ++
    headerEvents a.headers ++
    [.call (.printf "\n" []), .call (.foreachBody t.value),
      .call (.push a.foreachTask .respBody a.foreachRes), .call (.freeResponse t.value)]

def doneEvents (t : Task) : List Event :=
  [.call (.printf "\n -- Done! -- \n" []), .call (.freeTask t), .call .freeExec, .freeConn]

/-! ## Every outcome -/

/-- What a case prints of a task that failed. -/
def errorTexts : List String :=
  ["handshake error!\n", "send error!\n", "body error!\n"]

/-- The states that handling `t` in `s` can lead to, and when. -/
inductive Handled (host path : CString) (t : Task) (a : Answers) (s : State Unit) :
    State Unit → Prop where
  | background (htag : t.userdata = .notSet) :
      Handled host path t a s (s.emits [.call (.freeTask t)])
  | failed (htag : t.userdata ≠ .notSet) (htype : t.type = .error) (text : String)
      (htext : text ∈ errorTexts) :
      Handled host path t a s ({ s with ended := some (.exit 1) }.emits
        (.call (.printf text []) :: failEvents t a))
  | mistyped (htag : t.userdata ≠ .notSet) (htype : t.type ≠ .error)
      (hne : t.type ≠ expectedType t.userdata) (condition : String) :
      Handled host path t a s { s with ended := some (.assertion condition) }
  | refused (htag : t.userdata = .handshake) (htype : t.type = .clientConn)
      (hrefused : a.request.setMethod ≠ .ok ∨ a.request.setURI ≠ .ok)
      (es : List RequestEvent) (text : String) :
      Handled host path t a s ({ s with ended := some (.exit 1) }.emits
        (clientEvents t ++ es.map Event.request ++ [Event.call (.printf text [])]))
  | sent (htag : t.userdata = .handshake) (htype : t.type = .clientConn)
      (hmethod : a.request.setMethod = .ok) (huri : a.request.setURI = .ok) :
      Handled host path t a s
        (s.emits (clientEvents t ++ requestEvents host path ++ sendEvents t a))
  | responded (htag : t.userdata = .send) (htype : t.type = .response) :
      Handled host path t a s (s.emits (responseEvents t a))
  | returned (htag : t.userdata = .respBody) (htype : t.type = .empty) :
      Handled host path t a s ({ s with
        connection := s.connection.freeConnData
        ended := some (.exit 0) }.emits (doneEvents t))

theorem handled_handshake (htag : t.userdata = .handshake) :
    Handled host path t a s
      ((program host path).settle ((handshakeCase host path t a).run s)) := by
  have htagged : t.userdata ≠ .notSet := by rw [htag]; decide
  by_cases herror : t.type = .error
  · have hrun : (handshakeCase host path t a).run s = .error (.exit 1)
        (s.emits (.call (.printf "handshake error!\n" []) :: failEvents t a)) := by
      simp only [handshakeCase, herror, if_true, EStateM.run_bind, run_printf, run_fail,
        emits_emits]
      rfl
    rw [hrun]
    exact .failed htagged herror _ (by simp [errorTexts])
  by_cases htype : t.type = .clientConn
  · by_cases hmethod : a.request.setMethod = .ok
    · by_cases huri : a.request.setURI = .ok
      · have hrun : (handshakeCase host path t a).run s = .ok ()
            (s.emits (clientEvents t ++ requestEvents host path ++ sendEvents t a)) := by
          simp only [handshakeCase, herror, if_false, EStateM.run_bind, run_cAssert_of htype,
            run_printf, run_taskValue, run_call, run_emit, hmethod, huri, ne_eq,
            not_true_eq_false, emits_emits]
          rfl
        rw [hrun]
        exact .sent htag htype hmethod huri
      · have hrun : (handshakeCase host path t a).run s = .error (.exit 1)
            (s.emits (clientEvents t ++ [.request (.setMethod (literal "GET")),
              .request (.setURI path.bytes)] ++ [.call (.printf "error setting uri\n" [])])) := by
          simp only [handshakeCase, herror, if_false, EStateM.run_bind, run_cAssert_of htype,
            run_printf, run_taskValue, run_call, run_emit, hmethod, huri, ne_eq,
            not_true_eq_false, not_false_eq_true, if_true, EStateM.run_throw, emits_emits]
          rfl
        rw [hrun]
        exact .refused htag htype (.inr huri) [.setMethod (literal "GET"), .setURI path.bytes] _
    · have hrun : (handshakeCase host path t a).run s = .error (.exit 1)
          (s.emits (clientEvents t ++ [.request (.setMethod (literal "GET"))] ++
            [.call (.printf "error setting method\n" [])])) := by
        simp only [handshakeCase, herror, if_false, EStateM.run_bind, run_cAssert_of htype,
          run_printf, run_taskValue, run_call, run_emit, hmethod, ne_eq, not_false_eq_true,
          if_true, EStateM.run_throw, emits_emits]
        rfl
      rw [hrun]
      exact .refused htag htype (.inl hmethod) [.setMethod (literal "GET")] _
  · have hrun : (handshakeCase host path t a).run s =
        .error (.assertion "hyper_task_type(task) == HYPER_TASK_CLIENTCONN") s := by
      simp only [handshakeCase, herror, if_false, EStateM.run_bind, run_cAssert_not htype]
    rw [hrun]
    exact .mistyped htagged herror (by rw [htag]; exact htype) _

theorem handled_send (htag : t.userdata = .send) :
    Handled host path t a s ((program host path).settle ((sendCase t a).run s)) := by
  have htagged : t.userdata ≠ .notSet := by rw [htag]; decide
  by_cases herror : t.type = .error
  · have hrun : (sendCase t a).run s = .error (.exit 1)
        (s.emits (.call (.printf "send error!\n" []) :: failEvents t a)) := by
      simp only [sendCase, herror, if_true, EStateM.run_bind, run_printf, run_fail, emits_emits]
      rfl
    rw [hrun]
    exact .failed htagged herror _ (by simp [errorTexts])
  by_cases htype : t.type = .response
  · have hrun : (sendCase t a).run s = .ok () (s.emits (responseEvents t a)) := by
      simp only [sendCase, herror, if_false, EStateM.run_bind, run_cAssert_of htype, run_printf,
        run_taskValue, run_call, run_printEachHeader, emits_emits, responseEvents, reasonPhrase,
        List.append_assoc, List.cons_append, List.nil_append]
    rw [hrun]
    exact .responded htag htype
  · have hrun : (sendCase t a).run s =
        .error (.assertion "hyper_task_type(task) == HYPER_TASK_RESPONSE") s := by
      simp only [sendCase, herror, if_false, EStateM.run_bind, run_cAssert_not htype]
    rw [hrun]
    exact .mistyped htagged herror (by rw [htag]; exact htype) _

theorem handled_respBody (htag : t.userdata = .respBody) :
    Handled host path t a s ((program host path).settle ((respBodyCase t a).run s)) := by
  have htagged : t.userdata ≠ .notSet := by rw [htag]; decide
  by_cases herror : t.type = .error
  · have hrun : (respBodyCase t a).run s = .error (.exit 1)
        (s.emits (.call (.printf "body error!\n" []) :: failEvents t a)) := by
      simp only [respBodyCase, herror, if_true, EStateM.run_bind, run_printf, run_fail,
        emits_emits]
      rfl
    rw [hrun]
    exact .failed htagged herror _ (by simp [errorTexts])
  by_cases htype : t.type = .empty
  · have hrun : (respBodyCase t a).run s = .error (.exit 0)
        ({ s with connection := s.connection.freeConnData }.emits (doneEvents t)) := by
      simp only [respBodyCase, herror, if_false, EStateM.run_bind, run_cAssert_of htype,
        run_printf, run_call, run_freeConnData, EStateM.run_throw, State.emits, doneEvents,
        List.append_assoc, List.cons_append, List.nil_append]
    rw [hrun]
    exact .returned htag htype
  · have hrun : (respBodyCase t a).run s =
        .error (.assertion "hyper_task_type(task) == HYPER_TASK_EMPTY") s := by
      simp only [respBodyCase, herror, if_false, EStateM.run_bind, run_cAssert_not htype]
    rw [hrun]
    exact .mistyped htagged herror (by rw [htag]; exact htype) _

theorem handled (host path : CString) (t : Task) (a : Answers) (s : State Unit) :
    Handled host path t a s ((program host path).settle ((handleTask host path t a).run s)) := by
  cases htag : t.userdata with
  | notSet =>
      simp only [handleTask, htag]
      exact .background htag
  | handshake =>
      simp only [handleTask, htag]
      exact handled_handshake htag
  | send =>
      simp only [handleTask, htag]
      exact handled_send htag
  | respBody =>
      simp only [handleTask, htag]
      exact handled_respBody htag

/-! ## Type safety -/

theorem takes_failEvents (htype : t.type = .error) : takes (failEvents t a) = [(t, t.type)] := by
  rw [htype, failEvents]
  cases t.value <;> rfl

theorem continued_failEvents : continued (failEvents t a) = [] := by
  rw [failEvents]
  cases t.value <;> rfl

theorem takes_responseEvents (htype : t.type = .response) :
    takes (responseEvents t a) = [(t, t.type)] := by
  rw [htype, responseEvents, takes_append, takes_append, takes_headerEvents]
  rfl

/-- The cases of the program go on with one type each. -/
def expects (g : ExampleId) : List TaskReturnType :=
  [expectedType g]

theorem Handled.typeSafe (h : Handled host path t a (s.emits [.call (.polled t)]) s')
    (hnone : s.ended = none) : TypeSafe expects t (newEvents s s') s'.ended := by
  have hrunning : (s.emits [.call (.polled t)]).ended ≠ some (.exit 0) := not_exited hnone
  have hexpected : t.type = expectedType t.userdata → t.type ∈ expects t.userdata :=
    fun htype => List.mem_singleton.2 htype
  cases h with
  | background htag =>
      rw [newEvents_polled rfl]
      exact typeSafe_of_takes (.inl rfl) (fun h => absurd h hrunning) fun h _ => absurd htag h
  | failed htag htype text htext =>
      rw [newEvents_polled rfl]
      refine typeSafe_of_takes (.inr (takes_failEvents htype)) ?_ fun _ _ => ⟨.inl rfl, ?_⟩
      · intro h
        cases h
      · exact continued_failEvents
  | mistyped htag htype hne condition =>
      have hnew : newEvents s { s.emits [.call (.polled t)] with
          ended := some (.assertion condition) } = [.call (.polled t)] :=
        newEvents_polled (List.append_nil _).symm
      refine typeSafe_of_takes (.inl (congrArg takes hnew)) ?_ fun _ _ => ?_
      · intro h
        cases h
      · exact ⟨.inr ⟨condition, rfl⟩, congrArg continued hnew⟩
  | refused htag htype hrefused es text =>
      rw [newEvents_polled rfl]
      have htakes : takes (clientEvents t ++ es.map Event.request ++
          [Event.call (.printf text [])]) = [(t, t.type)] := by
        rw [takes_append, takes_append, takes_request, htype]
        rfl
      refine typeSafe_of_takes (.inr htakes) ?_ fun _ hnot => ?_
      · intro h
        cases h
      · exact absurd (hexpected (by rw [htag, htype]; rfl)) hnot
  | sent htag htype hmethod huri =>
      rw [newEvents_polled rfl]
      refine typeSafe_of_takes (.inr ?_) (fun h => absurd h hrunning) fun _ hnot => ?_
      · rw [htype]
        rfl
      · exact absurd (hexpected (by rw [htag, htype]; rfl)) hnot
  | responded htag htype =>
      rw [newEvents_polled rfl]
      refine typeSafe_of_takes (.inr (takes_responseEvents htype)) (fun h => absurd h hrunning)
        fun _ hnot => ?_
      exact absurd (hexpected (by rw [htag, htype]; rfl)) hnot
  | returned htag htype =>
      rw [newEvents_polled rfl]
      refine typeSafe_of_takes (.inl rfl) (fun _ => ⟨htag, htype⟩) fun _ hnot => ?_
      exact absurd (hexpected (by rw [htag, htype]; rfl)) hnot

theorem safeStep (host path : CString) (s : State Unit) (i : Input Bytes Answers) :
    SafeStep (program host path) expects s i := by
  apply safeStep_of_cases
  · rintro k s' hnone rfl
    have hnew : newEvents s (s.emits [.write k]) = [.write k] := newEvents_eq rfl
    exact ⟨congrArg takes hnew, not_exited hnone⟩
  · rintro t a s' hnone rfl
    exact (handled host path t a _).typeSafe hnone

/-- A step of the program, from what its action does. -/
theorem step_of_run (host path : CString) (i : Input Bytes Answers)
    {r : EStateM.Result Ending (State Unit) Unit} (hnone : s.ended = none)
    (hrun : ((program host path).perform i).run s = r) :
    step host path s i = some ((program host path).settle r) := by
  rw [← hrun]
  exact Program.step_eq hnone

/-! ## Wakers -/

theorem Handled.connection (h : Handled host path t a s s') (hnot : s.ended ≠ some (.exit 0)) :
    s'.connection = s.connection ∧ s'.ended ≠ some (.exit 0) ∨
      s'.connection = s.connection.freeConnData := by
  cases h with
  | background htag => exact .inl ⟨rfl, hnot⟩
  | failed htag htype text htext => exact .inl ⟨rfl, fun h => by cases h⟩
  | mistyped htag htype hne condition => exact .inl ⟨rfl, fun h => by cases h⟩
  | refused htag htype hrefused es text => exact .inl ⟨rfl, fun h => by cases h⟩
  | sent htag htype hmethod huri => exact .inl ⟨rfl, hnot⟩
  | responded htag htype => exact .inl ⟨rfl, hnot⟩
  | returned htag htype => exact .inr rfl

theorem freesConn (host path : CString) : (program host path).FreesConn where
  callBack _ _ hnone := ⟨rfl, not_exited hnone⟩
  handleTask t a s hnone := (handled host path t a s).connection (not_exited hnone)

/-- Whatever tasks the program is returned, and in whatever order, it takes each value for
what it is, carries on with no task of the wrong type, and keeps account of its wakers. -/
theorem client_safe (host path : CString) (fd : ℤ) (log : List Event)
    (inputs : List (Input Bytes Answers)) :
    AtEach (step host path) (SafeStep (program host path) expects) (entered fd () log) inputs ∧
      ∀ s, run (step host path) (entered fd () log) inputs = some s →
        s.connection.WakersKept ∧ (s.ended = some (.exit 0) → s.connection.slots = []) := by
  refine ⟨atEach_iff.2 fun _ i _ s _ _ => safeStep host path s i, ?_⟩
  intro s hrun
  have hsound := (freesConn host path).wakersSound_run (wakersSound_entered fd () log) hrun
  exact ⟨hsound.accounted.wakersKept, hsound.cleared⟩

end LlgoExamples.Hyper.C.Client
