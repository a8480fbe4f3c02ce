import LlgoExamples.Model.Hyper.Upload
import LlgoExamples.Verification.Hyper.CProgram

/-! # What `upload.c` does

The outcomes of its cases, and the body of the request as hyper sees it. -/

namespace LlgoExamples.Hyper.C.Upload

open Machine

variable {host path : CString} {t : Task} {a : Answers} {s s' : State Locals}

/-! ## Events -/

def clientEvents (t : Task) : List Event :=
  [.call (.printf "preparing http request ...\n" []), .call (.value t .clientConn),
    .call (.freeTask t)]

def requestEvents (host path : CString) : List Event :=
  [.request (.setMethod (literal "POST")), .request (.setURI path.bytes),
    .request (.setHeader (literal "host") host.bytes),
    .request (.setHeader (literal "expect") (literal "100-continue")),
    .call (.printf "    with expect-continue ...\n" []), .onInformational, .setBody]

def sendEvents (t : Task) (a : Answers) : List Event :=
  [.call (.send t.value), .call (.printf "sending ...\n" []),
    .call (.push a.sendTask .send a.sendRes), .call (.freeClient t.value)]

def dataEvents (body : Option ℕ) (a : Answers) : List Event :=
  [.bodyData body, .call (.push a.dataTask .respBody a.dataRes)]

def statusEvents (t : Task) (a : Answers) : List Event :=
  [.call (.value t .response), .call (.freeTask t), .call (.status t.value a.status),
    .call (.printf "\nResponse Status: %d\n" [.int a.status.toNat])]

def bodyEvents (t : Task) (a : Answers) : List Event :=
  [.call (.printf "\n" []), .responseBody t.value a.respBody] ++
    dataEvents (some a.respBody) a ++ [.call (.freeResponse t.value)]

def chunkEvents (t : Task) (a : Answers) : List Event :=
  [.bufValue t, .write a.chunk, .freeBuf t.value, .call (.freeTask t)]

def doneEvents (t : Task) (body : Option ℕ) : List Event :=
  [.call (.freeTask t), .freeBody body, .call (.printf "\n -- Done! -- \n" []), .call .freeExec,
    .freeConn, .freeUploadBuf]

@[simp] theorem run_pushBodyData (a : Answers) (s : State Locals) :
    (pushBodyData a).run s = .ok () (s.emits (dataEvents s.locals.respBody a)) := by
  simp only [pushBodyData, EStateM.run_bind, EStateM.run_get, run_emit, run_call, emits_emits]
  rfl

/-! ## Every outcome -/

/-- The states that handling `t` in `s` can lead to, and when. -/
inductive Handled (host path : CString) (t : Task) (a : Answers) (s : State Locals) :
    State Locals → Prop where
  | background (htag : t.userdata = .notSet) :
      Handled host path t a s (s.emits [.call (.freeTask t)])
  | failed (htag : t.userdata ≠ .notSet) (htype : t.type = .error) (text : String) :
      Handled host path t a s
        ({ s with ended := some (.exit 1) }.emits [.call (.printf text [])])
  | mistyped (htag : t.userdata ≠ .notSet) (htype : t.type ≠ .error)
      (hne : t.type ≠ expectedType t.userdata) (hbuf : t.userdata = .respBody → t.type ≠ .buf)
      (condition : String) :
      Handled host path t a s { s with ended := some (.assertion condition) }
  | refused (htag : t.userdata = .handshake) (htype : t.type = .clientConn)
      (es : List RequestEvent) (text : String) :
      Handled host path t a s ({ s with ended := some (.exit 1) }.emits
        (clientEvents t ++ es.map Event.request ++ [Event.call (.printf text [])]))
  | sent (htag : t.userdata = .handshake) (htype : t.type = .clientConn) :
      Handled host path t a s
        (s.emits (clientEvents t ++ requestEvents host path ++ sendEvents t a))
  | responded (htag : t.userdata = .send) (htype : t.type = .response) :
      Handled host path t a s
        ({ s with locals := { s.locals with respBody := some a.respBody } }.emits
          (statusEvents t a ++ headerEvents a.headers ++ bodyEvents t a))
  | printed (htag : t.userdata = .respBody) (htype : t.type = .buf) :
      Handled host path t a s
        (s.emits (chunkEvents t a ++ dataEvents s.locals.respBody a))
  | returned (htag : t.userdata = .respBody) (htype : t.type = .empty) :
      Handled host path t a s ({ s with
        connection := s.connection.freeConnData
        ended := some (.exit 0) }.emits (doneEvents t s.locals.respBody))

theorem handled_handshake (htag : t.userdata = .handshake) :
    Handled host path t a s
      ((program host path).settle ((handshakeCase host path t a).run s)) := by
  have htagged : t.userdata ≠ .notSet := by rw [htag]; decide
  by_cases herror : t.type = .error
  · have hrun : (handshakeCase host path t a).run s = .error (.exit 1)
        (s.emits [.call (.printf "handshake error!\n" [])]) := by
      simp only [handshakeCase, herror, if_true, EStateM.run_bind, run_printf,
        EStateM.run_throw]
    rw [hrun]
    exact .failed htagged herror _
  by_cases htype : t.type = .clientConn
  · by_cases hmethod : a.request.setMethod = .ok
    · by_cases huri : a.request.setURI = .ok
      · have hrun : (handshakeCase host path t a).run s = .ok ()
            (s.emits (clientEvents t ++ requestEvents host path ++ sendEvents t a)) := by
          simp only [handshakeCase, herror, if_false, EStateM.run_bind, run_cAssert_of htype,
            run_printf, run_taskValue, run_call, run_emit, hmethod, huri, ne_eq,
            not_true_eq_false, emits_emits]
          rfl
        rw [hrun]
        exact .sent htag htype
      · have hrun : (handshakeCase host path t a).run s = .error (.exit 1)
            (s.emits (clientEvents t ++ [.request (.setMethod (literal "POST")),
              .request (.setURI path.bytes)] ++ [.call (.printf "error setting uri\n" [])])) := by
          simp only [handshakeCase, herror, if_false, EStateM.run_bind, run_cAssert_of htype,
            run_printf, run_taskValue, run_call, run_emit, hmethod, huri, ne_eq,
            not_true_eq_false, not_false_eq_true, if_true, EStateM.run_throw, emits_emits]
          rfl
        rw [hrun]
        exact .refused htag htype [.setMethod (literal "POST"), .setURI path.bytes] _
    · have hrun : (handshakeCase host path t a).run s = .error (.exit 1)
          (s.emits (clientEvents t ++ [.request (.setMethod (literal "POST"))] ++
            [.call (.printf "error setting method\n" [])])) := by
        simp only [handshakeCase, herror, if_false, EStateM.run_bind, run_cAssert_of htype,
          run_printf, run_taskValue, run_call, run_emit, hmethod, ne_eq, not_false_eq_true,
          if_true, EStateM.run_throw, emits_emits]
        rfl
      rw [hrun]
      exact .refused htag htype [.setMethod (literal "POST")] _
  · have hrun : (handshakeCase host path t a).run s =
        .error (.assertion "task_type == HYPER_TASK_CLIENTCONN") s := by
      simp only [handshakeCase, herror, if_false, EStateM.run_bind, run_cAssert_not htype]
    rw [hrun]
    exact .mistyped htagged herror (by rw [htag]; exact htype) (by rw [htag]; simp) _

theorem handled_send (htag : t.userdata = .send) :
    Handled host path t a s ((program host path).settle ((sendCase t a).run s)) := by
  have htagged : t.userdata ≠ .notSet := by rw [htag]; decide
  by_cases herror : t.type = .error
  · have hrun : (sendCase t a).run s = .error (.exit 1)
        (s.emits [.call (.printf "send error!\n" [])]) := by
      simp only [sendCase, herror, if_true, EStateM.run_bind, run_printf, EStateM.run_throw]
    rw [hrun]
    exact .failed htagged herror _
  by_cases htype : t.type = .response
  · have hrun : (sendCase t a).run s = .ok ()
        ({ s with locals := { s.locals with respBody := some a.respBody } }.emits
          (statusEvents t a ++ headerEvents a.headers ++ bodyEvents t a)) := by
      simp only [sendCase, herror, if_false, EStateM.run_bind, run_cAssert_of htype, run_printf,
        run_taskValue, run_call, run_emit, run_printEachHeader, EStateM.run_modify,
        run_pushBodyData, State.emits, statusEvents, bodyEvents, List.append_assoc,
        List.cons_append, List.nil_append]
    rw [hrun]
    exact .responded htag htype
  · have hrun : (sendCase t a).run s =
        .error (.assertion "task_type == HYPER_TASK_RESPONSE") s := by
      simp only [sendCase, herror, if_false, EStateM.run_bind, run_cAssert_not htype]
    rw [hrun]
    exact .mistyped htagged herror (by rw [htag]; exact htype) (by rw [htag]; simp) _

theorem handled_respBody (htag : t.userdata = .respBody) :
    Handled host path t a s ((program host path).settle ((respBodyCase t a).run s)) := by
  have htagged : t.userdata ≠ .notSet := by rw [htag]; decide
  by_cases herror : t.type = .error
  · have hrun : (respBodyCase t a).run s = .error (.exit 1)
        (s.emits [.call (.printf "body error!\n" [])]) := by
      simp only [respBodyCase, herror, if_true, EStateM.run_bind, run_printf, EStateM.run_throw]
    rw [hrun]
    exact .failed htagged herror _
  by_cases hbuf : t.type = .buf
  · have hrun : (respBodyCase t a).run s =
        .ok () (s.emits (chunkEvents t a ++ dataEvents s.locals.respBody a)) := by
      simp only [respBodyCase, hbuf, reduceCtorEq, if_false, if_true, EStateM.run_bind, run_emit,
        run_call, run_pushBodyData, State.emits, chunkEvents, List.append_assoc,
        List.cons_append, List.nil_append]
    rw [hrun]
    exact .printed htag hbuf
  by_cases htype : t.type = .empty
  · have hrun : (respBodyCase t a).run s = .error (.exit 0)
        ({ s with connection := s.connection.freeConnData }.emits
          (doneEvents t s.locals.respBody)) := by
      simp only [respBodyCase, herror, if_false, hbuf, EStateM.run_bind, run_cAssert_of htype,
        run_printf, run_call, run_emit, EStateM.run_get, run_freeConnData, EStateM.run_throw,
        State.emits, doneEvents, List.append_assoc, List.cons_append, List.nil_append]
    rw [hrun]
    exact .returned htag htype
  · have hrun : (respBodyCase t a).run s =
        .error (.assertion "task_type == HYPER_TASK_EMPTY") s := by
      simp only [respBodyCase, herror, if_false, hbuf, EStateM.run_bind, run_cAssert_not htype]
    rw [hrun]
    exact .mistyped htagged herror (by rw [htag]; exact htype) (fun _ => hbuf) _

theorem handled (host path : CString) (t : Task) (a : Answers) (s : State Locals) :
    Handled host path t a s ((program host path).settle ((handleTask host path t a).run s)) := by
  cases htag : t.userdata with
  | notSet =>
      simp only [handleTask, htag]
      exact .background htag
  | handshake =>
      simp only [handleTask, htag]
      exact handled_handshake htag
  | send =>
      simp only [handleTask, htag]
      exact handled_send htag
  | respBody =>
      simp only [handleTask, htag]
      exact handled_respBody htag

/-! ## The functions that hyper calls -/

/-- What `read` puts into the buffer when this much can be had. -/
def UploadBody.given (upload : UploadBody) (more : ℕ) : Bytes :=
  upload.file.take (min (more + 1) upload.buf.length)

/-- The variables after such a `read`. -/
def UploadBody.after (upload : UploadBody) (more : ℕ) : UploadBody :=
  { file := upload.file.drop (upload.given more).length
    buf := (upload.given more).map some ++ upload.buf.drop (upload.given more).length }

/-- The states that a call of hyper's can lead to, and when. -/
inductive Called (s : State Locals) : CallBack → State Locals → Prop where
  | informational (status : UInt16) : Called s (.printInformational status)
      (s.emits [.call (.printf "\nInformational (1xx): %d\n" [.int status.toNat])])
  | failed (errno : ℤ) : Called s (.pollReqUpload (.failed errno))
      (s.emits [.call (.printf "error reading upload file: %d" [.int errno]), .pollError])
  | chunk (more : ℕ) (hgiven : s.locals.upload.given more ≠ []) :
      Called s (.pollReqUpload (.ready more))
        ({ s with locals := { s.locals with upload := s.locals.upload.after more } }.emits
          [.pollReady (some ((s.locals.upload.given more).map some))])
  | done (more : ℕ) (hgiven : s.locals.upload.given more = []) :
      Called s (.pollReqUpload (.ready more))
        ({ s with locals := { s.locals with upload := s.locals.upload.after more } }.emits
          [.pollReady none])

theorem run_pollReqUpload_failed (errno : ℤ) (s : State Locals) :
    (pollReqUpload (.failed errno)).run s = .ok ()
      (s.emits [.call (.printf "error reading upload file: %d" [.int errno]), .pollError]) := by
  simp [pollReqUpload, UploadBody.read, EStateM.run_bind]

theorem run_pollReqUpload_ready (more : ℕ) (s : State Locals) :
    (pollReqUpload (.ready more)).run s = .ok ()
      ({ s with locals := { s.locals with upload := s.locals.upload.after more } }.emits
        [.pollReady (if s.locals.upload.given more = [] then none
          else some ((s.locals.upload.given more).map some))]) := by
  have hread : s.locals.upload.read (.ready more) =
      (((s.locals.upload.given more).length : ℤ), s.locals.upload.after more) := rfl
  have htake : (s.locals.upload.after more).buf.take (s.locals.upload.given more).length =
      (s.locals.upload.given more).map some :=
    List.take_left' (List.length_map some)
  by_cases hgiven : s.locals.upload.given more = []
  · have hlen : ((s.locals.upload.given more).length : ℤ) = 0 := by rw [hgiven]; rfl
    have hpos : ¬ (0 : ℤ) < (s.locals.upload.given more).length := by omega
    simp only [pollReqUpload, EStateM.run_bind, EStateM.run_get, hread, EStateM.run_set,
      if_neg hpos, if_pos hlen, run_emit, if_pos hgiven]
  · have hpos : (0 : ℤ) < (s.locals.upload.given more).length :=
      Int.natCast_pos.2 (List.length_pos_iff.2 hgiven)
    simp only [pollReqUpload, EStateM.run_bind, EStateM.run_get, hread, EStateM.run_set,
      if_pos hpos, run_emit, if_neg hgiven, Int.toNat_natCast, htake]

theorem called (k : CallBack) (s : State Locals) :
    Called s k ((program host path).settle ((callBack k).run s)) := by
  cases k with
  | printInformational status => exact .informational status
  | pollReqUpload answer =>
      rw [callBack]
      cases answer with
      | failed errno =>
          rw [run_pollReqUpload_failed]
          exact .failed errno
      | ready more =>
          rw [run_pollReqUpload_ready]
          by_cases hgiven : s.locals.upload.given more = []
          · rw [if_pos hgiven]
            exact .done more hgiven
          · rw [if_neg hgiven]
            exact .chunk more hgiven

/-! ## Type safety -/

theorem takes_responded (htype : t.type = .response) :
    takes (statusEvents t a ++ headerEvents a.headers ++ bodyEvents t a) = [(t, t.type)] := by
  rw [htype, takes_append, takes_append, takes_headerEvents]
  rfl

/-- The body comes in buffers, and ends with a task that has none. -/
def expects : ExampleId → List TaskReturnType
  | .respBody => [.buf, .empty]
  | g => [expectedType g]

theorem mem_expects (htype : t.type = expectedType t.userdata) : t.type ∈ expects t.userdata := by
  rw [htype]
  cases t.userdata <;> decide

theorem Handled.typeSafe (h : Handled host path t a (s.emits [.call (.polled t)]) s')
    (hnone : s.ended = none) : TypeSafe expects t (newEvents s s') s'.ended := by
  have hrunning : (s.emits [.call (.polled t)]).ended ≠ some (.exit 0) := not_exited hnone
  cases h with
  | background htag =>
      rw [newEvents_polled rfl]
      exact typeSafe_of_takes (.inl rfl) (fun h => absurd h hrunning) fun h _ => absurd htag h
  | failed htag htype text =>
      rw [newEvents_polled rfl]
      refine typeSafe_of_takes (.inl rfl) ?_ fun _ _ => ⟨.inl rfl, rfl⟩
      intro h
      cases h
  | mistyped htag htype hne hbuf condition =>
      have hnew : newEvents s { s.emits [.call (.polled t)] with
          ended := some (.assertion condition) } = [.call (.polled t)] :=
        newEvents_polled (List.append_nil _).symm
      refine typeSafe_of_takes (.inl (congrArg takes hnew)) ?_ fun _ _ => ?_
      · intro h
        cases h
      · exact ⟨.inr ⟨condition, rfl⟩, congrArg continued hnew⟩
  | refused htag htype es text =>
      rw [newEvents_polled rfl]
      have htakes : takes (clientEvents t ++ es.map Event.request ++
          [Event.call (.printf text [])]) = [(t, t.type)] := by
        rw [takes_append, takes_append, takes_request, htype]
        rfl
      refine typeSafe_of_takes (.inr htakes) ?_ fun _ hnot => ?_
      · intro h
        cases h
      · exact absurd (mem_expects (by rw [htag, htype]; rfl)) hnot
  | sent htag htype =>
      rw [newEvents_polled rfl]
      refine typeSafe_of_takes (.inr ?_) (fun h => absurd h hrunning) fun _ hnot => ?_
      · rw [htype]
        rfl
      · exact absurd (mem_expects (by rw [htag, htype]; rfl)) hnot
  | responded htag htype =>
      rw [newEvents_polled rfl]
      refine typeSafe_of_takes (.inr (takes_responded htype)) (fun h => absurd h hrunning)
        fun _ hnot => ?_
      exact absurd (mem_expects (by rw [htag, htype]; rfl)) hnot
  | printed htag htype =>
      rw [newEvents_polled rfl]
      refine typeSafe_of_takes (.inr ?_) (fun h => absurd h hrunning) fun _ hnot => ?_
      · rw [htype]
        rfl
      · refine absurd ?_ hnot
        rw [htag, htype]
        decide
  | returned htag htype =>
      rw [newEvents_polled rfl]
      refine typeSafe_of_takes (.inl rfl) (fun _ => ⟨htag, htype⟩) fun _ hnot => ?_
      exact absurd (mem_expects (by rw [htag, htype]; rfl)) hnot

theorem Called.quiet {k : CallBack} (h : Called s k s') (hnone : s.ended = none) :
    takes (newEvents s s') = [] ∧ s'.connection = s.connection ∧ s'.ended ≠ some (.exit 0) := by
  have hnot := not_exited hnone
  cases h with
  | informational status => exact ⟨by rw [newEvents_eq rfl]; rfl, rfl, hnot⟩
  | failed errno => exact ⟨by rw [newEvents_eq rfl]; rfl, rfl, hnot⟩
  | chunk more hgiven => exact ⟨by rw [newEvents_eq rfl]; rfl, rfl, hnot⟩
  | done more hgiven => exact ⟨by rw [newEvents_eq rfl]; rfl, rfl, hnot⟩

theorem safeStep (host path : CString) (s : State Locals) (i : Input CallBack Answers) :
    SafeStep (program host path) expects s i := by
  apply safeStep_of_cases
  · rintro k s' hnone rfl
    obtain ⟨htakes, -, hend⟩ := (called k s).quiet hnone
    exact ⟨htakes, hend⟩
  · rintro t a s' hnone rfl
    exact (handled host path t a _).typeSafe hnone

/-! ## Wakers -/

theorem Handled.connection (h : Handled host path t a s s') (hnot : s.ended ≠ some (.exit 0)) :
    s'.connection = s.connection ∧ s'.ended ≠ some (.exit 0) ∨
      s'.connection = s.connection.freeConnData := by
  cases h with
  | background htag => exact .inl ⟨rfl, hnot⟩
  | failed htag htype text => exact .inl ⟨rfl, fun h => by cases h⟩
  | mistyped htag htype hne hbuf condition => exact .inl ⟨rfl, fun h => by cases h⟩
  | refused htag htype es text => exact .inl ⟨rfl, fun h => by cases h⟩
  | sent htag htype => exact .inl ⟨rfl, hnot⟩
  | responded htag htype => exact .inl ⟨rfl, hnot⟩
  | printed htag htype => exact .inl ⟨rfl, hnot⟩
  | returned htag htype => exact .inr rfl

theorem freesConn (host path : CString) : (program host path).FreesConn where
  callBack k s hnone := (called k s).quiet hnone |>.2
  handleTask t a s hnone := (handled host path t a s).connection (not_exited hnone)

/-- Whatever is uploaded, and in whatever order the tasks and the polls come, the program takes
each value for what it is, and keeps account of its wakers. -/
theorem upload_safe (host path : CString) (fd : ℤ) (file : Bytes) (log : List Event)
    (inputs : List (Input CallBack Answers)) :
    AtEach (step host path) (SafeStep (program host path) expects)
        (entered fd (Locals.start file) log) inputs ∧
      ∀ s, run (step host path) (entered fd (Locals.start file) log) inputs = some s →
        s.connection.WakersKept ∧ (s.ended = some (.exit 0) → s.connection.slots = []) := by
  refine ⟨atEach_iff.2 fun _ i _ s _ _ => safeStep host path s i, ?_⟩
  intro s hrun
  have hsound := (freesConn host path).wakersSound_run
    (wakersSound_entered fd (Locals.start file) log) hrun
  exact ⟨hsound.accounted.wakersKept, hsound.cleared⟩

end LlgoExamples.Hyper.C.Upload
