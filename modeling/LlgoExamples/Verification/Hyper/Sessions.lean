import LlgoExamples.Verification.Hyper.Client
import LlgoExamples.Verification.Hyper.Handles
import LlgoExamples.Verification.Hyper.Port
import LlgoExamples.Verification.Hyper.Upload

/-! # The two programs and their handles

Each program follows a plan of its own. In `upload.c` the body of the response is held, and
tasks for it are pushed, for as long as there are chunks. -/

namespace LlgoExamples.Hyper.C

open Machine Ledger

/-! ## `client.c` -/

namespace Client

variable {host path : CString} {t : Task} {a : Answers} {s s' : State Unit}

inductive Stage : List ExampleId → ExampleId → Prop where
  | connecting : Stage [] .handshake
  | sending : Stage [.handshake] .send
  | reading : Stage [.handshake, .send] .respBody

def plan (host path : CString) : (program host path).Plan where
  opened := [.conn, .exec]
  held _ := [.exec, .conn]
  Stage ts g _ := Stage ts g

theorem owned_fail (t : Task) (a : Answers) : ∃ live,
    run post (.task t.id :: [.exec, .conn]) ((failEvents t a).flatMap entries) = some live := by
  cases hvalue : t.value with
  | none => simp [failEvents, hvalue, entries, callEntries, post]
  | some err => simp [failEvents, hvalue, entries, callEntries, post]

theorem still_fail (t : Task) (a : Answers) : Still (failEvents t a) := by
  rw [failEvents]
  cases t.value <;> rfl

theorem moves_responseEvents (t : Task) (a : Answers) :
    moves (calls (responseEvents t a)) = moves [.push a.foreachTask .respBody a.foreachRes] := by
  rw [responseEvents, calls_append, calls_append, moves_append, moves_append,
    still_headerEvents a.headers]
  cases a.foreachRes <;> rfl

theorem Handled.turn {ts : List ExampleId} (h : Handled host path t a s s')
    (hnone : s.ended = none) (htag : t.userdata ≠ .notSet) (hstage : Stage ts t.userdata) :
    Program.Turn (plan host path) ts t s s' := by
  cases h with
  | background hnot => exact absurd hnot htag
  | failed htag htype text htext =>
      obtain ⟨live, hlive⟩ := owned_fail t a
      exact .stopped _ live rfl (fun h => by cases h) (still_fail t a) hlive fun h => by cases h
  | mistyped htag htype hne condition =>
      exact .stopped [] _ (List.append_nil _).symm (fun h => by cases h) rfl rfl
        fun h => by cases h
  | refused htag htype hrefused es text =>
      refine .stopped _ [.handle .clientConn t.value, .exec, .conn] rfl (fun h => by cases h) ?_ ?_
        fun h => by cases h
      · exact Still.append (Still.append rfl (still_request es)) rfl
      · rw [List.flatMap_append, List.flatMap_append, entries_request]
        simp [plan, clientEvents, entries, callEntries, post]
  | sent htag htype hmethod huri =>
      rw [htag] at hstage
      cases hstage
      refine .next _ .send rfl hnone ?_ (still_or_launch a.sendTask .send
        a.sendRes ?_) ?_
      · rw [htag]
        exact .sending
      · rw [sendEvents]
        cases a.sendRes <;> rfl
      · simp [plan, clientEvents, requestEvents, sendEvents, entries, callEntries, post]
  | responded htag htype =>
      rw [htag] at hstage
      cases hstage
      refine .next _ .respBody rfl hnone ?_ (still_or_launch _ _ _ (moves_responseEvents t a)) ?_
      · rw [htag]
        exact .reading
      · rw [responseEvents, List.flatMap_append, List.flatMap_append, entries_headerEvents]
        simp [plan, entries, callEntries, post]
  | returned htag htype =>
      refine .stopped _ [] rfl (fun h => by cases h) rfl ?_ fun _ => rfl
      simp [plan, doneEvents, entries, callEntries, post]

theorem follows (host path : CString) : (program host path).Follows (plan host path) where
  exec _ := List.mem_cons_self
  conn _ := List.mem_cons_of_mem _ List.mem_cons_self
  callBack k s hnone := ⟨hnone, fun _ _ => id, [.write k], rfl, rfl, rfl⟩
  background t a s htag := by
    simp only [program, handleTask, htag]
    rfl
  turn ts t a s hnone htag hstage := (handled host path t a s).turn hnone htag hstage

theorem stage_order {ts : List ExampleId} {g : ExampleId} (h : Stage ts g) :
    ts ++ [g] <+: [.handshake, .send, .respBody] := by
  cases h <;> decide

/-- Where the executor returns no tagged task that it was not given, the handshake, the
send and the body are waited for one after the other, no handle is freed twice or touched
after it was freed, and an exit with 0 leaves neither handles nor wakers. -/
theorem client_session (host port path : CString) (fd : ℤ) (version : Bytes) (task : ℕ)
    (res : Code) {inputs : List (Input Bytes Answers)} {s : State Unit}
    (hexec : AtEach (step host path) Executor
      (entered fd () (prelude "connected to %s, now get %s\n" host port path version task res))
      inputs)
    (hrun : run (step host path)
      (entered fd () (prelude "connected to %s, now get %s\n" host port path version task res))
      inputs = some s) :
    Program.Kept (plan host path) (· <+: [.handshake, .send, .respBody]) s := by
  have hstart := Program.session_entered (plan host path) ()
    Stage.connecting rfl (List.mem_cons_self) fd "connected to %s, now get %s\n" host port path
    version task res
  have hsession := hstart.of_run (follows host path) hexec hrun
  refine hsession.kept ?_ ((freesConn host path).wakersSound_run (wakersSound_entered fd () _) hrun)
  intro ts g _ hstage pre hpre
  exact hpre.trans (stage_order hstage)

theorem client_session_request : ∃ s,
    run (step defaultHost defaultPath) (entered 3 () (prelude "connected to %s, now get %s\n"
      defaultHost defaultPort defaultPath [] 0 .ok)) (requestInputs.map toC) = some s ∧
    s.ended = some (.exit 0) ∧
    Program.Kept (plan defaultHost defaultPath) (· <+: [.handshake, .send, .respBody]) s := by
  obtain ⟨s, hrun, hended⟩ : ∃ s, run (step defaultHost defaultPath) (entered 3 ()
      (prelude "connected to %s, now get %s\n" defaultHost defaultPort defaultPath [] 0 .ok))
        (requestInputs.map toC) = some s ∧ s.ended = some (.exit 0) := ⟨_, rfl, rfl⟩
  have hexec : AtEach (step defaultHost defaultPath) Executor (entered 3 ()
      (prelude "connected to %s, now get %s\n" defaultHost defaultPort defaultPath [] 0 .ok))
        (requestInputs.map toC) := by
    decide
  exact ⟨s, hrun, hended, client_session defaultHost defaultPort defaultPath 3 [] 0 .ok hexec hrun⟩

end Client

/-! ## `upload.c` -/

namespace Upload

variable {host path : CString} {t : Task} {a : Answers} {s s' : State Locals}

/-- While the response is read, its body is there. -/
inductive Stage : List ExampleId → ExampleId → Option ℕ → Prop where
  | connecting : Stage [] .handshake none
  | sending : Stage [.handshake] .send none
  | reading (chunks : ℕ) (body : ℕ) :
      Stage (.handshake :: .send :: List.replicate chunks .respBody) .respBody (some body)

def plan (host path : CString) : (program host path).Plan where
  opened := [.uploadBuf, .conn, .exec]
  held locals := (locals.respBody.toList.map fun body => .body (some body)) ++
    [.exec, .conn, .uploadBuf]
  Stage ts g locals := Stage ts g locals.respBody

theorem moves_dataEvents (body : Option ℕ) (a : Answers) :
    moves (calls (dataEvents body a)) = moves [.push a.dataTask .respBody a.dataRes] := by
  rw [dataEvents]
  cases a.dataRes <;> rfl

theorem moves_respondedEvents (t : Task) (a : Answers) :
    moves (calls (statusEvents t a ++ headerEvents a.headers ++ bodyEvents t a)) =
      moves [.push a.dataTask .respBody a.dataRes] := by
  rw [calls_append, calls_append, moves_append, moves_append, still_headerEvents a.headers,
    bodyEvents, dataEvents]
  cases a.dataRes <;> rfl

theorem moves_printedEvents (t : Task) (a : Answers) (body : Option ℕ) :
    moves (calls (chunkEvents t a ++ dataEvents body a)) =
      moves [.push a.dataTask .respBody a.dataRes] := by
  rw [calls_append, moves_append, moves_dataEvents]
  rfl

theorem Handled.turn {ts : List ExampleId} (h : Handled host path t a s s')
    (hnone : s.ended = none) (htag : t.userdata ≠ .notSet)
    (hstage : Stage ts t.userdata s.locals.respBody) :
    Program.Turn (plan host path) ts t s s' := by
  cases h with
  | background hnot => exact absurd hnot htag
  | failed htag htype text =>
      exact .stopped _ _ rfl (fun h => by cases h) rfl rfl fun h => by cases h
  | mistyped htag htype hne hbuf condition =>
      exact .stopped [] _ (List.append_nil _).symm (fun h => by cases h) rfl rfl
        fun h => by cases h
  | refused htag htype es text =>
      refine .stopped _ (.handle .clientConn t.value :: (plan host path).held s.locals) rfl
        (fun h => by cases h) ?_ ?_ fun h => by cases h
      · exact Still.append (Still.append rfl (still_request es)) rfl
      · rw [List.flatMap_append, List.flatMap_append, entries_request]
        simp [plan, clientEvents, entries, callEntries, post]
  | sent htag htype =>
      rw [htag] at hstage
      cases hrespBody : s.locals.respBody with
      | some body =>
          rw [hrespBody] at hstage
          cases hstage
      | none =>
          rw [hrespBody] at hstage
          cases hstage
          refine .next _ .send rfl hnone ?_ (still_or_launch a.sendTask .send
            a.sendRes ?_) ?_
          · rw [htag]
            change Stage _ _ s.locals.respBody
            rw [hrespBody]
            exact .sending
          · rw [sendEvents]
            cases a.sendRes <;> rfl
          · simp [plan, clientEvents, requestEvents, sendEvents, entries, callEntries, post,
              State.emits]
  | responded htag htype =>
      rw [htag] at hstage
      cases hrespBody : s.locals.respBody with
      | some body =>
          rw [hrespBody] at hstage
          cases hstage
      | none =>
          rw [hrespBody] at hstage
          cases hstage
          refine .next _ .respBody rfl hnone ?_
            (still_or_launch _ _ _ (moves_respondedEvents t a)) ?_
          · rw [htag]
            exact .reading 0 a.respBody
          · rw [List.flatMap_append, List.flatMap_append, entries_headerEvents]
            simp [plan, hrespBody, statusEvents, bodyEvents, dataEvents, entries, callEntries, post,
              State.emits]
  | printed htag htype =>
      rw [htag] at hstage
      cases hrespBody : s.locals.respBody with
      | none =>
          rw [hrespBody] at hstage
          cases hstage
      | some body =>
          rw [hrespBody] at hstage
          cases hstage with
          | reading chunks body =>
              refine .next _ .respBody rfl hnone ?_
                (still_or_launch _ _ _ (moves_printedEvents t a _)) ?_
              · rw [htag, List.cons_append, List.cons_append, ← List.replicate_succ']
                change Stage _ _ s.locals.respBody
                rw [hrespBody]
                exact .reading (chunks + 1) body
              · simp [plan, hrespBody, chunkEvents, dataEvents, entries, callEntries, post,
                  State.emits]
  | returned htag htype =>
      rw [htag] at hstage
      cases hrespBody : s.locals.respBody with
      | none =>
          rw [hrespBody] at hstage
          cases hstage
      | some body =>
          refine .stopped _ [] rfl (fun h => by cases h) rfl ?_ fun _ => rfl
          simp [plan, hrespBody, doneEvents, entries, callEntries, post]

theorem Called.undisturbed {k : CallBack} (h : Called s k s') (hnone : s.ended = none) :
    Program.Undisturbed (plan host path) s s' := by
  have huse : run post ((plan host path).held s.locals) [.use .uploadBuf] =
      some ((plan host path).held s.locals) := by
    simp [plan, post]
  cases h with
  | informational status => exact ⟨hnone, fun _ _ => id, _, rfl, rfl, rfl⟩
  | failed errno => exact ⟨hnone, fun _ _ => id, _, rfl, rfl, huse⟩
  | chunk more hgiven => exact ⟨hnone, fun _ _ => id, _, rfl, rfl, huse⟩
  | done more hgiven => exact ⟨hnone, fun _ _ => id, _, rfl, rfl, huse⟩

theorem follows (host path : CString) : (program host path).Follows (plan host path) where
  exec _ := by simp [plan]
  conn _ := by simp [plan]
  callBack k s hnone := (called k s).undisturbed hnone
  background t a s htag := by
    simp only [program, handleTask, htag]
    rfl
  turn ts t a s hnone htag hstage := (handled host path t a s).turn hnone htag hstage

theorem stage_order {ts : List ExampleId} {g : ExampleId} {respBody : Option ℕ}
    (h : Stage ts g respBody) :
    ∃ chunks, ts ++ [g] <+: .handshake :: .send :: List.replicate chunks .respBody := by
  cases h with
  | connecting => exact ⟨0, by decide⟩
  | sending => exact ⟨0, by decide⟩
  | reading chunks body =>
      refine ⟨chunks + 1, ?_⟩
      rw [List.cons_append, List.cons_append, ← List.replicate_succ']

/-! ### What is written -/

def writes (es : List Event) : List Bytes :=
  es.filterMap fun e => match e with
    | .write bytes => some bytes
    | _ => none

/-- The chunks of the body that come with these inputs. -/
def respChunks (inputs : List (Input CallBack Answers)) : List Bytes :=
  inputs.filterMap fun i => match i with
    | .task t a => if t.userdata = .respBody ∧ t.type = .buf then some a.chunk else none
    | _ => none

theorem writes_append (es es' : List Event) : writes (es ++ es') = writes es ++ writes es' :=
  List.filterMap_append

theorem writes_headerEvents (headers : List (Bytes × Bytes)) :
    writes (headerEvents headers) = [] := by
  induction headers with
  | nil => rfl
  | cons header headers ih => exact ih

theorem writes_request (requests : List RequestEvent) :
    writes (requests.map Event.request) = [] := by
  induction requests with
  | nil => rfl
  | cons e requests ih => exact ih

theorem respChunks_none {t : Task} {a : Answers} (h : t.userdata ≠ .respBody ∨ t.type ≠ .buf) :
    respChunks [.task t a] = [] :=
  List.filterMap_cons_none (if_neg (not_and_or.2 h))

theorem Handled.writes (h : Handled host path t a s s') :
    writes s'.log = Upload.writes s.log ++ respChunks [.task t a] := by
  cases h with
  | background htag =>
      rw [respChunks_none (.inl (by rw [htag]; decide)), State.emits, writes_append]
      rfl
  | failed htag htype text =>
      rw [respChunks_none (.inr (by rw [htype]; decide)), State.emits, writes_append]
      rfl
  | mistyped htag htype hne hbuf condition =>
      rw [respChunks_none (not_and_or.1 fun h => hbuf h.1 h.2)]
      exact (List.append_nil _).symm
  | refused htag htype es text =>
      rw [respChunks_none (.inl (by rw [htag]; decide)), State.emits, writes_append,
        writes_append, writes_append, writes_request]
      rfl
  | sent htag htype =>
      rw [respChunks_none (.inl (by rw [htag]; decide)), State.emits, writes_append]
      rfl
  | responded htag htype =>
      rw [respChunks_none (.inl (by rw [htag]; decide)), State.emits, writes_append,
        writes_append, writes_append, writes_headerEvents]
      rfl
  | printed htag htype =>
      have hchunk : respChunks [.task t a] = [a.chunk] :=
        List.filterMap_cons_some (if_pos ⟨htag, htype⟩)
      rw [hchunk, State.emits, writes_append]
      rfl
  | returned htag htype =>
      rw [respChunks_none (.inr (by rw [htype]; decide)), State.emits, writes_append]
      rfl

theorem Called.writes {k : CallBack} (h : Called s k s') : writes s'.log = Upload.writes s.log := by
  cases h <;> rw [State.emits, writes_append] <;> exact List.append_nil _

theorem writes_step {s s' : State (program host path).Locals}
    {i : Input (program host path).CallBack (program host path).Answers}
    (hstep : step host path s i = some s') : writes s'.log = writes s.log ++ respChunks [i] := by
  obtain ⟨-, hstepped⟩ := Program.stepped hstep
  cases hstepped with
  | readCb ret errno => exact (List.append_nil _).symm
  | writeCb ret errno => exact (List.append_nil _).symm
  | callBack k s' hcall =>
      subst hcall
      exact (called k s).writes.trans (List.append_nil _).symm
  | task t a s' hcase =>
      subst hcase
      have hwrites := (handled host path t a (s.emits [.call (.polled t)])).writes
      rw [State.emits, writes_append] at hwrites
      exact hwrites.trans (congrArg (· ++ _) (List.append_nil _))
  | select ready hret => rw [State.emits, writes_append]; rfl
  | selectFails ready hret => rw [State.emits, writes_append]; rfl

theorem writes_run {inputs : List (Input CallBack Answers)}
    (hrun : run (step host path) s inputs = some s') :
    writes s'.log = writes s.log ++ respChunks inputs := by
  induction inputs generalizing s with
  | nil =>
      cases hrun
      exact (List.append_nil _).symm
  | cons i inputs ih =>
      obtain ⟨mid, hstep, hrest⟩ := run_cons_eq_some.1 hrun
      have hchunks : respChunks ([i] ++ inputs) = respChunks [i] ++ respChunks inputs :=
        List.filterMap_append
      rw [List.singleton_append] at hchunks
      rw [ih hrest, writes_step hstep, hchunks, List.append_assoc]

/-! ### Every run -/

/-- Where the executor returns no tagged task that it was not given: after the handshake and
the send there is one task at a time for the body; `write` is given the chunks in their
order; no handle is freed twice or touched after it was freed; the body of the response is
the one that lives from one input to the next, with the executor, the connection and the
buffer; and an exit with 0 leaves nothing. -/
theorem upload_session (host port path : CString) (fd : ℤ) (file version : Bytes) (task : ℕ)
    (res : Code) {inputs : List (Input CallBack Answers)}
    (hexec : AtEach (step host path) Executor
      (entered fd (Locals.start file)
        (prelude "connected to %s, now upload to %s\n" host port path version task res)) inputs)
    (hrun : run (step host path)
      (entered fd (Locals.start file)
        (prelude "connected to %s, now upload to %s\n" host port path version task res)) inputs =
          some s) :
    Program.Kept (plan host path)
        (fun ts => ∃ chunks, ts <+: .handshake :: .send :: List.replicate chunks .respBody) s ∧
      writes s.log = respChunks inputs := by
  constructor
  · have hstart := Program.session_entered (plan host path) (Locals.start file)
      Stage.connecting rfl (List.mem_cons_self) fd "connected to %s, now upload to %s\n" host port
      path version task res
    have hsession := hstart.of_run (follows host path) hexec hrun
    refine hsession.kept ?_
      ((freesConn host path).wakersSound_run (wakersSound_entered fd _ _) hrun)
    intro ts g locals hstage pre hpre
    obtain ⟨chunks, horder⟩ := stage_order hstage
    exact ⟨chunks, hpre.trans horder⟩
  · rw [writes_run hrun]
    rfl

def okAnswers : Answers :=
  { request := accepting, sendTask := 1, sendRes := .ok, status := 200
    headers := [(literal "Server", literal "h")], respBody := 5, dataTask := 1, dataRes := .ok
    chunk := literal "hi" }

/-- An upload whose response comes in two chunks; hyper uses the task's address again. -/
def uploadInputs : List (Input CallBack Answers) :=
  [.task connectedTask okAnswers, .callBack (.pollReqUpload (.ready 4)),
    .callBack (.pollReqUpload (.ready 4)), .callBack (.printInformational 100),
    .task respondedTask okAnswers, .readCb (-1) eagain,
    .select { ret := 1, read := {3}, write := ∅ },
    .task { id := 1, userdata := .respBody, type := .buf, value := some 6 } okAnswers,
    .task { id := 1, userdata := .respBody, type := .buf, value := some 6 } okAnswers,
    .task { id := 1, userdata := .respBody, type := .empty, value := none } okAnswers]

theorem upload_session_chunks : ∃ s,
    run (step defaultHost defaultPath) (entered 3 (Locals.start [7])
      (prelude "connected to %s, now upload to %s\n" defaultHost defaultPort defaultPath [] 0 .ok))
        uploadInputs = some s ∧
    s.ended = some (.exit 0) ∧
    Program.Kept (plan defaultHost defaultPath)
      (fun ts => ∃ chunks, ts <+: .handshake :: .send :: List.replicate chunks .respBody) s ∧
    writes s.log = [literal "hi", literal "hi"] := by
  have hended : ((run (step defaultHost defaultPath) (entered 3 (Locals.start [7])
      (prelude "connected to %s, now upload to %s\n" defaultHost defaultPort defaultPath [] 0 .ok))
        uploadInputs).map State.ended) = some (some (.exit 0)) := by
    decide +kernel
  obtain ⟨s, hrun, hexit⟩ := Option.map_eq_some_iff.1 hended
  have hexec : AtEach (step defaultHost defaultPath) Executor (entered 3 (Locals.start [7])
      (prelude "connected to %s, now upload to %s\n" defaultHost defaultPort defaultPath [] 0 .ok))
        uploadInputs := by
    decide +kernel
  obtain ⟨hkept, hwrites⟩ :=
    upload_session defaultHost defaultPort defaultPath 3 [7] [] 0 .ok hexec hrun
  exact ⟨s, hrun, hexit, hkept, hwrites⟩

end Upload

end LlgoExamples.Hyper.C
