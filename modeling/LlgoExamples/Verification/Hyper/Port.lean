import LlgoExamples.Verification.Hyper.BodyPrinting
import LlgoExamples.Verification.Hyper.Client
import LlgoExamples.Verification.Hyper.RequestStrings

/-! # The Go client against the C program

`Get` follows `client.c` step by step, as long as it meets nothing that the two treat
differently. -/

namespace LlgoExamples.Hyper.C.Client

open Machine

variable {host path : CString} {s s' : GetState} {c c' : State Unit} {t : Task}
  {a : Hyper.Answers}

/-! ## What is compared -/

/-- The calls that change something at hyper's side. -/
def effects (es : List Hyper.Event) : List Hyper.Event :=
  es.filter fun e => match e with
    | .printf _ _ => false
    | .reasonPhrase _ _ _ => false
    | .status _ _ => false
    | _ => true

def requests (es : List Event) : List RequestEvent :=
  es.filterMap fun e => match e with
    | .request e => some e
    | _ => none

/-- What was written to the standard output, a call at a time. -/
def written (es : List Event) : List Bytes :=
  es.filterMap fun e => match e with
    | .write bytes => some bytes
    | _ => none

def statusFormat : String :=
  "\nResponse Status: %d %.*s\n"

def statusLine? : Event → Option (List Arg)
  | .call (.printf format args) => if format = statusFormat then some args else none
  | _ => none

/-- The status lines printed. -/
def statusLines (es : List Event) : List (List Arg) :=
  es.filterMap statusLine?

/-- The rounds of `select`: the first argument, and the sets to read and to write. -/
def selects (es : List Event) : List (ℤ × Finset ℤ × Finset ℤ) :=
  es.filterMap fun e => match e with
    | .select nfds fdsRead fdsWrite => some (nfds, fdsRead, fdsWrite)
    | _ => none

def goSelects (conn : Connection) : List (ℤ × Finset ℤ × Finset ℤ) :=
  conn.log.filterMap fun e => match e with
    | .select call => some (call.nfds, call.fdsRead, call.fdsWrite)
    | _ => none

/-- How the program ends where `Get` has this status. -/
def ending : Status → Option Ending
  | .running => none
  | .returned => some (.exit 0)
  | .panicked _ => some (.exit 1)

/-- The last status line, or that of a response that was not there. -/
def shown (response : Response) : List Arg :=
  [.int response.status.toNat, .bytes response.message]

/-! ## Where the two agree -/

/-- The connections, but for the errors that only Go prints. -/
structure Twins (conn : Connection) (conn' : Connection) : Prop where
  data : conn'.data = conn.data
  wakers : conn'.wakers = conn.wakers
  ledger : conn'.ledger = conn.ledger

/-- The program is where `Get` is. -/
structure Ported (host path : CString) (s : GetState) (c : State Unit) : Prop where
  ended : c.ended = ending s.status
  connection : Twins s.connection c.connection
  selects : selects c.log = goSelects s.connection
  effects : effects (calls c.log) = effects s.log
  requests : requests c.log =
    ((sentOn s.log).map fun _ => requestFor host.bytes path.bytes).flatten
  body : Gathered (written c.log) s
  status : (statusLines c.log).getLast?.getD (shown Response.zero) = shown s.response

/-- What hyper may answer where Go and C do not differ: the tasks are as they should be,
the request is accepted, and the reason phrase fits in Go's array. -/
def Ordinary : Hyper.Input → Prop
  | .task t a => t.WellTyped ∧ (t.userdata = .handshake → a.sendRes = .ok) ∧
      (t.userdata = .send → a.reasonPhrase ≠ none ∧ a.reasonPhraseLen ≤ arrayLen)
  | .bodyChunk mallocOk _ => mallocOk = true
  | .select ready => ready.ret ≠ 0
  | _ => True

/-- The same thing as it happens to the program. -/
def toC : Hyper.Input → Input Bytes Answers
  | .readCallBack ret errno => .readCb ret errno
  | .writeCallBack ret errno => .writeCb ret errno
  | .bodyChunk _ chunk => .callBack chunk
  | .task t a => .task t { a with request := accepting }
  | .select ready => .select ready

/-! ## The connection -/

section Connection

variable {conn conn' : Connection} {dir : Direction}

theorem Twins.store_record (h : Twins conn conn') (e : ConnEvent) (w : Option ℕ) :
    Twins ((conn.record e).store dir w) ((conn'.record e).store dir w) := by
  refine ⟨?_, h.wakers, ?_⟩
  · simp only [Connection.store, Connection.record, h.data]
  · rw [Connection.ledger_store, Connection.ledger_store, Connection.ledger_record,
      Connection.ledger_record, h.ledger]

theorem Twins.waker (h : Twins conn conn') (dir : Direction) :
    conn'.data.waker dir = conn.data.waker dir := by
  rw [h.data]

theorem Twins.wake (h : Twins conn conn') : Twins (conn.wake dir) (conn'.wake dir) := by
  rw [Connection.wake, Connection.wake, h.waker]
  exact h.store_record _ _

theorem Twins.freeSlot (h : Twins conn conn') : Twins (conn.freeSlot dir) (conn'.freeSlot dir) := by
  rw [Connection.freeSlot, Connection.freeSlot, h.waker]
  split
  · exact h.store_record _ _
  · exact h

theorem Twins.freeWaker (h : Twins conn conn') :
    Twins (conn.freeWaker dir) (conn'.freeWaker dir) := by
  rw [Connection.freeWaker, Connection.freeWaker, h.waker]
  split
  · refine ⟨h.data, h.wakers, ?_⟩
    rw [Connection.ledger_record, Connection.ledger_record, h.ledger]
  · exact h

theorem Twins.newWaker (h : Twins conn conn') :
    Twins (conn.newWaker dir) (conn'.newWaker dir) := by
  refine ⟨?_, ?_, ?_⟩
  · simp only [Connection.newWaker, Connection.store, Connection.record, h.data, h.wakers]
  · simp only [Connection.newWaker, Connection.store, Connection.record, h.wakers]
  · have hledger := h.ledger
    simp only [Connection.ledger] at hledger
    simp [Connection.newWaker, Connection.ledger, Connection.record, h.wakers, hledger]

/-- Only Go says that an error is not `EAGAIN`. -/
theorem Twins.ioCb (h : Twins conn conn') (fail : String) (ret errno : ℤ) :
    Twins (Connection.ioCallBack dir fail ret errno conn).2 (C.ioCb dir ret errno conn').2 := by
  rw [Connection.ioCallBack, C.ioCb]
  split
  · exact h
  · split
    · refine ⟨h.data, h.wakers, ?_⟩
      rw [Connection.ledger_record]
      exact h.ledger.trans (List.append_nil _).symm
    · exact h.freeWaker.newWaker

theorem Twins.fdSet (h : Twins conn conn') (dir : Direction) :
    conn'.fdSet dir = conn.fdSet dir := by
  rw [Connection.fdSet, Connection.fdSet, h.data]

theorem Twins.woken (h : Twins conn conn') (ready : Readiness) :
    Twins (C.woken ready conn) (C.woken ready conn') := by
  have hfd : conn'.data.fd = conn.data.fd := by rw [h.data]
  simp only [C.woken, h.fdSet, hfd]
  split <;> split
  · exact h.wake.wake
  · exact h.wake
  · exact h.wake
  · exact h

/-- A round that does not panic wakes as the program does. -/
theorem selectRound_eq {ready : Readiness} (hneg : ¬ ready.ret < 0) (hzero : ready.ret ≠ 0)
    (conn : Connection) : Connection.selectRound ready conn =
      (none, C.woken ready (conn.record (.select conn.selectCall))) := by
  simp only [Connection.selectRound, if_neg hneg, if_neg hzero, C.woken]
  congr 1
  by_cases hread : conn.data.fd ∈ conn.fdSet .read ∩ ready.read
  · have hread' : (conn.record (.select conn.selectCall)).data.fd ∈
        conn.selectCall.fdsRead ∩ ready.read := hread
    have hread'' : (conn.record (.select conn.selectCall)).data.fd ∈
        (conn.record (.select conn.selectCall)).fdSet .read ∩ ready.read := hread
    rw [if_pos hread', if_pos hread'']
    rfl
  · have hread' : (conn.record (.select conn.selectCall)).data.fd ∉
        conn.selectCall.fdsRead ∩ ready.read := hread
    have hread'' : (conn.record (.select conn.selectCall)).data.fd ∉
        (conn.record (.select conn.selectCall)).fdSet .read ∩ ready.read := hread
    rw [if_neg hread', if_neg hread'']
    rfl

theorem goSelects_record {e : ConnEvent} (he : ∀ call, e ≠ .select call) :
    goSelects (conn.record e) = goSelects conn := by
  rw [goSelects, Connection.record, List.filterMap_append]
  cases e with
  | select call => exact absurd rfl (he call)
  | _ => exact List.append_nil _

theorem goSelects_ioCallBack (fail : String) (ret errno : ℤ) :
    goSelects (Connection.ioCallBack dir fail ret errno conn).2 = goSelects conn := by
  rw [Connection.ioCallBack]
  split
  · rfl
  · split
    · exact goSelects_record (by simp)
    · have hnew : ∀ conn : Connection, goSelects (conn.newWaker dir) = goSelects conn :=
        fun conn => (goSelects_record (e := .made conn.wakers) (by simp)).trans rfl
      rw [hnew, Connection.freeWaker]
      split
      · exact goSelects_record (by simp)
      · rfl

theorem goSelects_wake (conn : Connection) (dir : Direction) :
    goSelects (conn.wake dir) = goSelects conn :=
  goSelects_record (by simp)

theorem goSelects_woken (conn : Connection) (ready : Readiness) :
    goSelects (C.woken ready conn) = goSelects conn := by
  simp only [C.woken]
  split <;> split
  · rw [goSelects_wake, goSelects_wake]
  · rw [goSelects_wake]
  · rw [goSelects_wake]
  · rfl

theorem goSelects_freeConnData (conn : Connection) :
    goSelects conn.freeConnData = goSelects conn := by
  have hfree : ∀ (conn : Connection) dir, goSelects (conn.freeSlot dir) = goSelects conn := by
    intro conn dir
    rw [Connection.freeSlot]
    split
    · exact goSelects_record (by simp)
    · rfl
  rw [Connection.freeConnData, hfree, hfree]

theorem Twins.goSelects_select (h : Twins conn conn') :
    goSelects (conn.record (.select conn.selectCall)) =
      goSelects conn ++ selects [C.selectEvent conn'] := by
  have hfd : conn'.data.fd = conn.data.fd := by rw [h.data]
  have hevent : selects [C.selectEvent conn'] =
      [(conn.data.fd + 1, conn.fdSet .read, conn.fdSet .write)] := by
    rw [← h.fdSet, ← h.fdSet, ← hfd]
    rfl
  rw [hevent, goSelects, Connection.record, List.filterMap_append]
  rfl

end Connection

/-! ## Events that match -/

/-- What the two did in one step, apart from the connection. -/
structure Matched (host path : CString) (es : List Hyper.Event) (es' : List Event) : Prop where
  effects : effects (calls es') = effects es
  requests : requests es' =
    ((sentOn es).map fun _ => requestFor host.bytes path.bytes).flatten
  written : written es' = []
  selects : selects es' = []

theorem effects_append (es es' : List Hyper.Event) :
    effects (es ++ es') = effects es ++ effects es' :=
  List.filter_append es es'

theorem requests_append (es es' : List Event) :
    requests (es ++ es') = requests es ++ requests es' :=
  List.filterMap_append

theorem written_append (es es' : List Event) : written (es ++ es') = written es ++ written es' :=
  List.filterMap_append

theorem selects_append (es es' : List Event) : selects (es ++ es') = selects es ++ selects es' :=
  List.filterMap_append

theorem statusLines_append (es es' : List Event) :
    statusLines (es ++ es') = statusLines es ++ statusLines es' :=
  List.filterMap_append

theorem sentOn_append (es es' : List Hyper.Event) : sentOn (es ++ es') = sentOn es ++ sentOn es' :=
  List.filterMap_append

theorem effects_printf {α : Type} (items : List α) (format : String) (args : α → List Arg) :
    effects (items.map fun x => .printf format (args x)) = [] := by
  induction items with
  | nil => rfl
  | cons x items ih => exact ih

theorem sentOn_printf {α : Type} (items : List α) (format : String) (args : α → List Arg) :
    sentOn (items.map fun x => .printf format (args x)) = [] := by
  induction items with
  | nil => rfl
  | cons x items ih => exact ih

theorem statusLine?_of_ne {format : String} (h : format ≠ statusFormat) (args : List Arg) :
    statusLine? (.call (.printf format args)) = none := by
  rw [statusLine?, if_neg h]

/-- Headers are printed, and nothing else. -/
theorem headerEvents_silent (headers : List (Bytes × Bytes)) :
    effects (calls (headerEvents headers)) = [] ∧ requests (headerEvents headers) = [] ∧
      written (headerEvents headers) = [] ∧ selects (headerEvents headers) = [] ∧
      statusLines (headerEvents headers) = [] := by
  induction headers with
  | nil => exact ⟨rfl, rfl, rfl, rfl, rfl⟩
  | cons header headers ih =>
      obtain ⟨heffects, hrequests, hwritten, hselects, hstatus⟩ := ih
      refine ⟨heffects, hrequests, hwritten, hselects, ?_⟩
      have hformat : "%.*s: %.*s\n" ≠ statusFormat := by decide
      rw [headerEvents, List.map_cons, statusLines,
        List.filterMap_cons_none (statusLine?_of_ne hformat _)]
      exact hstatus

/-! ## One step -/

theorem Ported.of_conn {conn conn' : Connection} (h : Ported host path s c)
    (hconn : Twins conn conn') (hselects : goSelects conn = goSelects s.connection) :
    Ported host path { s with connection := conn } { c with connection := conn' } where
  ended := h.ended
  connection := hconn
  selects := h.selects.trans hselects.symm
  effects := h.effects
  requests := h.requests
  body := ⟨h.body.buffered, h.body.noBody⟩
  status := h.status

/-- A case of the switch, done by both. -/
theorem Ported.of_matched {es : List Hyper.Event} {es' : List Event} (h : Ported host path s c)
    (hended : c'.ended = ending s'.status) (hconn : Twins s'.connection c'.connection)
    (hgo : goSelects s'.connection = goSelects s.connection)
    (hlog : s'.log = s.log ++ es) (hlog' : c'.log = c.log ++ es')
    (hmatched : Matched host path es es')
    (hbody : s'.response.responseBody = s.response.responseBody)
    (hlen : s'.response.responseBodyLen = s.response.responseBodyLen) (hheap : s'.heap = s.heap)
    (hstatus : statusLines es' = [] ∧ shown s'.response = shown s.response ∨
      statusLines es' = [shown s'.response]) : Ported host path s' c' where
  ended := hended
  connection := hconn
  selects := by rw [hlog', selects_append, hmatched.selects, List.append_nil, h.selects, hgo]
  effects := by
    rw [hlog, hlog', calls_append, effects_append, effects_append, h.effects, hmatched.effects]
  requests := by
    rw [hlog, hlog', requests_append, sentOn_append, List.map_append, List.flatten_append,
      h.requests, hmatched.requests]
  body := by
    have hsame := h.body.of_same hbody hlen hheap
    rwa [hlog', written_append, hmatched.written]
  status := by
    rw [hlog', statusLines_append]
    rcases hstatus with ⟨hnone, hshown⟩ | hsome
    · rw [hnone, List.append_nil, hshown]
      exact h.status
    · rw [hsome, List.getLast?_concat, Option.getD_some]

/-! ## One task -/

section Task

variable {a' : Answers} {c₁ : State Unit}

theorem Handled.eq_background (h : Handled host path t a' c₁ c') (htag : t.userdata = .notSet) :
    c' = c₁.emits [.call (.freeTask t)] := by
  cases h with
  | background => rfl
  | failed htag' => exact absurd htag htag'
  | mistyped htag' => exact absurd htag htag'
  | refused htag' | sent htag' | responded htag' | returned htag' =>
      rw [htag'] at htag
      cases htag

theorem Handled.eq_failed (h : Handled host path t a' c₁ c') (htag : t.userdata ≠ .notSet)
    (htype : t.type = .error) : ∃ text ∈ errorTexts,
      c' = { c₁ with ended := some (.exit 1) }.emits
        (.call (.printf text []) :: failEvents t a') := by
  cases h with
  | background htag' => exact absurd htag' htag
  | failed _ _ text htext => exact ⟨text, htext, rfl⟩
  | mistyped _ htype' => exact absurd htype htype'
  | refused _ htype' | sent _ htype' | responded _ htype' | returned _ htype' =>
      rw [htype'] at htype
      cases htype

theorem Handled.eq_sent (h : Handled host path t a' c₁ c') (htag : t.userdata = .handshake)
    (htype : t.type = .clientConn) (hrequest : a'.request = accepting) :
    c' = c₁.emits (clientEvents t ++ requestEvents host path ++ sendEvents t a') := by
  cases h with
  | sent => rfl
  | failed _ htype' =>
      rw [htype'] at htype
      cases htype
  | mistyped _ _ hne => exact absurd (by rw [htag, htype]; rfl) hne
  | refused _ _ hrefused =>
      rw [hrequest] at hrefused
      rcases hrefused with h | h <;> exact absurd rfl h
  | background htag' | responded htag' | returned htag' =>
      rw [htag'] at htag
      cases htag

theorem Handled.eq_responded (h : Handled host path t a' c₁ c') (htag : t.userdata = .send)
    (htype : t.type = .response) : c' = c₁.emits (responseEvents t a') := by
  cases h with
  | responded => rfl
  | failed _ htype' =>
      rw [htype'] at htype
      cases htype
  | mistyped _ _ hne => exact absurd (by rw [htag, htype]; rfl) hne
  | background htag' | refused htag' | sent htag' | returned htag' =>
      rw [htag'] at htag
      cases htag

theorem Handled.eq_returned (h : Handled host path t a' c₁ c') (htag : t.userdata = .respBody)
    (htype : t.type = .empty) : c' = { c₁ with
      connection := c₁.connection.freeConnData
      ended := some (.exit 0) }.emits (doneEvents t) := by
  cases h with
  | returned => rfl
  | failed _ htype' =>
      rw [htype'] at htype
      cases htype
  | mistyped _ _ hne => exact absurd (by rw [htag, htype]; rfl) hne
  | background htag' | refused htag' | sent htag' | responded htag' =>
      rw [htag'] at htag
      cases htag

end Task

theorem stringOf_eq {a : Hyper.Answers} {message : Bytes}
    (h : stringOf a.reasonPhrase a.reasonPhraseLen = .ok message) : message = reasonPhrase a := by
  rw [stringOf.eq_def] at h
  rw [reasonPhrase]
  split at h
  · cases h
  · rename_i bytes hsome
    split at h
    · cases h
    · cases h
      rw [hsome, Option.getD_some]

theorem matched_failed (e : ℕ) (hvalue : t.value = some e) (text text' : String) :
    Matched host path (.polled t :: .printf text [] :: .value t .error :: Hyper.failEvents e a)
      (.call (.polled t) :: .call (.printf text' []) ::
        failEvents t { a with request := accepting }) := by
  have hevents : failEvents t { a with request := accepting } =
      [.call (.value t .error), .call (.printf "error code: %d\n" [.int a.errorCode]),
        .call (.printf "details: %.*s\n" [.bytes (a.errorDetails.take errBufLen)]),
        .call (.freeError (some e))] := by
    rw [failEvents, hvalue]
  rw [hevents]
  refine ⟨?_, ?_, rfl, rfl⟩
  · show _ = .polled t :: .value t .error :: effects (Hyper.failEvents e a)
    rw [Hyper.failEvents, effects_append, effects_append, effects_printf]
    rfl
  · have hnone : sentOn (Hyper.failEvents e a) = [] := by
      rw [Hyper.failEvents, sentOn_append, sentOn_append, sentOn_printf]
      rfl
    show _ = ((sentOn (Hyper.failEvents e a)).map _).flatten
    rw [hnone]
    rfl

theorem matched_responded : Matched host path
    (.polled t :: ([] ++ reasonEvents t a ++ Hyper.bodyEvents t a))
    (.call (.polled t) :: responseEvents t { a with request := accepting }) := by
  obtain ⟨heffects, hrequests, hwritten, hselects, -⟩ := headerEvents_silent a.headers
  refine ⟨?_, ?_, ?_, ?_⟩
  · show .polled t :: effects (calls (responseEvents t { a with request := accepting })) =
      .polled t :: effects (reasonEvents t a ++ Hyper.bodyEvents t a)
    rw [responseEvents, calls_append, calls_append, effects_append, effects_append, heffects,
      Hyper.bodyEvents, effects_append, effects_append, effects_printf]
    rfl
  · have hnone : sentOn (reasonEvents t a ++ Hyper.bodyEvents t a) = [] := by
      rw [Hyper.bodyEvents, sentOn_append, sentOn_append, sentOn_printf]
      rfl
    show requests (responseEvents t { a with request := accepting }) =
      ((sentOn (reasonEvents t a ++ Hyper.bodyEvents t a)).map _).flatten
    rw [hnone, responseEvents, requests_append, requests_append, hrequests]
    rfl
  · show written (responseEvents t { a with request := accepting }) = []
    rw [responseEvents, written_append, written_append, hwritten]
    rfl
  · show selects (responseEvents t { a with request := accepting }) = []
    rw [responseEvents, selects_append, selects_append, hselects]
    rfl

/-- The one status line of a response. -/
theorem statusLines_responded : statusLines (.call (.polled t) ::
    responseEvents t { a with request := accepting }) =
      [[.int a.status.toNat, .bytes (reasonPhrase a)]] := by
  obtain ⟨-, -, -, -, hstatus⟩ := headerEvents_silent a.headers
  show statusLines (responseEvents t { a with request := accepting }) = _
  rw [responseEvents, statusLines_append, statusLines_append, hstatus]
  have hnewline : "\n" ≠ statusFormat := by decide
  have hnone := statusLine?_of_ne hnewline []
  rw [List.append_nil, statusLines, statusLines, List.filterMap_cons_none hnone]
  simp [List.filterMap_cons, statusLine?, statusFormat]

/-- What is printed of an error is no status line. -/
theorem statusLines_failed {text : String} (htext : text ∈ errorTexts) :
    statusLines (.call (.polled t) :: .call (.printf text []) ::
      failEvents t { a with request := accepting }) = [] := by
  have hcode : "error code: %d\n" ≠ statusFormat := by decide
  have hdetails : "details: %.*s\n" ≠ statusFormat := by decide
  have hne : ∀ text ∈ errorTexts, text ≠ statusFormat := by decide
  rw [failEvents, statusLines]
  cases t.value with
  | none =>
      simp only [List.filterMap_cons, statusLine?_of_ne (hne text htext)]
      rfl
  | some err =>
      simp only [List.filterMap_cons, statusLine?_of_ne (hne text htext),
        statusLine?_of_ne hcode, statusLine?_of_ne hdetails]
      rfl

theorem statusLines_sent : statusLines (.call (.polled t) :: (clientEvents t ++
    requestEvents host path ++ sendEvents t { a with request := accepting })) = [] := by
  have hpreparing : "preparing http request ...\n" ≠ statusFormat := by decide
  have hsending : "sending ...\n" ≠ statusFormat := by decide
  simp only [statusLines, clientEvents, requestEvents, sendEvents, List.cons_append,
    List.nil_append, List.filterMap_cons, statusLine?_of_ne hpreparing, statusLine?_of_ne hsending]
  rfl

theorem statusLines_done : statusLines (.call (.polled t) :: doneEvents t) = [] := by
  have hdone : "\n -- Done! -- \n" ≠ statusFormat := by decide
  simp only [statusLines, doneEvents, List.filterMap_cons, statusLine?_of_ne hdone]
  rfl

theorem stringOf_fits {phrase : Option Bytes} {len : ℕ} (hphrase : phrase ≠ none)
    (hfits : len ≤ arrayLen) (p : Panic) : stringOf phrase len ≠ .error p := by
  obtain ⟨bytes, rfl⟩ := Option.ne_none_iff_exists'.1 hphrase
  rw [stringOf.eq_def]
  simp only [if_neg (Nat.not_lt.2 hfits)]
  intro h
  cases h

theorem Ported.of_handled (h : Ported host path s c)
    (hgo : Hyper.Handled t a s s') (hord : Ordinary (.task t a))
    (hc : Handled host path t { a with request := accepting }
      (c.emits [.call (.polled t)]) c') : Ported host path s' c' := by
  obtain ⟨hwell, hsend, hreason⟩ := hord
  have hlog : ∀ es es' : List Event, c.log ++ es ++ es' = c.log ++ (es ++ es') :=
    List.append_assoc c.log
  cases hgo with
  | background htag =>
      obtain rfl := hc.eq_background htag
      exact h.of_matched h.ended h.connection rfl rfl (hlog _ _) ⟨rfl, rfl, rfl, rfl⟩ rfl rfl rfl
        (.inl ⟨rfl, rfl⟩)
  | failed htag text e htype hvalue =>
      obtain ⟨text', htext, rfl⟩ := hc.eq_failed htag htype
      exact h.of_matched rfl h.connection rfl rfl (hlog _ _) (matched_failed e hvalue text text')
        rfl rfl rfl (.inl ⟨statusLines_failed htext, rfl⟩)
  | notSent htag hpasses hres => exact absurd (hsend htag) hres
  | noReason htag hpasses p hp =>
      obtain ⟨hphrase, hfits⟩ := hreason htag
      exact absurd hp (stringOf_fits hphrase hfits p)
  | sent htag hpasses hres =>
      have htype := hwell.type_eq (by rw [htag]; decide) hpasses
      rw [htag] at htype
      obtain rfl := hc.eq_sent htag htype rfl
      rw [handshakeComplaints_eq hwell htag hpasses]
      exact h.of_matched h.ended h.connection rfl rfl (hlog _ _) ⟨rfl, rfl, rfl, rfl⟩ rfl rfl rfl
        (.inl ⟨statusLines_sent, rfl⟩)
  | responded htag hpasses message hmessage =>
      have htype := hwell.type_eq (by rw [htag]; decide) hpasses
      rw [htag] at htype
      obtain rfl := hc.eq_responded htag htype
      obtain rfl := stringOf_eq hmessage
      rw [sendComplaints_eq hwell htag hpasses]
      exact h.of_matched h.ended h.connection rfl rfl (hlog _ _) matched_responded rfl rfl rfl
        (.inr statusLines_responded)
  | returned htag hpasses =>
      have htype := hwell.type_eq (by rw [htag]; decide) hpasses
      rw [htag] at htype
      obtain rfl := hc.eq_returned htag htype
      rw [respBodyComplaints_eq hwell htag hpasses]
      exact h.of_matched rfl h.connection.freeSlot.freeSlot (goSelects_freeConnData _) rfl
        (hlog _ _) ⟨rfl, rfl, rfl, rfl⟩ rfl rfl rfl (.inl ⟨statusLines_done, rfl⟩)

/-! ## Every step -/

/-- A round of `select`, done by both. -/
theorem Ported.of_round {conn conn' : Connection} {status : Status} {ended : Option Ending}
    {es' : List Event} (h : Ported host path s c) (hended : ended = ending status)
    (hconn : Twins conn conn')
    (hgo : goSelects conn = goSelects s.connection ++ C.Client.selects es')
    (heffects : C.Client.effects (calls es') = []) (hrequests : C.Client.requests es' = [])
    (hwritten : written es' = []) (hstatus : statusLines es' = []) :
    Ported host path { s with connection := conn, status := status }
      ({ c with connection := conn', ended := ended }.emits es') where
  ended := hended
  connection := hconn
  selects := by
    rw [hgo, ← h.selects]
    exact selects_append _ _
  effects := by
    rw [State.emits, calls_append, effects_append, heffects, List.append_nil]
    exact h.effects
  requests := by
    rw [State.emits, requests_append, hrequests, List.append_nil]
    exact h.requests
  body := by
    rw [State.emits, written_append, hwritten, List.append_nil]
    exact ⟨h.body.buffered, h.body.noBody⟩
  status := by
    rw [State.emits, statusLines_append, hstatus, List.append_nil]
    exact h.status

theorem Ported.of_chunk (h : Ported host path s c) {chunk : Bytes} {resp : Response} {heap : CHeap}
    (hbody : Gathered (written c.log ++ [chunk]) { s with response := resp, heap := heap })
    (hshown : shown resp = shown s.response) :
    Ported host path { s with response := resp, heap := heap } (c.emits [.write chunk]) where
  ended := h.ended
  connection := h.connection
  selects := by
    rw [State.emits, selects_append]
    exact (List.append_nil _).trans h.selects
  effects := by
    rw [State.emits, calls_append, effects_append]
    exact (List.append_nil _).trans h.effects
  requests := by
    rw [State.emits, requests_append]
    exact (List.append_nil _).trans h.requests
  body := by
    rw [State.emits, written_append]
    exact hbody
  status := by
    rw [State.emits, statusLines_append, hshown]
    exact (congrArg (fun lines => (List.getLast? lines).getD _) (List.append_nil _)).trans h.status

section Step

variable {i : Hyper.Input}

theorem Ported.goes_on (h : Ported host path s c) (hrunning : s.status = .running) :
    c.ended = none := by
  rw [h.ended, hrunning]
  rfl

theorem Ported.step_select (h : Ported host path s c) (hrunning : s.status = .running)
    {ready : Readiness} (hret : ready.ret ≠ 0) : Option.Rel (Ported host path)
      (Hyper.step s (.select ready)) (step host path c (.select ready)) := by
  have hnone := h.goes_on hrunning
  have hrecord : Twins (s.connection.record (.select s.connection.selectCall)) c.connection := by
    refine ⟨h.connection.data, h.connection.wakers, ?_⟩
    rw [Connection.ledger_record, h.connection.ledger]
    exact (List.append_nil _).symm
  by_cases hneg : ready.ret < 0
  · have herror : "select() error\n" ≠ statusFormat := by decide
    have hround : Connection.selectRound ready s.connection = (some (.plain "select() error\n"),
        s.connection.record (.select s.connection.selectCall)) := by
      rw [Connection.selectRound, if_pos hneg]
    have hgo : Hyper.step s (.select ready) = some { s with
        connection := s.connection.record (.select s.connection.selectCall)
        status := .panicked (.plain "select() error\n") } := by
      rw [Hyper.step.eq_def, if_pos hrunning]
      simp only [hround]
    rw [hgo, step_of_run host path (.select ready) hnone (run_selectRound_failed hneg)]
    refine .some (h.of_round rfl hrecord h.connection.goSelects_select rfl rfl rfl ?_)
    simp only [statusLines, List.filterMap_cons, statusLine?_of_ne herror]
    rfl
  · have hgo : Hyper.step s (.select ready) = some { s with
        connection := C.woken ready (s.connection.record (.select s.connection.selectCall)) } := by
      rw [Hyper.step.eq_def, if_pos hrunning]
      simp only [selectRound_eq hneg hret]
    rw [hgo, step_of_run host path (.select ready) hnone (run_selectRound hneg)]
    refine .some (h.of_round h.ended (hrecord.woken ready) ?_ rfl rfl rfl rfl)
    rw [goSelects_woken]
    exact h.connection.goSelects_select

/-- The next chunk is taken by Go as long as the lengths do not overflow. -/
theorem Ported.step_chunk (h : Ported host path s c) (hrunning : s.status = .running)
    {chunk : Bytes} (hsize : totalLength (written c.log) + chunk.length < uintptrSize) :
    Option.Rel (Ported host path) (Hyper.step s (.bodyChunk true chunk))
      (step host path c (.callBack chunk)) := by
  have hnone := h.goes_on hrunning
  obtain ⟨resp, heap, happend, hbody, hbuf⟩ := h.body.takes hsize
  have hgo : Hyper.step s (.bodyChunk true chunk) =
      some { s with response := resp, heap := heap } := by
    rw [Hyper.step.eq_def, if_pos hrunning]
    simp only [happend, Option.map_some]
  have hrun : (printEachChunk chunk).run c = .ok () (c.emits [.write chunk]) := rfl
  rw [hgo, step_of_run host path (.callBack chunk) hnone hrun]
  refine .some (h.of_chunk ⟨?_, ?_⟩ ?_)
  · rw [List.flatten_append, List.flatten_singleton]
    exact hbuf
  · simp [hbody]
  · obtain ⟨hstatus, hmessage⟩ := appendToResponseBody_frame happend
    rw [shown, hstatus, hmessage]
    rfl

theorem Ported.step (h : Ported host path s c) (herr : ErrNil s) (hord : Ordinary i)
    (hsize : totalLength (written c.log ++ i.chunk?.toList) < uintptrSize) :
    Option.Rel (Ported host path) (Hyper.step s i) (step host path c (toC i)) := by
  by_cases hrunning : s.status = .running
  · have hnone := h.goes_on hrunning
    cases i with
    | readCallBack ret errno =>
        have hgo : Hyper.step s (.readCallBack ret errno) = some { s with
            connection := (s.connection.readCallBack ret errno).2 } := by
          rw [Hyper.step.eq_def, if_pos hrunning]
        rw [hgo, toC, step_of_run host path _ hnone rfl]
        exact .some (h.of_conn (h.connection.ioCb _ ret errno) (goSelects_ioCallBack _ ret errno))
    | writeCallBack ret errno =>
        have hgo : Hyper.step s (.writeCallBack ret errno) = some { s with
            connection := (s.connection.writeCallBack ret errno).2 } := by
          rw [Hyper.step.eq_def, if_pos hrunning]
        rw [hgo, toC, step_of_run host path _ hnone rfl]
        exact .some (h.of_conn (h.connection.ioCb _ ret errno) (goSelects_ioCallBack _ ret errno))
    | bodyChunk mallocOk chunk =>
        obtain rfl : mallocOk = true := hord
        apply h.step_chunk hrunning
        rw [totalLength_append] at hsize
        exact hsize
    | task t a =>
        have hgo : Hyper.step s (.task t a) = some (settle ((Hyper.handleTask t a).run s)) := by
          rw [Hyper.step.eq_def, if_pos hrunning]
        have hc := handled host path t { a with request := accepting } (c.emits [.call (.polled t)])
        rw [hgo, toC, step_of_run host path _ hnone rfl]
        exact .some (h.of_handled (Hyper.handled (herr hrunning)) hord hc)
    | select ready => exact h.step_select hrunning hord
  · have hgo : Hyper.step s i = none := by
      rw [Hyper.step.eq_def, if_neg hrunning]
    have hended : c.ended ≠ none := by
      rw [h.ended]
      cases hstatus : s.status with
      | running => exact absurd hstatus hrunning
      | returned => exact Option.some_ne_none _
      | panicked p => exact Option.some_ne_none _
    have hc : Client.step host path c (toC i) = none := if_neg hended
    rw [hgo, hc]
    exact .none

/-- The chunks that the program has written are as long as those that Go has kept. -/
theorem Ported.written_step (h : Ported host path s c) (herr : ErrNil s) (hord : Ordinary i)
    (hsize : totalLength (written c.log ++ i.chunk?.toList) < uintptrSize)
    (hstep : Hyper.step s i = some s') (h' : Ported host path s' c') :
    totalLength (written c'.log) = totalLength (written c.log ++ i.chunk?.toList) := by
  have halloc : i.Allocates := by
    cases i with
    | bodyChunk mallocOk chunk => exact hord
    | _ => trivial
  have hbody := h.body.of_step herr halloc hsize hstep
  rw [← length_flatten_eq, ← length_flatten_eq, ← h'.body.buffered.len, hbody.buffered.len]

theorem Ported.run {inputs : List Hyper.Input} (h : Ported host path s c) (herr : ErrNil s)
    (hord : ∀ i ∈ inputs, Ordinary i)
    (hsize : totalLength (written c.log) + totalLength (chunks inputs) < uintptrSize) :
    Option.Rel (Ported host path) (Machine.run Hyper.step s inputs)
      (Machine.run (Client.step host path) c (inputs.map toC)) := by
  induction inputs generalizing s c with
  | nil => exact .some h
  | cons i inputs ih =>
      rw [List.map_cons, run_cons, run_cons]
      have hchunks : totalLength (chunks (i :: inputs)) =
          totalLength i.chunk?.toList + totalLength (chunks inputs) := by
        rw [chunks_cons, totalLength_append]
      have hfirst : totalLength (written c.log ++ i.chunk?.toList) < uintptrSize := by
        rw [totalLength_append]
        omega
      have hord_i := hord i List.mem_cons_self
      have hstep := h.step herr hord_i hfirst
      cases hgo : Hyper.step s i with
      | none =>
          rw [hgo] at hstep
          cases hc : Client.step host path c (toC i) with
          | none => exact .none
          | some c' =>
              rw [hc] at hstep
              cases hstep
      | some s' =>
          rw [hgo] at hstep
          cases hc : Client.step host path c (toC i) with
          | none =>
              rw [hc] at hstep
              cases hstep
          | some c' =>
              rw [hc] at hstep
              cases hstep with
              | some h' =>
                  have hwritten := h.written_step herr hord_i hfirst hgo h'
                  rw [totalLength_append] at hwritten
                  apply ih h' (herr.of_step hgo) fun j hj => hord j (List.mem_cons_of_mem i hj)
                  omega

end Step

/-! ## Whole programs -/

/-- How far the two got: neither had a connection, or one is where the other is. -/
inductive SameOutcome (host path : CString) :
    Except Panic GetState → Except (List Event) (State Unit) → Prop where
  | failed (p : Panic) (printed : List Event) : SameOutcome host path (.error p) (.error printed)
  | entered (s : GetState) (c : State Unit) (h : Ported host path s c) :
      SameOutcome host path (.ok s) (.ok c)

/-- The program has done what `Get` did. -/
structure Follows (host path : CString) (g : GetRun) (m : MainRun Unit) : Prop where
  kernel : m.kernel = g.kernel
  request : g.request = requestFor host.bytes path.bytes
  outcome : SameOutcome host path g.outcome m.outcome

end LlgoExamples.Hyper.C.Client
