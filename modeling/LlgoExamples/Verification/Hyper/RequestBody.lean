import LlgoExamples.Verification.Hyper.AddressLoop
import LlgoExamples.Verification.Hyper.Upload

/-! # The body of the request

`poll_req_upload` hands hyper a chunk of the file each time it is asked for one, and null
where the file has no more. The state keeps what is still to be read. -/

namespace LlgoExamples.Hyper.C.Upload

open Machine

variable {host path : CString} {t : Task} {a : Answers} {s s' : State Locals}

/-! ## What hyper is handed -/

/-- The chunks, and null where there was none, in the order they were handed to hyper. -/
def polls (es : List Event) : List (Option Block) :=
  es.filterMap fun e => match e with
    | .pollReady chunk => some chunk
    | _ => none

variable {es es' : List Event}

theorem polls_append : polls (es ++ es') = polls es ++ polls es' :=
  List.filterMap_append

theorem polls_headerEvents (headers : List (Bytes × Bytes)) :
    polls (headerEvents headers) = [] := by
  induction headers with
  | nil => rfl
  | cons header headers ih => exact ih

theorem polls_request (requests : List RequestEvent) : polls (requests.map Event.request) = [] := by
  induction requests with
  | nil => rfl
  | cons e requests ih => exact ih

/-- The polls that `read` answered. -/
def answered (inputs : List (Input CallBack Answers)) : ℕ :=
  inputs.countP fun i => match i with
    | .callBack (.pollReqUpload (.ready _)) => true
    | _ => false

/-! ## Streaming -/

/-- The file was handed over as the chunks of `sent`, and then null so many times, where
`rest` is still to be read. -/
structure Streamed (file rest : Bytes) (polled : List (Option Block)) (sent : List Bytes)
    (ends : ℕ) : Prop where
  polled_eq : polled =
    sent.map (fun chunk => some (chunk.map some)) ++ List.replicate ends none
  split : sent.flatten ++ rest = file
  chunks : ∀ chunk ∈ sent, chunk ≠ [] ∧ chunk.length ≤ bufLen
  ended : ends ≠ 0 → rest = []

section

variable {file rest : Bytes} {polled : List (Option Block)} {sent : List Bytes} {ends : ℕ}

theorem streamed_nil (file : Bytes) : Streamed file file [] [] 0 where
  polled_eq := rfl
  split := rfl
  chunks _ h := by cases h
  ended h := absurd rfl h

theorem Streamed.chunk {chunk : Bytes} (h : Streamed file (chunk ++ rest) polled sent ends)
    (hchunk : chunk ≠ []) (hlen : chunk.length ≤ bufLen) :
    Streamed file rest (polled ++ [some (chunk.map some)]) (sent ++ [chunk]) ends := by
  -- a chunk can still be read, so there was no null yet
  have hends : ends = 0 := by
    by_contra hends
    exact hchunk (List.append_eq_nil_iff.1 (h.ended hends)).1
  subst hends
  refine ⟨?_, ?_, ?_, fun hne => absurd rfl hne⟩
  · simp [h.polled_eq]
  · have hsplit := h.split
    simp only [List.flatten_append, List.flatten_singleton, List.append_assoc]
    exact hsplit
  · intro c hc
    rcases List.mem_append.1 hc with hc | hc
    · exact h.chunks c hc
    · cases List.mem_singleton.1 hc
      exact ⟨hchunk, hlen⟩

theorem Streamed.null (h : Streamed file [] polled sent ends) :
    Streamed file [] (polled ++ [none]) sent (ends + 1) where
  polled_eq := by rw [h.polled_eq, List.replicate_succ', List.append_assoc]
  split := h.split
  chunks := h.chunks
  ended _ := rfl

/-- Each chunk has a byte, so there are not more of them than bytes. -/
theorem length_le_flatten (h : ∀ chunk ∈ sent, chunk ≠ []) : sent.length ≤ sent.flatten.length := by
  induction sent with
  | nil => exact Nat.le_refl 0
  | cons chunk sent ih =>
      have hchunk := List.length_pos_iff.2 (h chunk List.mem_cons_self)
      have hrest := ih fun c hc => h c (List.mem_cons_of_mem _ hc)
      rw [List.length_cons, List.flatten_cons, List.length_append]
      omega

/-- The whole file has gone where hyper was handed null, which comes after at most as many
chunks as the file has bytes. -/
theorem Streamed.complete (h : Streamed file rest polled sent ends)
    (hasked : file.length < polled.length) : ends ≠ 0 ∧ sent.flatten = file := by
  have hsplit := congrArg List.length h.split
  have hsent := length_le_flatten fun chunk hc => (h.chunks chunk hc).1
  have hpolled := congrArg List.length h.polled_eq
  simp only [List.length_append, List.length_map, List.length_replicate] at hsplit hpolled
  have hends : ends ≠ 0 := by omega
  refine ⟨hends, ?_⟩
  have hfile := h.split
  rwa [h.ended hends, List.append_nil] at hfile

end

/-! ## Every step -/

theorem UploadBody.given_append (upload : UploadBody) (more : ℕ) :
    upload.given more ++ (upload.after more).file = upload.file := by
  have hlen : (upload.given more).length ≤ min (more + 1) upload.buf.length :=
    List.length_take_le _ _
  rw [UploadBody.after]
  conv => rhs; rw [← List.take_append_drop (upload.given more).length upload.file]
  congr 1
  rw [UploadBody.given, List.length_take]
  rw [List.take_eq_take_iff]
  omega

theorem UploadBody.length_given_le (upload : UploadBody) (more : ℕ) :
    (upload.given more).length ≤ upload.buf.length :=
  (List.length_take_le _ _).trans (Nat.min_le_right _ _)

theorem UploadBody.length_after (upload : UploadBody) (more : ℕ) :
    (upload.after more).buf.length = upload.buf.length := by
  have hle := upload.length_given_le more
  simp only [UploadBody.after, List.length_append, List.length_map, List.length_drop]
  omega

/-- `read` answers 0 at the end of the file only. -/
theorem UploadBody.file_eq_nil {upload : UploadBody} {more : ℕ} (hbuf : upload.buf.length = bufLen)
    (h : upload.given more = []) : upload.file = [] := by
  rcases List.take_eq_nil_iff.1 h with hzero | hfile
  · rw [hbuf, bufLen] at hzero
    omega
  · exact hfile

theorem Handled.polls (h : Handled host path t a s s') :
    s'.locals.upload = s.locals.upload ∧ polls s'.log = polls s.log := by
  have hquiet : ∀ es, Upload.polls es = [] → Upload.polls (s.log ++ es) = Upload.polls s.log := by
    intro es hes
    rw [polls_append, hes, List.append_nil]
  cases h with
  | background htag => exact ⟨rfl, hquiet _ rfl⟩
  | failed htag htype text => exact ⟨rfl, hquiet _ rfl⟩
  | mistyped htag htype hne hbuf condition => exact ⟨rfl, rfl⟩
  | refused htag htype es text =>
      refine ⟨rfl, hquiet _ ?_⟩
      rw [polls_append, polls_append, polls_request]
      rfl
  | sent htag htype => exact ⟨rfl, hquiet _ rfl⟩
  | responded htag htype =>
      refine ⟨rfl, hquiet _ ?_⟩
      rw [polls_append, polls_append, polls_headerEvents]
      rfl
  | printed htag htype => exact ⟨rfl, hquiet _ rfl⟩
  | returned htag htype => exact ⟨rfl, hquiet _ rfl⟩

/-- The file as it was streamed up to this state, in so many polls. -/
structure Streaming (file : Bytes) (asked : ℕ) (s : State Locals) : Prop where
  buf : s.locals.upload.buf.length = bufLen
  asked : (polls s.log).length = asked
  streamed : ∃ sent ends, Streamed file s.locals.upload.file (polls s.log) sent ends

variable {file : Bytes} {asked : ℕ}

theorem Streaming.quiet (h : Streaming file asked s) (hupload : s'.locals.upload = s.locals.upload)
    (hpolls : polls s'.log = polls s.log) : Streaming file asked s' := by
  refine ⟨?_, ?_, ?_⟩
  · rw [hupload]
    exact h.buf
  · rw [hpolls]
    exact h.asked
  · rw [hupload, hpolls]
    exact h.streamed

/-- A call of hyper's hands over the next chunk, or null at the end of the file. -/
theorem Streaming.called {k : CallBack} (h : Streaming file asked s) (hcalled : Called s k s') :
    Streaming file (asked + answered [.callBack k]) s' := by
  obtain ⟨sent, ends, hstreamed⟩ := h.streamed
  cases hcalled with
  | informational status =>
      exact h.quiet rfl (by rw [State.emits, polls_append]; exact List.append_nil _)
  | failed errno =>
      exact h.quiet rfl (by rw [State.emits, polls_append]; exact List.append_nil _)
  | chunk more hgiven =>
      refine ⟨?_, ?_, sent ++ [s.locals.upload.given more], ends, ?_⟩
      · exact (s.locals.upload.length_after more).trans h.buf
      · simp only [State.emits, polls_append, List.length_append, h.asked]
        rfl
      · rw [← s.locals.upload.given_append more] at hstreamed
        have hlen := s.locals.upload.length_given_le more
        rw [h.buf] at hlen
        simp only [State.emits, polls_append]
        exact hstreamed.chunk hgiven hlen
  | done more hgiven =>
      have hfile := UploadBody.file_eq_nil h.buf hgiven
      have hafter : (s.locals.upload.after more).file = [] := by
        rw [UploadBody.after, hfile, List.drop_nil]
      refine ⟨?_, ?_, sent, ends + 1, ?_⟩
      · exact (s.locals.upload.length_after more).trans h.buf
      · simp only [State.emits, polls_append, List.length_append, h.asked]
        rfl
      · rw [hfile] at hstreamed
        simp only [State.emits, polls_append, hafter]
        exact hstreamed.null

theorem Streaming.of_step {s s' : State (program host path).Locals}
    {i : Input (program host path).CallBack (program host path).Answers}
    (h : Streaming file asked s) (hstep : step host path s i = some s') :
    Streaming file (asked + answered [i]) s' := by
  obtain ⟨-, hstepped⟩ := Program.stepped hstep
  cases hstepped with
  | readCb ret errno => exact h.quiet rfl rfl
  | writeCb ret errno => exact h.quiet rfl rfl
  | callBack k s' hcall =>
      subst hcall
      exact h.called (Upload.called k s)
  | task t a s' hcase =>
      subst hcase
      obtain ⟨hupload, hpolls⟩ := (handled host path t a (s.emits [.call (.polled t)])).polls
      refine h.quiet hupload (hpolls.trans ?_)
      rw [State.emits, polls_append]
      exact List.append_nil _
  | select ready hret =>
      exact h.quiet rfl (by rw [State.emits, polls_append]; exact List.append_nil _)
  | selectFails ready hret =>
      exact h.quiet rfl (by rw [State.emits, polls_append]; exact List.append_nil _)

theorem Streaming.of_run {inputs : List (Input CallBack Answers)} (h : Streaming file asked s)
    (hrun : run (step host path) s inputs = some s') :
    Streaming file (asked + answered inputs) s' := by
  induction inputs generalizing s asked with
  | nil =>
      cases hrun
      exact h
  | cons i inputs ih =>
      obtain ⟨mid, hstep, hrest⟩ := run_cons_eq_some.1 hrun
      have hcount : answered ([i] ++ inputs) = answered [i] + answered inputs :=
        List.countP_append
      rw [List.singleton_append] at hcount
      rw [hcount, ← Nat.add_assoc]
      exact ih (h.of_step hstep) hrest

/-! ## The whole program -/

theorem streaming_start (host path port : CString) (fd : ℤ) (file : Bytes) (version : Bytes)
    (task : ℕ) (res : Code) : Streaming file 0 (entered fd (Locals.start file)
      (prelude "connected to %s, now upload to %s\n" host port path version task res)) where
  buf := List.length_replicate
  asked := rfl
  streamed := ⟨[], 0, streamed_nil file⟩

/-- However much `read` gives at a time, and whatever else goes on between the polls, hyper
is handed the file from its start, in chunks that are not empty and fit the buffer, with no
byte of the buffer that was not read; null comes after the last byte and only there, and
comes at the latest when more polls were answered than the file has bytes. -/
theorem upload_streams (alloc : Sockets) (argv : List CString) (file : Bytes)
    (env : Surroundings CallBack Answers) (k : Kernel) {r : MainRun Locals}
    (hmain : main alloc argv (.ok file) env k = some r) (hs : r.outcome = .ok s) :
    ∃ sent ends, Streamed file s.locals.upload.file (polls s.log) sent ends ∧
      (polls s.log).length = answered env.inputs ∧
      (file.length < answered env.inputs → ends ≠ 0 ∧ sent.flatten = file) := by
  cases hfile : argv[1]? with
  | none =>
      simp only [main, hfile] at hmain
      cases hmain
      cases hs
  | some name =>
      simp only [main, hfile] at hmain
      obtain ⟨fd, hrun⟩ := Program.run_of_runMain hmain hs
      have hstart := streaming_start (argv.getD 2 defaultHost) (argv.getD 4 defaultPath)
        (argv.getD 3 defaultPort) fd file env.version
        env.handshakeTask env.handshakeRes
      have hstreaming := hstart.of_run hrun
      rw [Nat.zero_add] at hstreaming
      obtain ⟨sent, ends, hstreamed⟩ := hstreaming.streamed
      refine ⟨sent, ends, hstreamed, hstreaming.asked, ?_⟩
      intro hasked
      rw [← hstreaming.asked] at hasked
      exact hstreamed.complete hasked

/-- Three bytes that two reads give, and two reads at the end of the file. -/
def readInTwo : Surroundings CallBack Answers :=
  { sfd := 0, network := fourAddresses, version := [], handshakeTask := 0, handshakeRes := .ok
    inputs := [.callBack (.pollReqUpload (.ready 0)), .writeCb (-1) eagain,
      .callBack (.pollReqUpload (.ready 4)), .callBack (.pollReqUpload (.ready 4)),
      .callBack (.pollReqUpload (.ready 0))] }

theorem upload_streams_readInTwo : ∃ r s,
    main .lowest [defaultHost, defaultHost] (.ok [7, 8, 9]) readInTwo
        { fds := {0, 1, 2}, log := [] } = some r ∧ r.outcome = .ok s ∧
    polls s.log = [some [some 7], some [some 8, some 9], none, none] ∧
    ∃ sent ends, Streamed [7, 8, 9] s.locals.upload.file (polls s.log) sent ends ∧
      (polls s.log).length = 4 ∧ ends ≠ 0 ∧ sent.flatten = [7, 8, 9] := by
  have hpolls : ((main .lowest [defaultHost, defaultHost] (.ok [7, 8, 9]) readInTwo
      { fds := {0, 1, 2}, log := [] }).bind fun r => r.outcome.toOption).map
        (fun s => polls s.log) = some [some [some 7], some [some 8, some 9], none, none] := by
    decide +kernel
  obtain ⟨s, hs, hpolls⟩ := Option.map_eq_some_iff.1 hpolls
  obtain ⟨r, hmain, houtcome⟩ := Option.bind_eq_some_iff.1 hs
  have hok : r.outcome = .ok s := by
    cases hcase : r.outcome with
    | error text =>
        rw [hcase] at houtcome
        cases houtcome
    | ok s' =>
        rw [hcase] at houtcome
        cases houtcome
        rfl
  obtain ⟨sent, ends, hstreamed, hlength, hall⟩ := upload_streams .lowest
    [defaultHost, defaultHost] [7, 8, 9] readInTwo { fds := {0, 1, 2}, log := [] } hmain hok
  exact ⟨r, s, hmain, hok, hpolls, sent, ends, hstreamed, hlength, hall (by decide)⟩

end LlgoExamples.Hyper.C.Upload
