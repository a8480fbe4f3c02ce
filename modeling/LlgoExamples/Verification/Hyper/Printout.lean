import LlgoExamples.Verification.Hyper.BodyPrinting
import LlgoExamples.Verification.Hyper.Descriptors

/-! # What the program prints

`main` prints the last status and reason phrase that hyper answered, and then every chunk
that memory was found for. -/

namespace LlgoExamples.Hyper

open Machine

/-! ## What came in -/

def Input.stored? : Input → Option Bytes
  | .bodyChunk mallocOk chunk => if mallocOk then some chunk else none
  | _ => none

/-- The chunks that memory was found for, in order. -/
def stored (inputs : List Input) : List Bytes :=
  inputs.filterMap Input.stored?

def Input.response? : Input → Option Answers
  | .task t a => if t.userdata = .send then some a else none
  | _ => none

/-- What hyper answered about the responses, in order. -/
def responses (inputs : List Input) : List Answers :=
  inputs.filterMap Input.response?

def reason (a : Answers) : Bytes :=
  (a.reasonPhrase.getD []).take a.reasonPhraseLen

/-- The response with the last status and the last reason phrase. -/
def lastResponse (as : List Answers) : Response :=
  as.getLast?.elim Response.zero fun a =>
    { Response.zero with status := a.status, message := reason a }

/-! ## What the response says -/

/-- `Get` has the chunks `parts`, and of the responses `as` the last one. -/
structure Received (parts : List Bytes) (as : List Answers) (s : GetState) : Prop where
  gathered : Gathered parts s
  status : (∀ p, s.status ≠ .panicked p) → s.response.status = (lastResponse as).status
  message : (∀ p, s.status ≠ .panicked p) → s.response.message = (lastResponse as).message

section Receiving

variable {parts : List Bytes} {as : List Answers} {s s' : GetState} {i : Input}
  {inputs : List Input} {a : Answers} {t : Task}

theorem lastResponse_concat (as : List Answers) (a : Answers) : lastResponse (as ++ [a]) =
    { Response.zero with status := a.status, message := reason a } := by
  rw [lastResponse, List.getLast?_concat]
  rfl

theorem reason_of_stringOf {message : Bytes}
    (h : stringOf a.reasonPhrase a.reasonPhraseLen = .ok message) : message = reason a := by
  rw [reason]
  cases hphrase : a.reasonPhrase with
  | none =>
      rw [hphrase] at h
      cases h
  | some phrase =>
      rw [hphrase, stringOf] at h
      split at h
      · cases h
      · cases h
        rfl

/-- An allocation that fails leaves what was gathered. -/
theorem Gathered.of_step_stored (h : Gathered parts s) (herr : ErrNil s)
    (hsize : totalLength (parts ++ i.stored?.toList) < uintptrSize) (hstep : step s i = some s') :
    Gathered (parts ++ i.stored?.toList) s' := by
  cases i with
  | bodyChunk mallocOk chunk =>
      have hrunning := status_of_step hstep
      cases mallocOk with
      | true => exact Gathered.of_step (i := .bodyChunk true chunk) h herr rfl hsize hstep
      | false =>
          obtain ⟨heap, happend, -, hbuf⟩ := h.buffered.failed chunk
          rw [step, if_pos hrunning] at hstep
          simp only [happend, Option.map_some, Option.some.injEq] at hstep
          subst hstep
          have hnone : (Input.bodyChunk false chunk).stored? = none := rfl
          rw [hnone, Option.toList_none, List.append_nil]
          exact ⟨hbuf, h.noBody⟩
  | task t a => exact Gathered.of_step (i := .task t a) h herr trivial hsize hstep
  | readCallBack ret errno =>
      exact Gathered.of_step (i := .readCallBack ret errno) h herr trivial hsize hstep
  | writeCallBack ret errno =>
      exact Gathered.of_step (i := .writeCallBack ret errno) h herr trivial hsize hstep
  | select ready => exact Gathered.of_step (i := .select ready) h herr trivial hsize hstep

/-- A task changes the status and the reason phrase only if it is a response. -/
theorem Handled.response (h : Handled t a s s') (hpanic : ∀ p, s'.status ≠ .panicked p) :
    (t.userdata ≠ .send ∧ s'.response = s.response) ∨
      (t.userdata = .send ∧ s'.response.status = a.status ∧ s'.response.message = reason a) := by
  cases h with
  | background htag => exact .inl ⟨by rw [htag]; decide, rfl⟩
  | failed htag text e htype hvalue => exact absurd rfl (hpanic requestFailed)
  | sent htag hpasses hres => exact .inl ⟨by rw [htag]; decide, rfl⟩
  | notSent htag hpasses hres => exact absurd rfl (hpanic (.plain "error send\n"))
  | noReason htag hpasses p hreason => exact absurd rfl (hpanic p)
  | responded htag hpasses message hreason =>
      exact .inr ⟨htag, rfl, reason_of_stringOf hreason⟩
  | returned htag hpasses => exact .inl ⟨by rw [htag]; decide, rfl⟩

/-- Only a task with a response changes the status and the reason phrase. -/
theorem response_of_step (herr : ErrNil s) (hstep : step s i = some s')
    (hpanic : ∀ p, s'.status ≠ .panicked p) :
    (i.response? = none ∧ s'.response.status = s.response.status ∧
        s'.response.message = s.response.message) ∨
      ∃ a, i.response? = some a ∧ s'.response.status = a.status ∧
        s'.response.message = reason a := by
  obtain ⟨-, hstepped⟩ := stepped (herr (status_of_step hstep)) hstep
  cases hstepped with
  | readCallBack ret errno => exact .inl ⟨rfl, rfl, rfl⟩
  | writeCallBack ret errno => exact .inl ⟨rfl, rfl, rfl⟩
  | select ready hselect => exact .inl ⟨rfl, rfl, rfl⟩
  | selectPanics ready p hselect => exact absurd rfl (hpanic p)
  | task t a s' hhandled =>
      rcases hhandled.response hpanic with ⟨htag, hsame⟩ | ⟨htag, hstatus, hmessage⟩
      · exact .inl ⟨if_neg htag, by rw [hsame], by rw [hsame]⟩
      · exact .inr ⟨a, if_pos htag, hstatus, hmessage⟩
  | bodyChunk mallocOk chunk r happend =>
      obtain ⟨hstatus, hmessage⟩ := appendToResponseBody_frame happend
      exact .inl ⟨rfl, hstatus, hmessage⟩

theorem Received.of_step (h : Received parts as s) (herr : ErrNil s)
    (hsize : totalLength (parts ++ i.stored?.toList) < uintptrSize) (hstep : step s i = some s') :
    Received (parts ++ i.stored?.toList) (as ++ i.response?.toList) s' := by
  have hrunning : ∀ p, s.status ≠ .panicked p := by
    intro p
    rw [status_of_step hstep]
    exact Status.noConfusion
  refine ⟨h.gathered.of_step_stored herr hsize hstep, ?_, ?_⟩
  · intro hpanic
    rcases response_of_step herr hstep hpanic with ⟨hnone, hstatus, -⟩ | ⟨a, hsome, hstatus, -⟩
    · rw [hnone, Option.toList_none, List.append_nil, hstatus]
      exact h.status hrunning
    · rw [hsome, Option.toList_some, lastResponse_concat, hstatus]
  · intro hpanic
    rcases response_of_step herr hstep hpanic with ⟨hnone, -, hmessage⟩ | ⟨a, hsome, -, hmessage⟩
    · rw [hnone, Option.toList_none, List.append_nil, hmessage]
      exact h.message hrunning
    · rw [hsome, Option.toList_some, lastResponse_concat, hmessage]

theorem filterMap_cons_toList {α β : Type} (f : α → Option β) (x : α) (xs : List α) :
    (x :: xs).filterMap f = (f x).toList ++ xs.filterMap f := by
  cases h : f x with
  | none => rw [List.filterMap_cons_none h, Option.toList_none, List.nil_append]
  | some y => rw [List.filterMap_cons_some h, Option.toList_some, List.singleton_append]

theorem Received.of_run (h : Received parts as s) (herr : ErrNil s)
    (hsize : totalLength (parts ++ stored inputs) < uintptrSize)
    (hrun : run step s inputs = some s') :
    Received (parts ++ stored inputs) (as ++ responses inputs) s' := by
  induction inputs generalizing s parts as with
  | nil =>
      cases hrun
      rwa [stored, responses, List.filterMap_nil, List.filterMap_nil, List.append_nil,
        List.append_nil]
  | cons i inputs ih =>
      obtain ⟨t, hstep, hrest⟩ := run_cons_eq_some.1 hrun
      rw [stored, filterMap_cons_toList, ← List.append_assoc] at hsize ⊢
      rw [responses, filterMap_cons_toList, ← List.append_assoc]
      have hfirst : totalLength (parts ++ i.stored?.toList) < uintptrSize := by
        rw [totalLength_append] at hsize
        exact (Nat.le_add_right _ _).trans_lt hsize
      exact ih (h.of_step herr hfirst hstep) (herr.of_step hstep) hsize hrest

end Receiving

/-! ## What is printed -/

def nilDereference : Panic :=
  .plain "runtime error: invalid memory address or nil pointer dereference"

def outOfRange : Panic :=
  .plain "runtime error: slice bounds out of range"

/-- What `main` prints where `Get` got this far. -/
inductive Prints (inputs : List Input) : Except Panic GetState → Printout → Prop where
  | refused (p : Panic) : Prints inputs (.error p) { text := [], panic := some p }
  | waiting (s : GetState) (hs : s.status = .running) :
      Prints inputs (.ok s) { text := [], panic := none }
  | panicked (s : GetState) (p : Panic) (hs : s.status = .panicked p) :
      Prints inputs (.ok s) { text := [], panic := some p }
  | bodiless (s : GetState) (hs : s.status = .returned) (hnone : stored inputs = []) :
      Prints inputs (.ok s)
        { text := printStatus (lastResponse (responses inputs)), panic := some nilDereference }
  | oversized (s : GetState) (hs : s.status = .returned)
      (hlong : arrayLen < totalLength (stored inputs)) :
      Prints inputs (.ok s)
        { text := printStatus (lastResponse (responses inputs)), panic := some outOfRange }
  | whole (s : GetState) (hs : s.status = .returned) (hsome : stored inputs ≠ [])
      (hfits : totalLength (stored inputs) ≤ arrayLen) :
      Prints inputs (.ok s)
        { text := printStatus (lastResponse (responses inputs)) ++
            ((stored inputs).flatten ++ literal "\n")
          panic := none }

theorem printStatus_eq {resp resp' : Response} (hstatus : resp.status = resp'.status)
    (hmessage : resp.message = resp'.message) : printStatus resp = printStatus resp' := by
  rw [printStatus, printStatus, hstatus, hmessage]

/-- After `Get` returned, the status is printed whatever becomes of the body. -/
theorem Received.printed {inputs : List Input} {s : GetState}
    (h : Received (stored inputs) (responses inputs) s) (hs : s.status = .returned) :
    ∃ printout, printResponse s.response s.heap = some printout ∧
      Prints inputs (.ok s) printout := by
  have hpanic : ∀ p, s.status ≠ .panicked p := by
    intro p
    rw [hs]
    exact Status.noConfusion
  have hstatus := printStatus_eq (h.status hpanic) (h.message hpanic)
  rw [printResponse, hstatus]
  have hlength := length_flatten_eq (stored inputs)
  cases hbody : s.response.responseBody with
  | none =>
      rw [printBody_of_none hbody]
      exact ⟨_, rfl, .bodiless s hs (h.gathered.noBody.1 hbody)⟩
  | some p =>
      have hsome : stored inputs ≠ [] := by
        intro hnil
        rw [h.gathered.noBody.2 hnil] at hbody
        cases hbody
      by_cases hfits : totalLength (stored inputs) ≤ arrayLen
      · rw [h.gathered.buffered.printed hbody (hlength.trans_le hfits)]
        exact ⟨_, rfl, .whole s hs hsome hfits⟩
      · have hlong := Nat.lt_of_not_le hfits
        have hlen : arrayLen < s.response.responseBodyLen := by
          rw [h.gathered.buffered.len, hlength]
          exact hlong
        rw [printBody_of_long hbody hlen]
        exact ⟨_, rfl, .oversized s hs hlong⟩

end LlgoExamples.Hyper
