import LlgoExamples.Verification.Hyper.BodyBuffer
import LlgoExamples.Verification.Hyper.Phases

/-! # Printing the body that Get returns

The buffer holds the chunks of a run in order. Printing takes it for an array of a fixed
length, at an address that is nil as long as there was no chunk. -/

namespace LlgoExamples.Hyper

open Machine

/-! ## Printing what is buffered -/

theorem mapM_written (bytes : Bytes) : (bytes.map some).mapM id = some bytes := by
  induction bytes with
  | nil => rfl
  | cons b bytes ih =>
      rw [List.map_cons, List.mapM_cons, ih]
      rfl

section Printing

variable {resp : Response} {h : CHeap} {bytes : Bytes}

theorem printBody_of_none (hbody : resp.responseBody = none) :
    printBody resp h = some
      (.error (.plain "runtime error: invalid memory address or nil pointer dereference")) := by
  rw [printBody, hbody]

theorem printBody_of_long {p : ℕ} (hbody : resp.responseBody = some p)
    (hlen : arrayLen < resp.responseBodyLen) :
    printBody resp h = some (.error (.plain "runtime error: slice bounds out of range")) := by
  rw [printBody, hbody]
  exact if_pos hlen

/-- A body that is there and fits in the array is printed as it is. -/
theorem Buffered.printed (hbuf : Buffered bytes resp h) {p : ℕ}
    (hbody : resp.responseBody = some p) (hlen : bytes.length ≤ arrayLen) :
    printBody resp h = some (.ok (bytes ++ literal "\n")) := by
  have hblocks := hbuf.blocks
  rw [hbody] at hblocks
  have hlookup : h.blocks.lookup p = some (bytes.map some) := by
    rw [hblocks]
    exact List.lookup_cons_self
  have hread : h.bytes p bytes.length = some bytes := by
    rw [CHeap.bytes, hlookup, Option.bind_some, if_pos (List.length_map some).ge,
      List.take_of_length_le (List.length_map some).le, mapM_written]
  rw [printBody, hbody, hbuf.len]
  simp only [if_neg (Nat.not_lt.2 hlen), hread, Option.map_some]

theorem Buffered.printed_iff (hbuf : Buffered bytes resp h) :
    printBody resp h = some (.ok (bytes ++ literal "\n")) ↔
      resp.responseBody ≠ none ∧ bytes.length ≤ arrayLen := by
  cases hbody : resp.responseBody with
  | none =>
      rw [printBody_of_none hbody]
      simp
  | some p =>
      by_cases hlen : bytes.length ≤ arrayLen
      · simp [hbuf.printed hbody hlen, hlen]
      · have hlong : arrayLen < resp.responseBodyLen := by
          rw [hbuf.len]
          exact Nat.lt_of_not_ge hlen
        simp [printBody_of_long hbody hlong, hlen]

end Printing

/-! ## The body during a run -/

def Input.chunk? : Input → Option Bytes
  | .bodyChunk _ chunk => some chunk
  | _ => none

/-- The chunks delivered, in order. -/
def chunks (inputs : List Input) : List Bytes :=
  inputs.filterMap Input.chunk?

/-- The allocation for a chunk succeeds. -/
def Input.Allocates : Input → Prop
  | .bodyChunk mallocOk _ => mallocOk = true
  | _ => True

/-- `parts` is what has been delivered. -/
structure Gathered (parts : List Bytes) (s : GetState) : Prop where
  buffered : Buffered parts.flatten s.response s.heap
  noBody : s.response.responseBody = none ↔ parts = []

theorem gathered_start (fd : ℤ) (handshakeTask : ℕ) (handshakeRes : Code) :
    Gathered [] (GetState.start fd handshakeTask handshakeRes) where
  buffered := buffered_start
  noBody := ⟨fun _ => rfl, fun _ => rfl⟩

section Gathering

variable {parts : List Bytes} {s s' : GetState} {i : Input} {inputs : List Input}

theorem chunks_cons (i : Input) (inputs : List Input) :
    chunks (i :: inputs) = i.chunk?.toList ++ chunks inputs := by
  cases h : i.chunk? with
  | none => rw [chunks, List.filterMap_cons_none h, Option.toList_none, List.nil_append, chunks]
  | some chunk =>
      rw [chunks, List.filterMap_cons_some h, Option.toList_some, List.singleton_append, chunks]

theorem totalLength_append (parts parts' : List Bytes) :
    totalLength (parts ++ parts') = totalLength parts + totalLength parts' := by
  rw [← length_flatten_eq, List.flatten_append, List.length_append, length_flatten_eq,
    length_flatten_eq]

/-- The next chunk is taken as long as the lengths do not overflow. -/
theorem Gathered.takes (h : Gathered parts s) {chunk : Bytes}
    (hsize : totalLength parts + chunk.length < uintptrSize) :
    ∃ resp h', appendToResponseBody true chunk s.response s.heap = some (iterContinue, resp, h') ∧
      resp.responseBody = some s.heap.next ∧ Buffered (parts.flatten ++ chunk) resp h' := by
  rw [← length_flatten_eq] at hsize
  exact h.buffered.continued hsize

/-- The status and the message of the response are no part of the body. -/
theorem Gathered.of_same (h : Gathered parts s)
    (hbody : s'.response.responseBody = s.response.responseBody)
    (hlen : s'.response.responseBodyLen = s.response.responseBodyLen) (hheap : s'.heap = s.heap) :
    Gathered (parts ++ []) s' := by
  rw [List.append_nil]
  refine ⟨⟨?_, ?_, ?_, ?_, ?_⟩, ?_⟩
  · rw [hlen]
    exact h.buffered.len
  · rw [hheap, hbody]
    exact h.buffered.blocks
  · rw [hheap, hbody]
    exact h.buffered.size
  · rw [hbody]
    exact h.buffered.empty
  · rw [hheap, hbody]
    exact h.buffered.booked
  · rw [hbody]
    exact h.noBody

theorem Gathered.of_step (h : Gathered parts s) (herr : ErrNil s) (halloc : i.Allocates)
    (hsize : totalLength (parts ++ i.chunk?.toList) < uintptrSize) (hstep : step s i = some s') :
    Gathered (parts ++ i.chunk?.toList) s' := by
  obtain ⟨-, hstepped⟩ := stepped (herr (status_of_step hstep)) hstep
  cases hstepped with
  | readCallBack ret errno => exact h.of_same rfl rfl rfl
  | writeCallBack ret errno => exact h.of_same rfl rfl rfl
  | select ready hselect => exact h.of_same rfl rfl rfl
  | selectPanics ready p hselect => exact h.of_same rfl rfl rfl
  | task t a s' hhandled => cases hhandled <;> exact h.of_same rfl rfl rfl
  | bodyChunk mallocOk chunk r happend =>
      obtain rfl : mallocOk = true := halloc
      have htotal : totalLength parts + chunk.length < uintptrSize := by
        rw [totalLength_append] at hsize
        exact hsize
      obtain ⟨resp, h', htaken, hbody, hbuf⟩ := h.takes htotal
      rw [happend] at htaken
      cases htaken
      refine ⟨?_, ?_⟩
      · rw [List.flatten_append]
        simpa [Input.chunk?] using hbuf
      · simp [Input.chunk?, hbody]

theorem Gathered.of_run (h : Gathered parts s) (herr : ErrNil s)
    (halloc : ∀ i ∈ inputs, i.Allocates)
    (hsize : totalLength (parts ++ chunks inputs) < uintptrSize)
    (hrun : run step s inputs = some s') : Gathered (parts ++ chunks inputs) s' := by
  induction inputs generalizing s parts with
  | nil =>
      cases hrun
      rwa [chunks, List.filterMap_nil, List.append_nil]
  | cons i inputs ih =>
      obtain ⟨t, hstep, hrest⟩ := run_cons_eq_some.1 hrun
      rw [chunks_cons, ← List.append_assoc] at hsize ⊢
      have hfirst : totalLength (parts ++ i.chunk?.toList) < uintptrSize := by
        rw [totalLength_append] at hsize
        exact (Nat.le_add_right _ _).trans_lt hsize
      have hnext := h.of_step herr (halloc i List.mem_cons_self) hfirst hstep
      exact ih hnext (herr.of_step hstep) (fun j hj => halloc j (List.mem_cons_of_mem i hj))
        hsize hrest

end Gathering

/-! ## Printing the body of a response -/

/-- If no allocation fails, `Get` takes every chunk, and `PrintBody` prints what it was
given exactly when there was a chunk and the chunks fit in the array. -/
theorem body_printed_iff (fd : ℤ) (handshakeTask : ℕ) (handshakeRes : Code)
    (inputs : List Input) (s : GetState) (halloc : ∀ i ∈ inputs, i.Allocates)
    (hsize : totalLength (chunks inputs) < uintptrSize)
    (hrun : run step (GetState.start fd handshakeTask handshakeRes) inputs = some s) :
    (printBody s.response s.heap = some (.ok ((chunks inputs).flatten ++ literal "\n")) ↔
      chunks inputs ≠ [] ∧ totalLength (chunks inputs) ≤ arrayLen) ∧
    ∀ chunk, s.status = .running → totalLength (chunks inputs) + chunk.length < uintptrSize →
      (step s (.bodyChunk true chunk)).isSome := by
  have hstart := gathered_start fd handshakeTask handshakeRes
  have h : Gathered (chunks inputs) s :=
    hstart.of_run (errNil_start fd handshakeTask handshakeRes) halloc hsize hrun
  refine ⟨?_, ?_⟩
  · rw [h.buffered.printed_iff, Ne, h.noBody, length_flatten_eq]
  · intro chunk hrunning htotal
    obtain ⟨resp, h', htaken, -⟩ := h.takes htotal
    rw [step, if_pos hrunning]
    simp only [htaken, Option.map_some, Option.isSome_some]

theorem body_printed_iff_request :
    ∃ s, run step (GetState.start 3 0 .ok) requestInputs = some s ∧ s.status = .returned ∧
      printBody s.response s.heap = some (.ok (literal "hi\n")) := by
  refine ⟨_, rfl, rfl, ?_⟩
  have halloc : ∀ i ∈ requestInputs, i.Allocates := by
    simp [requestInputs, Input.Allocates]
  exact (body_printed_iff 3 0 .ok requestInputs _ halloc (by decide) rfl).1.2
    ⟨by decide, by decide⟩

/-- A whole request whose response has no body. -/
def bodilessInputs : List Input :=
  [.task connectedTask okAnswers, .task respondedTask okAnswers,
    .task { id := 2, userdata := .respBody, type := .empty, value := none } okAnswers]

/-- Without a chunk there is no body to take for an array. -/
theorem not_printed_bodiless :
    ∃ s, run step (GetState.start 3 0 .ok) bodilessInputs = some s ∧ s.status = .returned ∧
      chunks bodilessInputs = [] ∧
      printBody s.response s.heap = some
        (.error (.plain "runtime error: invalid memory address or nil pointer dereference")) ∧
      printBody s.response s.heap ≠
        some (.ok ((chunks bodilessInputs).flatten ++ literal "\n")) := by
  refine ⟨_, rfl, rfl, rfl, rfl, ?_⟩
  intro h
  cases h

end LlgoExamples.Hyper
