import LlgoExamples.Library.Ledger
import LlgoExamples.Model.Hyper.Body

/-! # The buffer of the response body

Each chunk is appended in a new block, which takes over the bytes of the last one before
that is freed. The heap's log keeps the books of the blocks. -/

namespace LlgoExamples.Hyper

open Ledger Machine

/-! ## The operations of the heap -/

section Heap

variable {h : CHeap} {rest : List (ℕ × Block)} {dst off len : ℕ} {block bytes : Block}

/-- Copying into the newest block. -/
theorem memcpy_head {src : Source} (hblocks : h.blocks = (dst, block) :: rest)
    (hrest : ∀ b ∈ rest, b.1 ≠ dst) (hload : h.load src = some bytes)
    (hsrc : len ≤ bytes.length) (hdst : off + len ≤ block.length) :
    h.memcpy dst off src len = some
      { h with
        blocks := (dst, block.take off ++ bytes.take len ++ block.drop (off + len)) :: rest
        log := h.log ++ [.memcpy dst off src len] } := by
  have hlookup : h.blocks.lookup dst = some block := by
    rw [hblocks]
    exact List.lookup_cons_self
  have hstore : ∀ block', (rest.map fun b => if b.1 = dst then (dst, block') else b) = rest := by
    intro block'
    conv_rhs => rw [← List.map_id rest]
    exact List.map_congr_left fun b hb => if_neg (hrest b hb)
  simp only [CHeap.memcpy, hload, hlookup, if_pos (And.intro hsrc hdst), CHeap.store, CHeap.record]
  rw [hblocks, List.map_cons, if_pos rfl, hstore]

theorem load_second {p q : ℕ} {old : Block} (hblocks : h.blocks = [(q, block), (p, old)])
    (hne : q ≠ p) : h.load (.block p) = some old := by
  have hbeq : (p == q) = false := beq_eq_false_iff_ne.2 hne.symm
  simp [CHeap.load, hblocks, List.lookup_cons, hbeq]

/-- Freeing the block before the newest one. -/
theorem free_second {p q : ℕ} {old : Block} (hblocks : h.blocks = [(q, block), (p, old)])
    (hne : q ≠ p) :
    h.free p = some { h with blocks := [(q, block)], log := h.log ++ [.free p] } := by
  have hlookup : h.blocks.lookup p = some old := load_second hblocks hne
  simp only [CHeap.free, hlookup, Option.isSome_some, if_true, CHeap.record]
  simp [hblocks, hne]

end Heap

/-! ## The three outcomes of a call -/

section Outcomes

variable {resp : Response} {h : CHeap} {bytes chunk : Bytes}

theorem append_failed (chunk : Bytes) (resp : Response) (h : CHeap) :
    appendToResponseBody false chunk resp h = some (iterBreak, resp,
      { h with log := h.log ++ [.malloc ((resp.responseBodyLen + chunk.length) % uintptrSize) none]
        ++ [.fprintf "Failed to allocate memory for response body\n"] }) := rfl

/-- The first chunk is copied into a block of its size. -/
theorem append_first (hbody : resp.responseBody = none) (hlen : resp.responseBodyLen = 0)
    (hblocks : h.blocks = []) (hsize : chunk.length < uintptrSize) :
    appendToResponseBody true chunk resp h = some (iterContinue,
      { resp with responseBody := some h.next, responseBodyLen := chunk.length },
      { blocks := [(h.next, chunk.map some)]
        next := h.next + 1
        log := h.log ++ [.malloc chunk.length (some h.next)]
          ++ [.memcpy h.next 0 (.chunk chunk) chunk.length] }) := by
  simp only [appendToResponseBody, CHeap.malloc, if_true, CHeap.record, hbody, hlen, hblocks,
    Nat.zero_add, Nat.mod_eq_of_lt hsize, Option.bind_eq_bind, Option.bind_some]
  rw [memcpy_head rfl (by simp) rfl (by simp) (by simp)]
  simp

/-- A later chunk: the new block takes over the old bytes, and the old block is freed. -/
theorem append_next {p : ℕ} (hbody : resp.responseBody = some p)
    (hlen : resp.responseBodyLen = bytes.length) (hblocks : h.blocks = [(p, bytes.map some)])
    (hp : p < h.next) (hsize : bytes.length + chunk.length < uintptrSize) :
    appendToResponseBody true chunk resp h = some (iterContinue,
      { resp with
        responseBody := some h.next
        responseBodyLen := bytes.length + chunk.length },
      { blocks := [(h.next, (bytes ++ chunk).map some)]
        next := h.next + 1
        log := h.log ++ [.malloc (bytes.length + chunk.length) (some h.next)]
          ++ [.memcpy h.next 0 (.block p) bytes.length] ++ [.free p]
          ++ [.memcpy h.next bytes.length (.chunk chunk) chunk.length] }) := by
  have hne : h.next ≠ p := Nat.ne_of_gt hp
  simp only [appendToResponseBody, CHeap.malloc, if_true, CHeap.record, hbody, hlen, hblocks,
    Nat.mod_eq_of_lt hsize, Option.bind_eq_bind]
  rw [memcpy_head rfl (by simpa using hne.symm) (load_second rfl hne) (by simp) (by simp)]
  rw [Option.bind_some, free_second rfl hne, Option.bind_some]
  rw [memcpy_head rfl (by simp) rfl (by simp) (by simp)]
  simp [List.take_of_length_le, List.drop_of_length_le]

end Outcomes

/-! ## The books of the blocks -/

/-- The blocks that an event hands out, touches and hands back. -/
def HeapEvent.accounts : HeapEvent → List (Entry ℕ)
  | .malloc _ (some p) => [.acquire p]
  | .malloc _ none => []
  | .memcpy dst _ (.block p) _ => [.use p, .use dst]
  | .memcpy dst _ (.chunk _) _ => [.use dst]
  | .free p => [.release p]
  | .fprintf _ => []

def accounts (log : List HeapEvent) : List (Entry ℕ) :=
  log.flatMap HeapEvent.accounts

/-- The source has at least `len` bytes. -/
def Source.Holds (before : List HeapEvent) (len : ℕ) : Source → Prop
  | .block p => ∃ n, .malloc n (some p) ∈ before ∧ len ≤ n
  | .chunk bytes => len ≤ bytes.length

/-- What an event needs of those before it: a copy stays within the sizes of its source
and of its destination, and a block is freed right after a copy of all its bytes. -/
def HeapEvent.Respects (before : List HeapEvent) : HeapEvent → Prop
  | .memcpy dst off src len =>
      src.Holds before len ∧ ∃ n, .malloc n (some dst) ∈ before ∧ off + len ≤ n
  | .free p => ∃ n dst, .malloc n (some p) ∈ before ∧
      before.getLast? = some (.memcpy dst 0 (.block p) n)
  | .malloc _ _ => True
  | .fprintf _ => True

section Books

variable {log : List HeapEvent} {live : List ℕ} {next : ℕ}

theorem accounts_append (log log' : List HeapEvent) :
    accounts (log ++ log') = accounts log ++ accounts log' :=
  List.flatMap_append

theorem accounts_singleton (e : HeapEvent) : accounts [e] = e.accounts :=
  List.flatMap_singleton _ _

theorem accounts_release (log : List HeapEvent) (p : ℕ) :
    (accounts log).count (.release p) = log.count (.free p) := by
  induction log with
  | nil => rfl
  | cons e log ih =>
      rw [← List.singleton_append, accounts_append, accounts_singleton, List.count_append,
        List.count_append, ih]
      congr 1
      cases e with
      | malloc n result => cases result <;> simp [HeapEvent.accounts]
      | memcpy dst off src len => cases src <;> simp [HeapEvent.accounts]
      | free q => by_cases hq : q = p <;> simp [HeapEvent.accounts, hq]
      | fprintf text => simp [HeapEvent.accounts]

theorem acquire_mem_accounts {n p : ℕ} (h : .malloc n (some p) ∈ log) :
    .acquire p ∈ accounts log :=
  List.mem_flatMap.2 ⟨_, h, List.mem_singleton_self _⟩

/-- The log so far: every event respects those before it, the blocks in `live` are
outstanding, and the pointers below `next` were each handed out once. -/
structure Booked (log : List HeapEvent) (live : List ℕ) (next : ℕ) : Prop where
  rules : EachAfter HeapEvent.Respects log
  balance : Leaves (accounts log) live
  once : ∀ p, (accounts log).count (.acquire p) = if p < next then 1 else 0

theorem booked_nil : Booked [] [] 0 where
  rules := eachAfter_nil
  balance := leaves_nil
  once p := by simp [accounts]

/-- One event, by what it does to the blocks. -/
theorem Booked.record (h : Booked log live next) {e : HeapEvent} {live' : List ℕ} {next' : ℕ}
    (he : e.Respects log) (hbalance : Leaves (accounts log ++ e.accounts) live')
    (honce : ∀ p, (if p < next then 1 else 0) + e.accounts.count (.acquire p)
      = if p < next' then 1 else 0) : Booked (log ++ [e]) live' next' where
  rules := h.rules.concat he
  balance := by rwa [accounts_append, accounts_singleton]
  once p := by rw [accounts_append, accounts_singleton, List.count_append, h.once, honce]

theorem Booked.malloc (h : Booked log live next) (n : ℕ) :
    Booked (log ++ [.malloc n (some next)]) (next :: live) (next + 1) := by
  refine h.record trivial (h.balance.acquire next) ?_
  intro p
  simp only [HeapEvent.accounts, List.count_singleton, beq_iff_eq, Entry.acquire.injEq]
  split <;> split <;> split <;> omega

theorem Booked.quiet (h : Booked log live next) {e : HeapEvent} (he : e.Respects log)
    (haccounts : e.accounts = []) : Booked (log ++ [e]) live next := by
  refine h.record he ?_ ?_
  · rw [haccounts, List.append_nil]
    exact h.balance
  · intro p
    rw [haccounts, List.count_nil, Nat.add_zero]

theorem Booked.copyChunk (h : Booked log live next) {dst n off : ℕ} {chunk : Bytes}
    (hdst : dst ∈ live) (hnew : .malloc n (some dst) ∈ log) (hbound : off + chunk.length ≤ n) :
    Booked (log ++ [.memcpy dst off (.chunk chunk) chunk.length]) live next :=
  h.record ⟨Nat.le_refl _, n, hnew, hbound⟩ (h.balance.use hdst) fun p => by
    simp [HeapEvent.accounts]

theorem Booked.copyBlock (h : Booked log live next) {dst p n len : ℕ} (hdst : dst ∈ live)
    (hp : p ∈ live) (hnew : .malloc n (some dst) ∈ log) (hold : .malloc len (some p) ∈ log)
    (hbound : len ≤ n) : Booked (log ++ [.memcpy dst 0 (.block p) len]) live next := by
  refine h.record ⟨⟨len, hold, Nat.le_refl len⟩, n, hnew, ?_⟩ ?_ ?_
  · rwa [Nat.zero_add]
  · have hboth := (h.balance.use hp).use hdst
    rwa [List.append_assoc] at hboth
  · intro q
    simp [HeapEvent.accounts]

/-- A block is freed once its bytes have been copied. -/
theorem Booked.free {dst p len : ℕ} {live' : List ℕ}
    (h : Booked (log ++ [.memcpy dst 0 (.block p) len]) live next)
    (hold : .malloc len (some p) ∈ log) (hlive : live.Perm (p :: live')) :
    Booked (log ++ [.memcpy dst 0 (.block p) len] ++ [.free p]) live' next := by
  refine h.record ⟨len, dst, List.mem_append_left _ hold, List.getLast?_concat⟩ ?_ ?_
  · exact (h.balance.perm hlive).release
  · intro q
    simp [HeapEvent.accounts]

/-- The events of a first chunk. -/
theorem Booked.firstChunk (h : Booked log [] next) (chunk : Bytes) :
    Booked (log ++ [.malloc chunk.length (some next)]
      ++ [.memcpy next 0 (.chunk chunk) chunk.length]) [next] (next + 1) :=
  (h.malloc chunk.length).copyChunk List.mem_cons_self List.mem_concat_self
    (Nat.zero_add _).le

/-- The events of a later chunk. -/
theorem Booked.laterChunk {p len : ℕ} (h : Booked log [p] next) (hold : .malloc len (some p) ∈ log)
    (chunk : Bytes) :
    Booked (log ++ [.malloc (len + chunk.length) (some next)]
      ++ [.memcpy next 0 (.block p) len] ++ [.free p]
      ++ [.memcpy next len (.chunk chunk) chunk.length]) [next] (next + 1) := by
  have hnew : .malloc (len + chunk.length) (some next)
      ∈ log ++ [.malloc (len + chunk.length) (some next)] := List.mem_concat_self
  have hmalloc := h.malloc (len + chunk.length)
  have hcopy := hmalloc.copyBlock List.mem_cons_self (List.mem_cons_of_mem _ List.mem_cons_self)
    hnew (List.mem_append_left _ hold) (Nat.le_add_right len chunk.length)
  have hfree := hcopy.free (List.mem_append_left _ hold) (List.Perm.swap p next [])
  exact hfree.copyChunk List.mem_cons_self
    (List.mem_append_left _ (List.mem_append_left _ hnew)) (Nat.le_refl _)

theorem Booked.lt_next (h : Booked log live next) {p : ℕ} (hp : p ∈ live) : p < next := by
  have hcount := h.balance.count p
  have hlive : 0 < live.count p := List.count_pos_iff.2 hp
  rw [h.once p] at hcount
  by_contra hnot
  rw [if_neg hnot] at hcount
  omega

/-- A block that was handed out is live or was freed, once. -/
theorem Booked.count_free (h : Booked log live next) {n p : ℕ}
    (hp : .malloc n (some p) ∈ log) : live.count p + log.count (.free p) = 1 := by
  have hcount := h.balance.count p
  have hpos : 0 < (accounts log).count (.acquire p) :=
    List.count_pos_iff.2 (acquire_mem_accounts hp)
  rw [h.once p] at hcount hpos
  have hlt : p < next := by
    by_contra hnot
    rw [if_neg hnot] at hpos
    exact absurd hpos (Nat.lt_irrefl 0)
  rw [← accounts_release, hcount, if_pos hlt]

end Books

/-! ## The buffer -/

/-- `bytes` is the body: the one live block holds it and has its size, and there is no
block as long as there is no body. -/
structure Buffered (bytes : Bytes) (resp : Response) (h : CHeap) : Prop where
  len : resp.responseBodyLen = bytes.length
  blocks : h.blocks = resp.responseBody.toList.map fun p => (p, bytes.map some)
  size : ∀ p, resp.responseBody = some p → .malloc bytes.length (some p) ∈ h.log
  empty : resp.responseBody = none → bytes = []
  booked : Booked h.log resp.responseBody.toList h.next

theorem buffered_start : Buffered [] Response.zero CHeap.empty where
  len := rfl
  blocks := rfl
  size p hp := by cases hp
  empty _ := rfl
  booked := booked_nil

section Buffer

variable {resp : Response} {h : CHeap} {bytes : Bytes}

/-- A call whose allocation fails only adds to the log. -/
theorem Buffered.failed (hbuf : Buffered bytes resp h) (chunk : Bytes) :
    ∃ h', appendToResponseBody false chunk resp h = some (iterBreak, resp, h') ∧
      h'.blocks = h.blocks ∧ Buffered bytes resp h' := by
  refine ⟨_, append_failed chunk resp h, rfl, ?_⟩
  refine ⟨hbuf.len, hbuf.blocks, ?_, hbuf.empty, ?_⟩
  · intro p hp
    exact List.mem_append_left _ (List.mem_append_left _ (hbuf.size p hp))
  · have hmalloc := hbuf.booked.quiet
      (e := .malloc ((resp.responseBodyLen + chunk.length) % uintptrSize) none) trivial rfl
    exact hmalloc.quiet trivial rfl

/-- A call whose allocation succeeds adds its chunk to the body. -/
theorem Buffered.continued (hbuf : Buffered bytes resp h) {chunk : Bytes}
    (hsize : bytes.length + chunk.length < uintptrSize) :
    ∃ resp' h', appendToResponseBody true chunk resp h = some (iterContinue, resp', h') ∧
      resp'.responseBody = some h.next ∧ Buffered (bytes ++ chunk) resp' h' := by
  have hblocks := hbuf.blocks
  have hbooked := hbuf.booked
  cases hbody : resp.responseBody with
  | none =>
      obtain rfl := hbuf.empty hbody
      rw [hbody] at hblocks hbooked
      rw [List.length_nil, Nat.zero_add] at hsize
      refine ⟨_, _, append_first hbody hbuf.len hblocks hsize, rfl, ?_⟩
      refine ⟨rfl, rfl, ?_, ?_, hbooked.firstChunk chunk⟩
      · intro p hp
        cases hp
        exact List.mem_append_left _ List.mem_concat_self
      · intro hnone
        cases hnone
  | some p =>
      have hold := hbuf.size p hbody
      rw [hbody] at hblocks hbooked
      have hp : p < h.next := hbooked.lt_next List.mem_cons_self
      refine ⟨_, _, append_next hbody hbuf.len hblocks hp hsize, rfl, ?_⟩
      refine ⟨List.length_append.symm, rfl, ?_, ?_, hbooked.laterChunk hold chunk⟩
      · intro q hq
        cases hq
        rw [List.length_append]
        simp only [List.mem_append, List.mem_singleton, true_or, or_true]
      · intro hnone
        cases hnone

end Buffer

/-! ## A sequence of chunks -/

def totalLength : List Bytes → ℕ
  | [] => 0
  | chunk :: chunks => chunk.length + totalLength chunks

theorem length_flatten_eq (parts : List Bytes) : parts.flatten.length = totalLength parts := by
  induction parts with
  | nil => rfl
  | cons chunk parts ih => rw [List.flatten_cons, List.length_append, ih, totalLength]

/-- One call: its chunk, and whether its allocation succeeds. -/
structure Delivery where
  mallocOk : Bool
  chunk : Bytes
  deriving DecidableEq, Repr

/-- The response, the heap, and the calls made, each with what it returned. -/
structure Collection where
  response : Response
  heap : CHeap
  calls : List (Bytes × ℕ)
  deriving DecidableEq, Repr

namespace Collection

def start : Collection :=
  { response := Response.zero, heap := CHeap.empty, calls := [] }

def deliver (s : Collection) (d : Delivery) : Option Collection :=
  (appendToResponseBody d.mallocOk d.chunk s.response s.heap).map fun r =>
    { response := r.2.1, heap := r.2.2, calls := s.calls ++ [(d.chunk, r.1)] }

/-- The chunks whose call returned `IterContinue`. -/
def continued (s : Collection) : List Bytes :=
  (s.calls.filter fun call => call.2 = iterContinue).map Prod.fst

/-- The call returns, with `IterBreak` exactly when its allocation failed, and then leaves
the body and the block that holds it as they were. -/
def FailsAtomically (s : Collection) (d : Delivery) : Prop :=
  ∃ code resp h, appendToResponseBody d.mallocOk d.chunk s.response s.heap = some (code, resp, h) ∧
    (code = iterBreak ↔ d.mallocOk = false) ∧ (code = iterContinue ↔ d.mallocOk = true) ∧
    (code = iterBreak → resp = s.response ∧ h.blocks = s.heap.blocks)

/-- The body is the chunks taken so far, in the one live block, whose size is exact. All
other blocks were handed out once and freed once, and the log respects the sizes. -/
structure Exact (s : Collection) : Prop where
  len : s.response.responseBodyLen = totalLength s.continued
  blocks : s.heap.blocks =
    s.response.responseBody.toList.map fun p => (p, s.continued.flatten.map some)
  noBody : s.response.responseBody = none ↔ s.continued = []
  size : ∀ p, s.response.responseBody = some p →
    .malloc s.response.responseBodyLen (some p) ∈ s.heap.log
  once : ∀ p, (accounts s.heap.log).count (.acquire p) ≤ 1
  freed : ∀ n p, .malloc n (some p) ∈ s.heap.log →
    s.heap.log.count (.free p) = if s.response.responseBody = some p then 0 else 1
  rules : EachAfter HeapEvent.Respects s.heap.log

/-- What the calls keep. -/
structure Kept (s : Collection) : Prop where
  buffered : Buffered s.continued.flatten s.response s.heap
  noBody : s.response.responseBody = none ↔ s.continued = []

theorem kept_start : start.Kept where
  buffered := buffered_start
  noBody := ⟨fun _ => rfl, fun _ => rfl⟩

variable {s t : Collection} {d : Delivery}

theorem Kept.exact (h : s.Kept) : s.Exact where
  len := by rw [h.buffered.len, length_flatten_eq]
  blocks := h.buffered.blocks
  noBody := h.noBody
  size p hp := by
    rw [h.buffered.len]
    exact h.buffered.size p hp
  once p := by
    rw [h.buffered.booked.once p]
    split <;> omega
  freed n p hp := by
    have hcount := h.buffered.booked.count_free hp
    cases hbody : s.response.responseBody with
    | none => simpa [hbody] using hcount
    | some q =>
        by_cases hq : q = p
        · simpa [hbody, hq] using hcount
        · simpa [hbody, hq] using hcount
  rules := h.buffered.booked.rules

theorem deliver_eq {code : ℕ} {resp : Response} {h : CHeap}
    (happend : appendToResponseBody d.mallocOk d.chunk s.response s.heap = some (code, resp, h)) :
    s.deliver d = some ⟨resp, h, s.calls ++ [(d.chunk, code)]⟩ := by
  rw [deliver, happend, Option.map_some]

theorem continued_concat (calls : List (Bytes × ℕ)) (call : Bytes × ℕ) (resp : Response)
    (h : CHeap) :
    continued ⟨resp, h, calls ++ [call]⟩ =
      continued ⟨resp, h, calls⟩ ++ if call.2 = iterContinue then [call.1] else [] := by
  by_cases hcall : call.2 = iterContinue <;> simp [continued, List.filter_append, hcall]

/-- One call: what it keeps, and by how much the body grows at most. -/
theorem Kept.step (h : s.Kept)
    (hsize : s.response.responseBodyLen + d.chunk.length < uintptrSize) :
    s.FailsAtomically d ∧ ∃ t, s.deliver d = some t ∧ t.Kept ∧
      t.response.responseBodyLen ≤ s.response.responseBodyLen + d.chunk.length := by
  obtain ⟨mallocOk, chunk⟩ := d
  have hcodes : iterBreak ≠ iterContinue := by decide
  cases mallocOk with
  | false =>
      obtain ⟨heap, happend, hblocks, hbuf⟩ := h.buffered.failed chunk
      refine ⟨⟨_, _, _, happend, iff_of_true rfl rfl, iff_of_false hcodes Bool.false_ne_true,
        fun _ => ⟨rfl, hblocks⟩⟩, ?_⟩
      have hsame : continued ⟨s.response, heap, s.calls ++ [(chunk, iterBreak)]⟩ = s.continued := by
        rw [continued_concat, if_neg hcodes, List.append_nil]
        rfl
      refine ⟨_, deliver_eq happend, ⟨?_, ?_⟩, Nat.le_add_right _ _⟩
      · rw [hsame]
        exact hbuf
      · rw [hsame]
        exact h.noBody
  | true =>
      rw [h.buffered.len] at hsize
      obtain ⟨resp, heap, happend, hbody, hbuf⟩ := h.buffered.continued hsize
      refine ⟨⟨_, _, _, happend, iff_of_false hcodes.symm (by simp),
        iff_of_true rfl rfl, fun hbreak => absurd hbreak hcodes.symm⟩, ?_⟩
      have hmore : continued ⟨resp, heap, s.calls ++ [(chunk, iterContinue)]⟩
          = s.continued ++ [chunk] := by
        rw [continued_concat, if_pos rfl]
        rfl
      refine ⟨_, deliver_eq happend, ⟨?_, ?_⟩, ?_⟩
      · rw [hmore, List.flatten_append, List.flatten_singleton]
        exact hbuf
      · rw [hmore, hbody]
        simp
      · rw [hbuf.len, h.buffered.len, List.length_append]

theorem Kept.run {ds : List Delivery} (h : s.Kept)
    (htotal : s.response.responseBodyLen + totalLength (ds.map Delivery.chunk) < uintptrSize) :
    AtEach deliver FailsAtomically s ds ∧ ∃ t, Machine.run deliver s ds = some t ∧ t.Kept := by
  induction ds generalizing s with
  | nil => exact ⟨trivial, s, rfl, h⟩
  | cons d ds ih =>
      rw [List.map_cons, totalLength, ← Nat.add_assoc] at htotal
      obtain ⟨hatomic, t, hstep, hkept, hgrow⟩ :=
        h.step (d := d) ((Nat.le_add_right _ _).trans_lt htotal)
      obtain ⟨hrest, u, hrun, hu⟩ := ih hkept ((Nat.add_le_add_right hgrow _).trans_lt htotal)
      refine ⟨⟨hatomic, ?_⟩, u, run_cons_eq_some.2 ⟨t, hstep, hrun⟩, hu⟩
      intro t' ht'
      rw [hstep] at ht'
      cases ht'
      exact hrest

end Collection

/-- Whichever of its allocations fail, a sequence of chunks whose lengths do not overflow
is collected exactly, each of its calls fails atomically, and none touches memory that is
not its own. -/
theorem body_collected (ds : List Delivery)
    (htotal : totalLength (ds.map Delivery.chunk) < uintptrSize) :
    ∃ s, run Collection.deliver Collection.start ds = some s ∧ s.Exact ∧
      AtEach Collection.deliver Collection.FailsAtomically Collection.start ds := by
  have hzero : Collection.start.response.responseBodyLen = 0 := rfl
  rw [← Nat.zero_add (totalLength _), ← hzero] at htotal
  obtain ⟨hatomic, s, hrun, hkept⟩ := Collection.kept_start.run htotal
  exact ⟨s, hrun, hkept.exact, hatomic⟩

/-- Two of five allocations fail, and one chunk is empty. -/
def retriedDeliveries : List Delivery :=
  [⟨false, [1]⟩, ⟨true, [2, 3]⟩, ⟨true, []⟩, ⟨false, [4]⟩, ⟨true, [5]⟩]

theorem body_collected_retried :
    ∃ s, run Collection.deliver Collection.start retriedDeliveries = some s ∧ s.Exact ∧
      AtEach Collection.deliver Collection.FailsAtomically Collection.start retriedDeliveries :=
  body_collected retriedDeliveries (by decide)

end LlgoExamples.Hyper
