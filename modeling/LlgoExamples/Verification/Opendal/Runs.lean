import LlgoExamples.Library.Machine
import LlgoExamples.Verification.Opendal.Outcomes
import LlgoExamples.Verification.Opendal.Refinement

/-! # Whole runs of a client

A client that touches only what it holds runs as a session does, whatever the order of its
calls. What it was handed out stays as it was until it is freed. -/

namespace LlgoExamples.Opendal

open Machine

variable {C : Core} (supply : Supply) {w w' : World C} {s t : Session C} {p : Ptr} {a : ℕ}
  {obj : Object C} {log : List (Answered C)}

/-- The session says nothing of the call. -/
def meansNothing (o : Except Fault (Outcome C)) : Bool :=
  match o with
  | .error .undefined => true
  | _ => false

/-- The world after a call that returns. -/
def callStep (w : World C) (c : Call) : Option (World C) :=
  match performCall supply c w with
  | .ok (_, w') => some w'
  | .error _ => none

/-- A client that only uses what it holds, and each object as what it is. -/
def Disciplined (w : World C) (calls : List Call) : Prop :=
  AtEach (callStep supply) (fun w c => meansNothing (w.session.call c) = false) w calls

instance (w : World C) (calls : List Call) : Decidable (Disciplined supply w calls) :=
  inferInstanceAs (Decidable (AtEach _ _ _ _))

/-! ## A service in memory -/

abbrev Files := AList fun _ : String => List UInt8

/-- A service that keeps files in memory. -/
def memoryCore : Core where
  State := Files
  Scheme := Unit
  Error := ErrorKind
  IoError := Unit
  AsyncOperator := Unit
  BlockingLayer := Unit
  Operator := Unit
  Metadata := ℕ
  Lister := List String
  Entry := String
  Reader := List UInt8
  StdReader := List UInt8
  OperatorInfo := Unit
  kind e := e
  toString e := if e = .notFound then [110, 111, 116, 102, 111, 117, 110, 100] else []
  newError k _ := k
  setSource e _ := e
  kind_newError _ _ := rfl
  kind_setSource _ _ := rfl
  schemeFromStr str := if str = "memory" then .ok () else .error .configInvalid
  viaMap _ _ s := (.ok (), s)
  fullCapabilityBlocking _ := true
  createBlockingLayer _ := .ok ()
  layer _ _ := ()
  blocking _ := ()
  write _ path bytes s := (.ok (), s.insert path bytes)
  read _ path s := ((s.lookup path).elim (.error .notFound) .ok, s)
  reader _ path s := ((s.lookup path).elim (.error .notFound) .ok, s)
  intoStdRead r s := (.ok r, s)
  delete _ path s := (.ok (), s.erase path)
  isExist _ path s := (.ok (s.lookup path).isSome, s)
  stat _ path s := ((s.lookup path).elim (.error .notFound) fun bytes => .ok bytes.length, s)
  lister _ _ s := (.ok s.keys, s)
  createDir _ _ s := (.ok (), s)
  rename _ src dest s :=
    match s.lookup src with
    | some bytes => (.ok (), (s.erase src).insert dest bytes)
    | none => (.error .notFound, s)
  copy _ src dest s :=
    match s.lookup src with
    | some bytes => (.ok (), s.insert dest bytes)
    | none => (.error .notFound, s)
  info _ := ()
  next l s := ((l.head?.map .ok, l.tail), s)
  readStd r n s := ((.ok (r.take n), r.drop n), s)
  length_readStd r n s bytes h := by
    cases h
    exact List.length_take_le n r
  contentLength n := n.toUInt64
  isFile _ := true
  isDir _ := false
  lastModified _ := none
  entryPath e := e
  entryName e := e
  infoScheme _ := "memory"
  infoRoot _ := "/"
  infoName _ := ""

/-- A client with an operator and two bytes of its own. -/
def opened : World memoryCore :=
  (runCalls Supply.lowest [.operatorNew (CStr.new "memory") .null, .malloc [1, 2]]
    (World.start (∅ : Files))).world

/-! ## Runs as sessions -/

/-- What a disciplined run is, seen as a session. -/
structure Explained (w : World C) (calls : List Call) (h : History C) (log : List (Answered C)) :
    Prop where
  proceeds : Proceeds w.session log h.world.session
  tidy : h.world.Tidy
  replies : log.map Answered.reply = h.replies
  returned : h.fault = none → log.map Answered.call = calls
  stopped : ∀ f, h.fault = some f → f ≠ .undefined ∧ ∃ c rest,
    calls = log.map Answered.call ++ c :: rest ∧ h.world.session.call c = .error f

/-- Runs of disciplined clients never reach undefined behaviour, and are sessions. -/
theorem runCalls_explained {calls : List Call} (ht : w.Tidy)
    (hd : Disciplined supply w calls) :
    ∃ log, Explained w calls (runCalls supply calls w) log := by
  induction calls generalizing w with
  | nil =>
      refine ⟨[], .nil _, ht, rfl, fun _ => rfl, ?_⟩
      intro f hf
      cases hf
  | cons c calls ih =>
      have href := performCall_refines supply ht c
      obtain ⟨hc, hrest⟩ := hd
      cases ho : w.session.call c with
      | error f =>
          rw [ho] at href hc
          have hf : f ≠ .undefined := by
            rintro rfl
            cases hc
          have hperf : performCall supply c w = .error f := href.resolve_left hf
          simp only [runCalls, hperf]
          refine ⟨[], .nil _, ht, rfl, ?_, ?_⟩
          · intro hnone
            cases hnone
          · rintro f' ⟨⟩
            exact ⟨hf, c, calls, rfl, ho⟩
      | ok o =>
          rw [ho] at href
          obtain ⟨p, w1, hperf, ht1, hhands⟩ := href
          have hstep : callStep supply w c = some w1 := by
            simp [callStep, hperf]
          obtain ⟨log, hlog⟩ := ih ht1 (hrest w1 hstep)
          refine ⟨⟨c, w.core, o.made, p, o.reply p⟩ :: log, ?_⟩
          simp only [runCalls, hperf]
          refine ⟨.cons ho hhands hlog.proceeds, hlog.tidy, ?_, ?_, ?_⟩
          · simp [hlog.replies]
          · intro hnone
            simp [hlog.returned hnone]
          · intro f hf
            obtain ⟨hne, c', rest, hcalls, hcall⟩ := hlog.stopped f hf
            exact ⟨hne, c', rest, by simp [hcalls], hcall⟩

/-- Whatever the order of its calls, a disciplined client of a new library is explained by
a session: it meets no undefined behaviour, and memory stays behind only where it still
holds an object. -/
theorem binding_refines_session (core : C.State) (calls : List Call)
    (hd : Disciplined supply (World.start core) calls) :
    (∃ log, Explained (World.start core) calls (runCalls supply calls (World.start core)) log) ∧
      ((runCalls supply calls (World.start core)).world.heap.keys = [] ↔
        ∀ a, (runCalls supply calls (World.start core)).world.session.held a = none) := by
  obtain ⟨log, hlog⟩ := runCalls_explained supply (tidy_start core) hd
  exact ⟨⟨log, hlog⟩, hlog.tidy.keys_eq_nil_iff⟩

/-- Writing from the client's memory, freeing it, reading back, and freeing everything. -/
def roundTrip : List Call :=
  [.operatorNew (CStr.new "memory") .null, .malloc [1, 2],
    .write (.block 1) (CStr.new "/a") (.own ⟨.block 2, 2⟩), .free .c (.block 2),
    .onPath .read (.block 1) (CStr.new "/a"), .loadBytes (.block 3),
    .free .bytes (.block 3), .free .operator (.block 1)]

theorem binding_refines_session_roundTrip :
    (∃ log, Explained (World.start (∅ : Files)) roundTrip
      (runCalls Supply.lowest roundTrip (World.start (C := memoryCore) (∅ : Files))) log) ∧
      ((runCalls Supply.lowest roundTrip
          (World.start (C := memoryCore) (∅ : Files))).world.heap.keys = [] ↔
        ∀ a, (runCalls Supply.lowest roundTrip
          (World.start (C := memoryCore) (∅ : Files))).world.session.held a = none) :=
  binding_refines_session (C := memoryCore) Supply.lowest (∅ : Files) roundTrip (by decide)

theorem tidy_opened : opened.Tidy := by
  obtain ⟨log, hlog⟩ := runCalls_explained Supply.lowest (tidy_start (C := memoryCore) (∅ : Files))
    (show Disciplined Supply.lowest _ [.operatorNew (CStr.new "memory") .null, .malloc [1, 2]]
      by decide)
  exact hlog.tidy

/-! ## What stays -/

/-- A call that returns, seen as a session. -/
theorem performCall_explained {c : Call} {r : Reply} (ht : w.Tidy)
    (hc : meansNothing (w.session.call c) = false) (h : performCall supply c w = .ok (r, w')) :
    ∃ o p, w.session.call c = .ok o ∧ r = o.reply p ∧ w'.Tidy ∧
      Hands o.session o.made p w'.session := by
  have href := performCall_refines supply ht c
  cases ho : w.session.call c with
  | error f =>
      rw [ho] at href hc
      rcases href with rfl | href
      · cases hc
      · rw [h] at href
        cases href
  | ok o =>
      rw [ho] at href
      obtain ⟨p, w1, hperf, ht1, hhands⟩ := href
      rw [h] at hperf
      cases hperf
      exact ⟨o, p, rfl, rfl, ht1, hhands⟩

theorem callStep_eq_some {c : Call} :
    callStep supply w c = some w' ↔ ∃ r, performCall supply c w = .ok (r, w') := by
  unfold callStep
  split
  · rename_i r w1 h
    rw [h]
    constructor
    · rintro ⟨⟩
      exact ⟨r, rfl⟩
    · rintro ⟨r', ⟨⟩⟩
      rfl
  · rename_i f h
    rw [h]
    constructor
    · intro h
      cases h
    · rintro ⟨r, ⟨⟩⟩

/-- Calls leave every object alone that they are not called on. -/
theorem disciplined_keeps {calls : List Call} (ht : w.Tidy) (hd : Disciplined supply w calls)
    (hrun : run (callStep supply) w calls = some w') (hobj : w.session.at? p = some obj)
    (hkeep : ∀ c ∈ calls, p ∉ c.changes) : w'.Tidy ∧ w'.session.at? p = some obj := by
  induction calls generalizing w with
  | nil =>
      cases hrun
      exact ⟨ht, hobj⟩
  | cons c calls ih =>
      obtain ⟨w1, hstep, hrun⟩ := run_cons_eq_some.mp hrun
      obtain ⟨r, hperf⟩ := (callStep_eq_some supply).mp hstep
      obtain ⟨o, q, hcall, -, ht1, hhands⟩ := performCall_explained supply ht hd.1 hperf
      refine ih ht1 (hd.2 w1 hstep) hrun ?_ fun c' hc' => hkeep c' (List.mem_cons_of_mem c hc')
      obtain ⟨a, rfl, hheld⟩ := at?_eq_some hobj
      refine hhands.keeps ?_
      rw [call_held hcall (hkeep c List.mem_cons_self), hheld]

/-- What a call handed out is there after calls that do not change it. -/
theorem handed_out_keeps {first : Call} {mid : List Call} {r : Reply} {w1 w2 : World C}
    (ht : w.Tidy) (hd : Disciplined supply w (first :: mid))
    (hfirst : performCall supply first w = .ok (r, w1))
    (hmid : run (callStep supply) w1 mid = some w2) :
    ∃ o p, w.session.call first = .ok o ∧ r = o.reply p ∧
      ∀ obj, o.made = some obj → (∀ c ∈ mid, p ∉ c.changes) →
        w2.Tidy ∧ w2.session.at? p = some obj := by
  obtain ⟨o, p, hcall, hr, ht1, hhands⟩ := performCall_explained supply ht hd.1 hfirst
  refine ⟨o, p, hcall, hr, ?_⟩
  intro obj hmade hkeep
  rw [hmade] at hhands
  have hstep := (callStep_eq_some supply).mpr ⟨r, hfirst⟩
  exact disciplined_keeps supply ht1 (hd.2 w1 hstep) hmid hhands.held_made hkeep

/-- Reading an object of a session. -/
theorem load_of_at? (hobj : w.session.at? p = some obj) :
    (∀ bs, obj = .bytes bs → performCall supply (.loadBytes p) w = .ok (.bytes bs, w)) ∧
      (∀ code bs, obj = .error code bs →
        performCall supply (.loadError p) w = .ok (.error code bs, w)) ∧
      ∀ str, obj = .cString str →
        performCall supply (.loadString p) w = .ok (.bytes str.bytes, w) := by
  obtain ⟨a, r, rfl, hr, hbuilt⟩ := built_of_at? hobj
  refine ⟨?_, ?_, ?_⟩
  · rintro bs rfl
    cases hbuilt with
    | bytes b bs hb =>
        simp only [performCall, loadBytes, rootAt_of_root hr, ok_bind, slice_of_holds hb]
        rfl
  · rintro code bs rfl
    cases hbuilt with
    | error code b bs hb =>
        simp only [performCall, loadError, rootAt_of_root hr, ok_bind, slice_of_holds hb]
        rfl
  · rintro str rfl
    cases hbuilt with
    | cString str =>
        simp only [performCall, loadString, rootAt_of_root hr, ok_bind]
        rfl

/-! ## Errors -/

/-- The error pointer of a reply. -/
def Reply.errorPtr : Reply → Ptr
  | .result r => r.error
  | .flag r => r.error
  | .size r => r.error
  | .ptr p => p
  | _ => .null

def errorOf {τ : Type} : Except C.Error τ → Option C.Error
  | .ok _ => none
  | .error e => some e

/-- How the core fails in a function of an operator and a path. -/
def PathOp.failure (f : PathOp) (op : C.Operator) (path : String) (s : C.State) :
    Option C.Error :=
  match f with
  | .read => errorOf (C.read op path s).1
  | .reader => errorOf (C.openReader op path s).1
  | .delete => errorOf (C.delete op path s).1
  | .isExist => errorOf (C.isExist op path s).1
  | .stat => errorOf (C.stat op path s).1
  | .list => errorOf (C.lister op path s).1
  | .createDir => errorOf (C.createDir op path s).1

/-- The error pointer is null where the core did not fail, and points to the error else. -/
theorem Answers.errorPtr {τ : Type} {made : τ → Option (Object C)} {good : τ → Ptr → Reply}
    {bad : Ptr → Reply} {r : Except C.Error τ} {o : Outcome C} (h : Answers s made good bad r o)
    (hgood : ∀ v q, (good v q).errorPtr = .null) (hbad : ∀ q, (bad q).errorPtr = q)
    (hp : (o.reply p).errorPtr ≠ .null) :
    (o.reply p).errorPtr = p ∧ ∃ e code, errorOf r = some e ∧ Code.ofKind (C.kind e) = .ok code ∧
      o.made = some (.error code (C.toString e)) := by
  cases h with
  | value v => exact absurd (hgood v p) hp
  | error e code hcode => exact ⟨hbad p, e, code, rfl, hcode, rfl⟩

theorem pathOp_errorPtr {f : PathOp} {op : Ptr} {path : Option CStr} {o : Outcome C}
    (h : s.pathOp f op path = .ok o) (hp : (o.reply p).errorPtr ≠ .null) :
    ∃ cstr str v e code, path = some cstr ∧ cstr.toStr = some str ∧
      s.value .operator op = .ok v ∧ f.failure v str s.core = some e ∧
      Code.ofKind (C.kind e) = .ok code ∧ (o.reply p).errorPtr = p ∧
      o.made = some (.error code (C.toString e)) := by
  cases f <;> simp only [Session.pathOp] at h <;>
    (obtain ⟨cstr, str, v, hpath, hstr, hv, h⟩ := onPath_eq_ok h
     obtain ⟨hptr, e, code, he, hcode, hmade⟩ := h.errorPtr (fun _ _ => rfl) (fun _ => rfl) hp
     exact ⟨cstr, str, v, e, code, hpath, hstr, hv, he, hcode, hptr, hmade⟩)

/-- The error that a function of an operator and a path hands out says what the core said,
and still says so after any calls that do not free it. -/
theorem error_reported {f : PathOp} {op : Ptr} {path : Option CStr} {mid : List Call}
    {r : Reply} {w1 w2 : World C} (ht : w.Tidy)
    (hd : Disciplined supply w (.onPath f op path :: mid))
    (hcall : performCall supply (.onPath f op path) w = .ok (r, w1)) (hp : r.errorPtr ≠ .null)
    (hmid : run (callStep supply) w1 mid = some w2) (hkeep : ∀ c ∈ mid, r.errorPtr ∉ c.changes) :
    ∃ cstr str v e code, path = some cstr ∧ cstr.toStr = some str ∧
      w.session.value .operator op = .ok v ∧ f.failure v str w.core = some e ∧
      Code.ofKind (C.kind e) = .ok code ∧
      performCall supply (.loadError r.errorPtr) w2 = .ok (.error code (C.toString e), w2) := by
  obtain ⟨o, q, ho, rfl, hkept⟩ := handed_out_keeps supply ht hd hcall hmid
  obtain ⟨cstr, str, v, e, code, hpath, hstr, hv, he, hcode, hptr, hmade⟩ :=
    pathOp_errorPtr ho hp
  rw [hptr] at hkeep ⊢
  obtain ⟨-, hobj⟩ := hkept _ hmade hkeep
  exact ⟨cstr, str, v, e, code, hpath, hstr, hv, he, hcode,
    (load_of_at? supply hobj).2.1 code _ rfl⟩

theorem error_reported_missing : ∃ w1 w2 : World memoryCore,
    performCall Supply.lowest (.onPath .read (.block 1) (CStr.new "/a")) opened =
        .ok (.result ⟨.null, .block 4⟩, w1) ∧
      run (callStep Supply.lowest) w1 [.malloc [7], .free .operator (.block 1)] = some w2 ∧
      ∃ cstr str v e code, CStr.new "/a" = some cstr ∧ cstr.toStr = some str ∧
        opened.session.value .operator (.block 1) = .ok v ∧
        PathOp.read.failure v str opened.core = some e ∧
        Code.ofKind (memoryCore.kind e) = .ok code ∧
        performCall Supply.lowest (.loadError (.block 4)) w2 =
          .ok (.error code (memoryCore.toString e), w2) := by
  have hd : Disciplined Supply.lowest opened
      [.onPath .read (.block 1) (CStr.new "/a"), .malloc [7], .free .operator (.block 1)] := by
    decide
  refine ⟨_, _, rfl, rfl, ?_⟩
  refine error_reported Supply.lowest tidy_opened hd rfl ?_ rfl ?_
  · decide
  · decide

/-! ## Reading back what was written -/

section

variable {op : Ptr} {cstr : CStr} {str : String} {bs : List UInt8} {v : C.Operator}
  {w1 w2 : World C}

/-- A write that hands out no error went through, and the operator is still there. -/
theorem write_done {arg : BytesArg} (ht : w.Tidy) (hstr : cstr.toStr = some str)
    (hv : w.session.value .operator op = .ok v) (hbs : w.session.content arg = .ok bs)
    (hc : meansNothing (w.session.call (.write op (some cstr) arg)) = false)
    (hwrite : performCall supply (.write op (some cstr) arg) w = .ok (.ptr .null, w1)) :
    C.write v str bs w.core = (.ok (), w1.core) ∧ w1.Tidy ∧
      w1.session.at? op = some (.value .operator v) := by
  obtain ⟨o, p, ho, hr, ht1, hhands⟩ := performCall_explained supply ht hc hwrite
  simp only [Session.call, hbs, ok_bind] at ho
  obtain ⟨cstr', str', v', hpath, hstr', hv', hans⟩ := onPath_eq_ok ho
  cases hpath
  obtain rfl : str = str' := Option.some.inj (hstr.symm.trans hstr')
  obtain rfl : v = v' := Except.ok.inj (hv.symm.trans hv')
  generalize hres : C.write v str bs w.session.core = res at hans
  generalize hs1 : w1.session = s1 at hhands
  obtain ⟨answer, core⟩ := res
  cases hans with
  | error e code hcode =>
      cases hhands with
      | something a obj hnone => cases hr
  | value u =>
      cases hhands
      have hcore : w1.core = core := congrArg Session.core hs1
      refine ⟨?_, ht1, ?_⟩
      · rw [hcore]
        exact hres
      · exact at?_of_value hv

/-- A file that is there is read into bytes of its own. -/
theorem read_found (ht : w.Tidy) (hstr : cstr.toStr = some str)
    (hat : w.session.at? op = some (.value .operator v))
    (hfile : (C.read v str w.core).1 = .ok bs) :
    ∃ q w', performCall supply (.onPath .read op (some cstr)) w = .ok (.result ⟨q, .null⟩, w') ∧
      performCall supply (.loadBytes q) w' = .ok (.bytes bs, w') := by
  have hcall : w.session.call (.onPath .read op (some cstr)) =
      .ok ⟨(w.session.perform (C.read v str)).2, some (.bytes bs), handed⟩ := by
    have hgiven : notNull "The path given is pointing at NULL" (some cstr) = .ok cstr := rfl
    have hunwrap : cstr.unwrapStr = .ok str := by simp [CStr.unwrapStr, hstr]
    simp only [Session.call, Session.pathOp, Session.onPath, hgiven, ok_bind,
      value_of_at? hat, hunwrap, Session.perform, session_core, hfile]
    rfl
  have href := performCall_refines supply ht (.onPath .read op (some cstr))
  rw [hcall] at href
  obtain ⟨q, w', hperf, -, hhands⟩ := href
  exact ⟨q, w', hperf, (load_of_at? supply hhands.held_made).1 bs rfl⟩

/-- What a client writes from its memory it reads back, whatever happens to that memory and
to its other objects in between, as long as no call changes the file. -/
theorem written_read_back {arg : BytesArg} {mid : List Call}
    (hstore : ∀ s s', C.write v str bs s = (.ok (), s') → (C.read v str s').1 = .ok bs)
    (ht : w.Tidy) (hstr : cstr.toStr = some str) (hv : w.session.value .operator op = .ok v)
    (hbs : w.session.content arg = .ok bs)
    (hd : Disciplined supply w (.write op (some cstr) arg :: mid))
    (hwrite : performCall supply (.write op (some cstr) arg) w = .ok (.ptr .null, w1))
    (hmid : run (callStep supply) w1 mid = some w2) (hkeep : ∀ c ∈ mid, op ∉ c.changes)
    (hspare : AtEach (callStep supply)
      (fun w c => ∀ w', callStep supply w c = some w' →
        (C.read v str w'.core).1 = (C.read v str w.core).1) w1 mid) :
    ∃ q w3, performCall supply (.onPath .read op (some cstr)) w2 =
        .ok (.result ⟨q, .null⟩, w3) ∧
      performCall supply (.loadBytes q) w3 = .ok (.bytes bs, w3) := by
  obtain ⟨hdone, ht1, hat⟩ := write_done supply ht hstr hv hbs hd.1 hwrite
  have hstep := (callStep_eq_some supply).mpr ⟨_, hwrite⟩
  obtain ⟨ht2, hat2⟩ := disciplined_keeps supply ht1 (hd.2 w1 hstep) hmid hat hkeep
  let Inv : World C → Prop := fun w => (C.read v str w.core).1 = .ok bs
  have hfile : Inv w2 := by
    refine run_invariant_of_atEach ?_ (hstore _ _ hdone) hspare hmid
    intro w c w' hinv hc hstep
    exact (hc w' hstep).trans hinv
  exact read_found supply ht2 hstr hat2 hfile

end

theorem written_read_back_memory : ∃ w1 w2 : World memoryCore,
    performCall Supply.lowest (.write (.block 1) (CStr.new "/a") (.own ⟨.block 2, 2⟩)) opened =
        .ok (.ptr .null, w1) ∧
      run (callStep Supply.lowest) w1
        [.free .c (.block 2), .onPath .delete (.block 1) (CStr.new "/b")] = some w2 ∧
      ∃ q w3, performCall Supply.lowest (.onPath .read (.block 1) (CStr.new "/a")) w2 =
          .ok (.result ⟨q, .null⟩, w3) ∧
        performCall Supply.lowest (.loadBytes q) w3 = .ok (.bytes [1, 2], w3) := by
  have hstore : ∀ s s' : Files, memoryCore.write () "/a" [1, 2] s = (.ok (), s') →
      (memoryCore.read () "/a" s').1 = .ok [1, 2] := by
    rintro s s' ⟨⟩
    have hlookup : AList.lookup "/a" (s.insert "/a" [1, 2]) = some [1, 2] := AList.lookup_insert s
    exact congrArg (fun file => file.elim (Except.error ErrorKind.notFound) Except.ok) hlookup
  have hd : Disciplined Supply.lowest opened
      [.write (.block 1) (CStr.new "/a") (.own ⟨.block 2, 2⟩), .free .c (.block 2),
        .onPath .delete (.block 1) (CStr.new "/b")] := by
    decide
  refine ⟨_, _, rfl, rfl, ?_⟩
  refine written_read_back Supply.lowest hstore tidy_opened rfl rfl rfl hd rfl rfl ?_ ?_
  · decide
  · refine ⟨?_, fun t ht => ⟨?_, fun _ _ => trivial⟩⟩
    · rintro w ⟨⟩
      rfl
    · cases ht
      rintro w ⟨⟩
      rfl

/-! ## Strings -/

/-- A string that was made into a C string is read back from it. -/
theorem toStr_of_new {str : String} {c : CStr} (h : CStr.new str = some c) :
    c.toStr = some str := by
  unfold CStr.new at h
  split at h
  · cases h
  · cases h
    unfold CStr.toStr String.fromUTF8?
    simp only [Array.toArray_toList]
    rw [dif_pos (show ByteArray.IsValidUTF8 ⟨str.toUTF8.data⟩ from str.isValidUTF8)]
    rfl

/-- The string behind a getter. -/
def StringOp.text (f : StringOp) (p : Ptr) (s : Session C) : Except Fault String :=
  match f with
  | .entryPath => (s.value .entry p).map C.entryPath
  | .entryName => (s.value .entry p).map C.entryName
  | .infoScheme => (s.value .operatorInfo p).map C.infoScheme
  | .infoRoot => (s.value .operatorInfo p).map C.infoRoot
  | .infoName => (s.value .operatorInfo p).map C.infoName

theorem getString_eq_ok {kind : Kind} {get : C.Payload kind → String} {failure : Fault}
    {o : Outcome C} (h : s.getString kind get failure p = .ok o) :
    ∃ str cstr, (s.value kind p).map get = .ok str ∧ CStr.new str = some cstr ∧
      o = ⟨s, some (.cString cstr), .ptr⟩ := by
  obtain ⟨v, hv, h⟩ := bind_eq_ok.mp h
  rw [hv]
  cases hstr : CStr.new (get v) with
  | none =>
      rw [hstr] at h
      cases h
  | some cstr =>
      rw [hstr] at h
      cases h
      exact ⟨get v, cstr, rfl, hstr, rfl⟩

/-- Every string handed out stays readable until it is freed, and the binding takes it for
the string of the core when it is given back as a path. -/
theorem string_round_trip {f : StringOp} {mid : List Call} {r : Reply} {w1 w2 : World C}
    (ht : w.Tidy) (hd : Disciplined supply w (.string f p :: mid))
    (hcall : performCall supply (.string f p) w = .ok (r, w1))
    (hmid : run (callStep supply) w1 mid = some w2)
    (hkeep : ∀ q, r = .ptr q → ∀ c ∈ mid, q ∉ c.changes) :
    ∃ q str, ∃ cstr : CStr, r = .ptr q ∧ f.text p w.session = .ok str ∧ cstr.toStr = some str ∧
      performCall supply (.loadString q) w2 = .ok (.bytes cstr.bytes, w2) := by
  obtain ⟨o, q, ho, rfl, hkept⟩ := handed_out_keeps supply ht hd hcall hmid
  have hget : ∃ str cstr, f.text p w.session = .ok str ∧ CStr.new str = some cstr ∧
      o = ⟨w.session, some (.cString cstr), .ptr⟩ := by
    cases f <;> exact getString_eq_ok ho
  obtain ⟨str, cstr, htext, hnew, rfl⟩ := hget
  obtain ⟨-, hobj⟩ := hkept _ rfl (hkeep q rfl)
  exact ⟨q, str, cstr, rfl, htext, toStr_of_new hnew, (load_of_at? supply hobj).2.2 cstr rfl⟩

/-- A client with two files and a lister over them. -/
def filing : List Call :=
  [.operatorNew (CStr.new "memory") .null, .malloc [1],
    .write (.block 1) (CStr.new "/a") (.own ⟨.block 2, 1⟩),
    .write (.block 1) (CStr.new "/b") (.own ⟨.block 2, 1⟩),
    .onPath .list (.block 1) (CStr.new "/")]

def listed : World memoryCore :=
  (runCalls Supply.lowest filing (World.start (∅ : Files))).world

theorem tidy_listed : listed.Tidy := by
  obtain ⟨log, hlog⟩ := runCalls_explained Supply.lowest (tidy_start (C := memoryCore) (∅ : Files))
    (show Disciplined Supply.lowest _ filing by decide)
  exact hlog.tidy

def entered : World memoryCore :=
  (runCalls Supply.lowest [.listerNext (.block 4)] listed).world

theorem string_round_trip_entered : ∃ w1 w2 : World memoryCore,
    performCall Supply.lowest (.string .entryPath (.block 6)) entered =
        .ok (.ptr (.block 7), w1) ∧
      run (callStep Supply.lowest) w1 [.free .entry (.block 6)] = some w2 ∧
      ∃ q str, ∃ cstr : CStr, Reply.ptr (.block 7) = .ptr q ∧
        StringOp.entryPath.text (.block 6) entered.session = .ok str ∧
        cstr.toStr = some str ∧
        performCall Supply.lowest (.loadString q) w2 = .ok (.bytes cstr.bytes, w2) := by
  obtain ⟨log, hlog⟩ := runCalls_explained Supply.lowest tidy_listed
    (show Disciplined Supply.lowest listed [.listerNext (.block 4)] by decide)
  have hd : Disciplined Supply.lowest entered
      [.string .entryPath (.block 6), .free .entry (.block 6)] := by
    decide
  refine ⟨_, _, rfl, rfl, ?_⟩
  refine string_round_trip Supply.lowest hlog.tidy hd rfl rfl ?_
  rintro q ⟨⟩
  decide

/-! ## Listing -/

/-- What `opendal_lister_next` hands out for an item of the core. -/
def itemObject (item : Except C.Error C.Entry) : Option (Object C) :=
  match item with
  | .ok e => some (.value .entry e)
  | .error e => (errorObject e).toOption

/-- What the services answer the calls on the lister `p`, which is `l` at the start. Each is
asked of the lister that the one before left, in the state that the services are in by then. -/
def answers (p : Ptr) (l : C.Lister) :
    List (Answered C) → List (Option (Except C.Error C.Entry))
  | [] => []
  | e :: log =>
      if e.call = .listerNext p then
        (C.next l e.core).1.1 :: answers p (C.next l e.core).1.2 log
      else answers p l log

/-- The reply that goes with what a call to `opendal_lister_next` hands out. -/
def listerReply (made : Option (Object C)) (p : Ptr) : Reply :=
  match made with
  | none => .result ⟨.null, .null⟩
  | some (.value _ _) => handed p
  | some _ => failed p

theorem listerNext_eq_ok {o : Outcome C} {l : C.Lister} (hl : s.value .lister p = .ok l)
    (h : s.listerNext p = .ok o) :
    o.session = Session.set { s with core := (C.next l s.core).2 } p
        (.value .lister (C.next l s.core).1.2) ∧
      o.made = (C.next l s.core).1.1.bind itemObject ∧
      ∀ q, o.reply q = listerReply o.made q := by
  unfold Session.listerNext at h
  rw [hl, ok_bind] at h
  simp only [Session.perform] at h
  cases hitem : (C.next l s.core).1.1 with
  | none =>
      rw [hitem] at h
      cases h
      exact ⟨rfl, rfl, fun _ => rfl⟩
  | some item =>
      rw [hitem] at h
      cases item with
      | ok e =>
          cases h
          exact ⟨rfl, rfl, fun _ => rfl⟩
      | error e =>
          obtain ⟨code, hcode, rfl⟩ := refuse_eq_ok h
          refine ⟨rfl, ?_, fun _ => rfl⟩
          simp [itemObject, errorObject, hcode, Except.toOption, Except.map]

/-- The calls on a lister hand out what the services answer, one for one and in order. -/
theorem Proceeds.listed {l : C.Lister} (h : Proceeds s log t)
    (hl : s.value .lister p = .ok l)
    (hkeep : ∀ e ∈ log, p ∈ e.call.changes → e.call = .listerNext p) :
    (log.filter fun e => e.call = .listerNext p).map Answered.made =
        (answers p l log).map (fun item => item.bind itemObject) ∧
      ∀ e ∈ log, e.call = .listerNext p → e.reply = listerReply e.made e.ptr := by
  induction h generalizing l with
  | nil s => exact ⟨rfl, by simp⟩
  | cons hcall hhands hproceeds ih =>
      rename_i s u t c o q log
      have hrest : ∀ e ∈ log, p ∈ e.call.changes → e.call = .listerNext p :=
        fun e he => hkeep e (List.mem_cons_of_mem _ he)
      obtain ⟨a, rfl, hheld⟩ := at?_eq_some (at?_of_value hl)
      by_cases hc : c = .listerNext (.block a)
      · subst hc
        obtain ⟨hs, hmade, hreply⟩ := listerNext_eq_ok hl hcall
        -- the lister that this call leaves is the one that the next call on it finds
        have hl' : u.value .lister (.block a) = .ok (C.next l s.core).1.2 := by
          refine value_of_at? (hhands.keeps ?_)
          rw [hs]
          exact Function.update_self _ _ _
        obtain ⟨ih1, ih2⟩ := ih hl' hrest
        refine ⟨?_, ?_⟩
        · simp only [decide_true, List.filter_cons_of_pos, List.map_cons, answers, if_true,
            hmade]
          rw [ih1]
        · intro e he hec
          rcases List.mem_cons.mp he with rfl | he
          · exact hreply q
          · exact ih2 e he hec
      · have hkept : u.at? (.block a) = some (.value .lister l) := by
          refine hhands.keeps ?_
          rw [call_held hcall, hheld]
          intro hmem
          exact hc (hkeep _ List.mem_cons_self hmem)
        obtain ⟨ih1, ih2⟩ := ih (value_of_at? hkept) hrest
        refine ⟨?_, ?_⟩
        · rw [List.filter_cons_of_neg (by simpa using hc), answers, if_neg hc]
          exact ih1
        · intro e he hec
          rcases List.mem_cons.mp he with rfl | he
          · exact absurd hec hc
          · exact ih2 e he hec

/-- The calls on a lister hand out what the services answer, one for one and in order, in runs
with any other calls in between, whatever these do to the services. -/
theorem listed_in_order {calls : List Call} {l : C.Lister} (ht : w.Tidy)
    (hd : Disciplined supply w calls) (hl : w.session.value .lister p = .ok l)
    (hkeep : ∀ c ∈ calls, p ∈ c.changes → c = .listerNext p) :
    ∃ log, Explained w calls (runCalls supply calls w) log ∧
      (log.filter fun e => e.call = .listerNext p).map Answered.made =
        (answers p l log).map (fun item => item.bind itemObject) ∧
      ∀ e ∈ log, e.call = .listerNext p → e.reply = listerReply e.made e.ptr := by
  obtain ⟨log, hlog⟩ := runCalls_explained supply ht hd
  refine ⟨log, hlog, hlog.proceeds.listed hl ?_⟩
  intro e he
  refine hkeep e.call ?_
  have hmem : e.call ∈ log.map Answered.call := List.mem_map_of_mem he
  cases hf : (runCalls supply calls w).fault with
  | none => rwa [hlog.returned hf] at hmem
  | some f =>
      obtain ⟨-, c, rest, hcalls, -⟩ := hlog.stopped f hf
      rw [hcalls]
      exact List.mem_append_left _ hmem

/-- One file is deleted between the calls of the lister. -/
def relisting : List Call :=
  [.listerNext (.block 4), .onPath .delete (.block 1) (CStr.new "/a"), .listerNext (.block 4),
    .listerNext (.block 4)]

theorem listed_in_order_relisting :
    ∃ log, Explained listed relisting (runCalls Supply.lowest relisting listed) log ∧
      (log.filter fun e => e.call = .listerNext (.block 4)).map Answered.made =
        (answers (C := memoryCore) (.block 4) ["/b", "/a"] log).map
          (fun item => item.bind itemObject) ∧
      ∀ e ∈ log, e.call = .listerNext (.block 4) → e.reply = listerReply e.made e.ptr := by
  have hlister : listed.session.value .lister (.block 4) = .ok ["/b", "/a"] := rfl
  have hd : Disciplined Supply.lowest listed relisting := by
    decide
  refine listed_in_order Supply.lowest tidy_listed hd hlister ?_
  decide

end LlgoExamples.Opendal
