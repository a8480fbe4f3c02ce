import LlgoExamples.Library.Relay
import LlgoExamples.Verification.Hyper.TypeSafety

/-! # Phases of a request

The phase of a request lives in the userdata of the one tagged task that is out. Under
what an executor promises, pushing and returning tagged tasks is a relay through the
handshake, the send and the body, and each task and handle is used once. -/

namespace LlgoExamples.Hyper

open Machine Relay

variable {s s' : GetState} {t u : Task} {a : Answers} {log es es' : List Event}

/-! ## Tagged tasks as a relay -/

def stages : List ExampleId :=
  [.handshake, .send, .respBody]

/-- An accepted push launches its task, and a tagged task that is returned comes back. -/
def Event.move? : Event → Option (Move ExampleId ℕ)
  | .push task userdata .ok => some (.launch userdata task)
  | .polled t => if t.userdata = .notSet then none else some (.finish t.userdata t.id)
  | _ => none

def moves (log : List Event) : List (Move ExampleId ℕ) :=
  log.filterMap Event.move?

def pushedTasks (log : List Event) : List (ExampleId × ℕ) :=
  launched (moves log)

def returnedTasks (log : List Event) : List (ExampleId × ℕ) :=
  finished (moves log)

theorem moves_append : moves (es ++ es') = moves es ++ moves es' :=
  List.filterMap_append

theorem moves_printf {α : Type} (items : List α) (format : String) (args : α → List Arg) :
    moves (items.map fun x => .printf format (args x)) = [] := by
  induction items with
  | nil => rfl
  | cons x items ih => exact ih

theorem moves_failEvents (e : ℕ) (a : Answers) : moves (failEvents e a) = [] := by
  rw [failEvents, moves_append, moves_append, moves_printf]
  rfl

theorem mem_returnedTasks {g : ExampleId} {id : ℕ} (h : (g, id) ∈ returnedTasks log) :
    ∃ u, .polled u ∈ log ∧ u.userdata = g ∧ u.id = id := by
  simp only [returnedTasks, finished, moves, List.mem_filterMap] at h
  obtain ⟨m, ⟨e, he, hm⟩, hfinish⟩ := h
  cases m with
  | launch k i => cases hfinish
  | finish k i =>
      cases hfinish
      cases e with
      | polled u =>
          simp only [Event.move?] at hm
          split at hm
          · cases hm
          · cases hm
            exact ⟨u, he, rfl, rfl⟩
      | push task userdata res => cases res <;> cases hm
      | _ => cases hm

/-! ## What an executor promises -/

def polledIds (log : List Event) : List ℕ :=
  log.filterMap fun e => match e with
    | .polled t => some t.id
    | _ => none

/-- The executor may return `t`: it has not returned it before, it was pushed with the
userdata it has, unless that is unset, and it completed as its kind of task does. -/
structure Returnable (s : GetState) (t : Task) : Prop where
  once : t.id ∉ polledIds s.log
  pushed : t.userdata ≠ .notSet → (t.userdata, t.id) ∈ pushedTasks s.log
  wellTyped : t.WellTyped

instance (s : GetState) (t : Task) : Decidable (Returnable s t) :=
  decidable_of_iff (t.id ∉ polledIds s.log ∧
      (t.userdata ≠ .notSet → (t.userdata, t.id) ∈ pushedTasks s.log) ∧ t.WellTyped)
    ⟨fun h => ⟨h.1, h.2.1, h.2.2⟩, fun h => ⟨h.once, h.pushed, h.wellTyped⟩⟩

/-- The executor keeps its promise whenever it returns a task. -/
def Executor (s : GetState) : Input → Prop
  | .task t _ => Returnable s t
  | _ => True

instance (s : GetState) : DecidablePred (Executor s)
  | .task t _ => inferInstanceAs (Decidable (Returnable s t))
  | .readCallBack _ _ => isTrue trivial
  | .writeCallBack _ _ => isTrue trivial
  | .bodyChunk _ _ => isTrue trivial
  | .select _ => isTrue trivial

theorem Returnable.id_ne (h : Returnable s t) (hu : .polled u ∈ s.log) : u.id ≠ t.id := by
  intro hid
  apply h.once
  rw [← hid]
  exact List.mem_filterMap.2 ⟨.polled u, hu, rfl⟩

/-! ## The relay goes on -/

def nextStage : ExampleId → Option ExampleId
  | .handshake => some .send
  | .send => some .respBody
  | .respBody => none
  | .notSet => none

theorem move?_push (task : ℕ) (g : ExampleId) (res : Code) :
    Event.move? (.push task g res) = none ∨
      Event.move? (.push task g res) = some (.launch g task) := by
  cases res with
  | ok => exact Or.inr rfl
  | _ => exact Or.inl rfl

/-- A push adds at most the launch of its task. -/
theorem moves_push (task : ℕ) (g : ExampleId) (res : Code) :
    moves [.push task g res] = [] ∨ moves [.push task g res] = [.launch g task] := by
  rcases move?_push task g res with h | h
  · exact Or.inl (List.filterMap_cons_none h)
  · exact Or.inr (List.filterMap_cons_some h)

theorem moves_bodyEvents (t : Task) (a : Answers) :
    moves (bodyEvents t a) = moves [.push a.foreachTask .respBody a.foreachRes] := by
  rw [bodyEvents, moves_append, moves_printf]
  cases a.foreachRes <;> rfl

/-- After a task was polled, its case launches at most the next stage. -/
theorem Handled.launches (h : Handled t a s s') (hwell : t.WellTyped) :
    ∃ rest, s'.log = s.log ++ .polled t :: rest ∧
      (moves rest = [] ∨ ∃ g id, nextStage t.userdata = some g ∧ moves rest = [.launch g id]) := by
  cases h with
  | background htag => exact ⟨[.freeTask t], rfl, Or.inl rfl⟩
  | failed htag text e htype hvalue =>
      exact ⟨_, rfl, Or.inl (moves_failEvents e a)⟩
  | sent htag hpasses hres =>
      refine ⟨_, rfl, Or.inr ⟨.send, a.sendTask, by rw [htag]; rfl, ?_⟩⟩
      rw [handshakeComplaints_eq hwell htag hpasses, sendEvents, hres]
      rfl
  | notSent htag hpasses hres =>
      refine ⟨_, rfl, ?_⟩
      rw [handshakeComplaints_eq hwell htag hpasses]
      rcases moves_push a.sendTask .send a.sendRes with hnone | hlaunch
      · exact Or.inl hnone
      · exact Or.inr ⟨.send, a.sendTask, by rw [htag]; rfl, hlaunch⟩
  | noReason htag hpasses p hreason =>
      refine ⟨_, rfl, Or.inl ?_⟩
      rw [sendComplaints_eq hwell htag hpasses]
      rfl
  | responded htag hpasses message hreason =>
      refine ⟨_, rfl, ?_⟩
      have hmoves : moves (sendComplaints t ++ reasonEvents t a ++ bodyEvents t a) =
          moves [.push a.foreachTask .respBody a.foreachRes] := by
        rw [sendComplaints_eq hwell htag hpasses, moves_append, moves_bodyEvents]
        rfl
      rw [hmoves]
      rcases moves_push a.foreachTask .respBody a.foreachRes with hnone | hlaunch
      · exact Or.inl hnone
      · exact Or.inr ⟨.respBody, a.foreachTask, by rw [htag]; rfl, hlaunch⟩
  | returned htag hpasses =>
      refine ⟨_, rfl, Or.inl ?_⟩
      rw [respBodyComplaints_eq hwell htag hpasses]
      rfl

/-- Some lap of the relay stands behind the log. -/
def InRelay (log : List Event) : Prop :=
  ∃ lap, run post (Lap.start stages) (moves log) = some lap

/-- A tagged task that is returned was the one that is out. -/
theorem relay_finish (h : InRelay s.log) (hret : Returnable s t)
    (htag : t.userdata ≠ .notSet) :
    ∃ lap, run post (Lap.start stages) (moves (s.log ++ [.polled t])) = some lap ∧
      lap.flying = none ∧ lap.todo.head? = nextStage t.userdata := by
  obtain ⟨lap, hlap⟩ := h
  have hstanding := standing_run hlap
  have hflying : lap.flying = some (t.userdata, t.id) := by
    have hpushed := hret.pushed htag
    rw [pushedTasks, hstanding.launched_eq] at hpushed
    rcases List.mem_append.1 hpushed with hreturned | hout
    · obtain ⟨u, hu, -, hid⟩ := mem_returnedTasks hreturned
      exact absurd hid (hret.id_ne hu)
    · exact Option.mem_toList.1 hout
  have hmoves : moves [.polled t] = [.finish t.userdata t.id] :=
    List.filterMap_cons_some (if_neg htag)
  refine ⟨{ todo := lap.todo.tail, flying := none }, ?_, rfl, ?_⟩
  · rw [moves_append, hmoves]
    refine run_append_eq_some.2 ⟨lap, hlap, ?_⟩
    simp only [run_cons, Relay.post, hflying, if_true, Option.bind_some, run_nil]
  · have hsuffix : lap.todo ∈ stages.tails :=
      (List.mem_tails _ _).2 ⟨_, hstanding.stages_eq⟩
    have hhead := hstanding.flying_next _ _ hflying
    have hnext : ∀ todo ∈ stages.tails, ∀ g, todo.head? = some g →
        todo.tail.head? = nextStage g := by
      intro todo htodo g hg
      have hcases : todo = stages ∨ todo = [.send, .respBody] ∨ todo = [.respBody] ∨
          todo = [] := by
        simpa [stages] using htodo
      rcases hcases with rfl | rfl | rfl | rfl <;> cases hg <;> rfl
    exact hnext _ hsuffix _ hhead

theorem InRelay.of_handled (h : InRelay s.log) (hret : Returnable s t)
    (hhandled : Handled t a s s') : InRelay s'.log := by
  obtain ⟨rest, hlog, hmoves⟩ := hhandled.launches hret.wellTyped
  rw [hlog, ← List.singleton_append, ← List.append_assoc]
  by_cases htag : t.userdata = .notSet
  · obtain ⟨lap, hlap⟩ := h
    have hnone : moves rest = [] := by
      rcases hmoves with hnone | ⟨g, id, hnext, -⟩
      · exact hnone
      · rw [htag] at hnext
        cases hnext
    have hpolled : moves [.polled t] = [] := List.filterMap_cons_none (if_pos htag)
    refine ⟨lap, ?_⟩
    rwa [moves_append, moves_append, hnone, hpolled, List.append_nil, List.append_nil]
  · obtain ⟨lap, hlap, hflying, hhead⟩ := relay_finish h hret htag
    rcases hmoves with hnone | ⟨g, id, hnext, hlaunch⟩
    · refine ⟨lap, ?_⟩
      rwa [moves_append, hnone, List.append_nil]
    · refine ⟨{ lap with flying := some (g, id) }, ?_⟩
      rw [moves_append, hlaunch]
      refine run_append_eq_some.2 ⟨lap, hlap, ?_⟩
      rw [hnext] at hhead
      simp only [run_cons, Relay.post, hflying, hhead, and_self, if_true, Option.bind_some,
        run_nil]

/-! ## What each task and each case is used for -/

/-- The task that a call is made on. -/
def Event.task? : Event → Option Task
  | .value u _ => some u
  | .freeTask u => some u
  | _ => none

/-- The case of the switch that makes a call. -/
def Event.case? : Event → Option ExampleId
  | .value _ .clientConn => some .handshake
  | .send _ => some .handshake
  | .push _ .send _ => some .handshake
  | .freeClient _ => some .handshake
  | .value _ .response => some .send
  | .reasonPhrase _ _ _ => some .send
  | .status _ _ => some .send
  | .foreachBody _ => some .send
  | .push _ .respBody _ => some .send
  | .freeResponse _ => some .send
  | .freeExec => some .respBody
  | _ => none

def usesOf (t : Task) (log : List Event) : List Event :=
  log.filter fun e => e.task? = some t

def callsOf (g : ExampleId) (log : List Event) : List Event :=
  log.filter fun e => e.case? = some g

theorem usesOf_append : usesOf t (es ++ es') = usesOf t es ++ usesOf t es' :=
  List.filter_append es es'

theorem callsOf_append {g : ExampleId} : callsOf g (es ++ es') = callsOf g es ++ callsOf g es' :=
  List.filter_append es es'

/-- Printing calls nothing. -/
def Silent (es : List Event) : Prop :=
  (∀ t, usesOf t es = []) ∧ ∀ g, callsOf g es = []

theorem silent_printf {α : Type} (items : List α) (format : String) (args : α → List Arg) :
    Silent (items.map fun x => .printf format (args x)) := by
  induction items with
  | nil => exact ⟨fun _ => rfl, fun _ => rfl⟩
  | cons x items ih => exact ih

theorem silent_failEvents (e : ℕ) (a : Answers) : Silent (failEvents e a) := by
  have hdetails := silent_printf (a.errorDetails.take errBufLen) "%c" fun char => [.bytes [char]]
  constructor
  · intro t
    rw [failEvents, usesOf_append, usesOf_append, hdetails.1 t]
    rfl
  · intro g
    rw [failEvents, callsOf_append, callsOf_append, hdetails.2 g]
    cases g <;> rfl

def handshakeCalls (t : Task) (a : Answers) : List Event :=
  [.value t .clientConn, .send t.value, .push a.sendTask .send a.sendRes, .freeClient t.value]

def sendCalls (t : Task) (a : Answers) : List Event :=
  [.value t .response, .reasonPhrase t.value a.reasonPhrase a.reasonPhraseLen,
    .status t.value a.status, .foreachBody t.value, .push a.foreachTask .respBody a.foreachRes,
    .freeResponse t.value]

theorem usesOf_bodyEvents (t u : Task) (a : Answers) : usesOf u (bodyEvents t a) = [] := by
  rw [bodyEvents, usesOf_append,
    (silent_printf a.headers "%.*s: %.*s\n" fun header => [.bytes header.1, .bytes header.2]).1]
  rfl

theorem callsOf_bodyEvents (g : ExampleId) (t : Task) (a : Answers) :
    callsOf g (bodyEvents t a) =
      callsOf g [.foreachBody t.value, .push a.foreachTask .respBody a.foreachRes,
        .freeResponse t.value] := by
  rw [bodyEvents, callsOf_append,
    (silent_printf a.headers "%.*s: %.*s\n" fun header => [.bytes header.1, .bytes header.2]).2]
  rfl

/-- The tags that a handled task adds. -/
def Task.tags (t : Task) : List ExampleId :=
  if t.userdata = .notSet then [] else [t.userdata]

theorem Task.ne_of_notMem_tags {g : ExampleId} (hg : g ∉ t.tags)
    (htag : t.userdata ≠ .notSet) : g ≠ t.userdata := by
  rwa [Task.tags, if_neg htag, List.mem_singleton] at hg

theorem Task.notMem_tags {g : ExampleId} (h : t.userdata ≠ g) : g ∉ t.tags := by
  rw [Task.tags]
  split
  · exact List.not_mem_nil
  · exact fun hmem => h (List.mem_singleton.1 hmem).symm

/-- Every call is made on `t` or on no task, and in the case of `t` or in none. -/
def OwnCalls (t : Task) (es : List Event) : Prop :=
  (∀ u, u ≠ t → usesOf u es = []) ∧ ∀ g, g ∉ t.tags → callsOf g es = []

theorem OwnCalls.append (h : OwnCalls t es) (h' : OwnCalls t es') : OwnCalls t (es ++ es') := by
  constructor
  · intro u hu
    rw [usesOf_append, h.1 u hu, h'.1 u hu, List.append_nil]
  · intro g hg
    rw [callsOf_append, h.2 g hg, h'.2 g hg, List.append_nil]

theorem Silent.ownCalls (h : Silent es) : OwnCalls t es :=
  ⟨fun u _ => h.1 u, fun g _ => h.2 g⟩

/-- The calls of one case, checked one by one. -/
theorem ownCalls_of_case {g : ExampleId} (htag : t.userdata = g) (hg : g ≠ .notSet)
    (htask : ∀ e ∈ es, ∀ u, e.task? = some u → u = t)
    (hcase : ∀ e ∈ es, ∀ g', e.case? = some g' → g' = g) : OwnCalls t es := by
  constructor
  · intro u hu
    rw [usesOf, List.filter_eq_nil_iff]
    intro e he hmem
    exact hu (htask e he u (of_decide_eq_true hmem))
  · intro g' hg'
    rw [callsOf, List.filter_eq_nil_iff]
    intro e he hmem
    have heq := hcase e he g' (of_decide_eq_true hmem)
    rw [← htag] at heq hg
    exact Task.ne_of_notMem_tags hg' hg heq

theorem ownCalls_sendEvents (a : Answers) (htag : t.userdata = .handshake) :
    OwnCalls t (.polled t :: sendEvents t a) :=
  ownCalls_of_case htag (by decide) (by simp [sendEvents, Event.task?])
    (by simp [sendEvents, Event.case?])

theorem ownCalls_reasonEvents (a : Answers) (htag : t.userdata = .send) :
    OwnCalls t (.polled t :: reasonEvents t a) :=
  ownCalls_of_case htag (by decide) (by simp [reasonEvents, Event.task?])
    (by simp [reasonEvents, Event.case?])

theorem ownCalls_bodyEvents (a : Answers) (htag : t.userdata = .send) :
    OwnCalls t (bodyEvents t a) := by
  rw [bodyEvents]
  refine OwnCalls.append (silent_printf a.headers _ _).ownCalls ?_
  exact ownCalls_of_case htag (by decide) (by simp [Event.task?]) (by simp [Event.case?])

/-- Handling a task makes calls on that task only, and the calls of its case only. -/
theorem Handled.calls (h : Handled t a s s') (hwell : t.WellTyped) :
    ∃ es, s'.log = s.log ++ es ∧ OwnCalls t es := by
  cases h with
  | background htag =>
      refine ⟨_, rfl, ?_, fun g _ => by cases g <;> rfl⟩
      intro u hu
      simp [usesOf, Event.task?, Ne.symm hu]
  | failed htag text e htype hvalue =>
      refine ⟨[.polled t, .printf text [], .value t .error] ++ failEvents e a, rfl, ?_⟩
      refine OwnCalls.append ?_ (silent_failEvents e a).ownCalls
      exact ownCalls_of_case rfl htag (by simp [Event.task?]) (by simp [Event.case?])
  | sent htag hpasses hres =>
      rw [handshakeComplaints_eq hwell htag hpasses]
      refine ⟨_, rfl, (ownCalls_sendEvents a htag).append ?_⟩
      exact ownCalls_of_case htag (by decide) (by simp [Event.task?]) (by simp [Event.case?])
  | notSent htag hpasses hres =>
      rw [handshakeComplaints_eq hwell htag hpasses]
      exact ⟨_, rfl, ownCalls_sendEvents a htag⟩
  | noReason htag hpasses p hreason =>
      rw [sendComplaints_eq hwell htag hpasses]
      exact ⟨_, rfl, ownCalls_reasonEvents a htag⟩
  | responded htag hpasses message hreason =>
      rw [sendComplaints_eq hwell htag hpasses]
      exact ⟨_, rfl, (ownCalls_reasonEvents a htag).append (ownCalls_bodyEvents a htag)⟩
  | returned htag hpasses =>
      rw [respBodyComplaints_eq hwell htag hpasses]
      exact ⟨_, rfl, ownCalls_of_case htag (by decide) (by simp [returnEvents, Event.task?])
        (by simp [returnEvents, Event.case?])⟩

/-! ## The state of a request -/

/-- The tags of the tasks returned so far, in order. -/
def returnedTags (log : List Event) : List ExampleId :=
  (returnedTasks log).map Prod.fst

theorem returnedTags_append :
    returnedTags (es ++ es') = returnedTags es ++ returnedTags es' := by
  simp only [returnedTags, returnedTasks, finished, moves_append, List.filterMap_append,
    List.map_append]

theorem InRelay.order (h : InRelay log) : returnedTags log <+: stages := by
  obtain ⟨lap, hlap⟩ := h
  exact finished_prefix hlap

theorem InRelay.nodup (h : InRelay log) : (returnedTags log).Nodup :=
  (List.IsPrefix.sublist h.order).nodup (by decide)

theorem returnedTags_polled (t : Task) : returnedTags [.polled t] = t.tags := by
  by_cases htag : t.userdata = .notSet
  · have hmoves : moves [.polled t] = [] := List.filterMap_cons_none (if_pos htag)
    rw [returnedTags, returnedTasks, hmoves, Task.tags, if_pos htag]
    rfl
  · have hmoves : moves [.polled t] = [.finish t.userdata t.id] :=
      List.filterMap_cons_some (if_neg htag)
    rw [returnedTags, returnedTasks, hmoves, Task.tags, if_neg htag]
    rfl

theorem Handled.returnedTags (h : Handled t a s s') (hwell : t.WellTyped) :
    returnedTags s'.log = returnedTags s.log ++ t.tags := by
  obtain ⟨rest, hlog, hmoves⟩ := h.launches hwell
  have hrest : Hyper.returnedTags rest = [] := by
    rcases hmoves with hnone | ⟨g, id, -, hlaunch⟩
    · rw [Hyper.returnedTags, returnedTasks, hnone]
      rfl
    · rw [Hyper.returnedTags, returnedTasks, hlaunch]
      rfl
  rw [hlog, ← List.singleton_append, returnedTags_append, returnedTags_append,
    returnedTags_polled, hrest, List.append_nil]

/-- What is known of the response once the send task was handled. -/
def Responded (s : GetState) : Prop :=
  ∃ x a message, x.userdata = .send ∧ x.type = .response ∧ .polled x ∈ s.log ∧
    callsOf .send s.log = sendCalls x a ∧ s.response.status = a.status ∧
    stringOf a.reasonPhrase a.reasonPhraseLen = .ok message ∧ s.response.message = message

structure Phased (s : GetState) : Prop where
  errNil : ErrNil s
  relay : InRelay s.log
  uses : ∀ u, .polled u ∉ s.log → usesOf u s.log = []
  calls : ∀ g, g ∉ returnedTags s.log → callsOf g s.log = []
  sent : callsOf .handshake s.log ≠ [] → ∃ h a, h.userdata = .handshake ∧
    h.type = .clientConn ∧ callsOf .handshake s.log <+: handshakeCalls h a
  responded : .send ∈ returnedTags s.log → (∀ p, s.status ≠ .panicked p) → Responded s
  returned : s.status = .returned → .respBody ∈ returnedTags s.log

theorem phased_start (fd : ℤ) (handshakeTask : ℕ) (handshakeRes : Code) :
    Phased (GetState.start fd handshakeTask handshakeRes) := by
  have hmoves := moves_push handshakeTask .handshake handshakeRes
  have htags : returnedTags [.push handshakeTask .handshake handshakeRes] = [] := by
    rw [returnedTags, returnedTasks]
    rcases hmoves with hnone | hlaunch
    · rw [hnone]
      rfl
    · rw [hlaunch]
      rfl
  refine ⟨errNil_start fd handshakeTask handshakeRes, ?_, fun u _ => rfl,
    fun g _ => by cases g <;> rfl, fun h => absurd rfl h, ?_, ?_⟩
  · rcases hmoves with hnone | hlaunch
    · exact ⟨_, by rw [GetState.start, hnone]; rfl⟩
    · exact ⟨_, by rw [GetState.start, hlaunch]; rfl⟩
  · intro hmem
    rw [GetState.start, htags] at hmem
    cases hmem
  · intro h
    cases h

/-- A chunk of the body changes nothing but the body. -/
theorem appendToResponseBody_frame {mallocOk : Bool} {chunk : Bytes} {resp : Response}
    {h : CHeap} {r : ℕ × Response × CHeap}
    (happend : appendToResponseBody mallocOk chunk resp h = some r) :
    r.2.1.status = resp.status ∧ r.2.1.message = resp.message := by
  simp only [appendToResponseBody] at happend
  split at happend
  · cases happend
    exact ⟨rfl, rfl⟩
  · simp only [Option.bind_eq_bind] at happend
    split at happend
    · simp only [Option.bind_eq_some_iff] at happend
      obtain ⟨_, -, _, -, heq⟩ := happend
      cases heq
      exact ⟨rfl, rfl⟩
    · simp only [Option.bind_eq_some_iff] at happend
      obtain ⟨_, -, _, -, _, -, heq⟩ := happend
      cases heq
      exact ⟨rfl, rfl⟩

/-- What an input that is no task leaves as it is. -/
theorem Phased.of_quiet (h : Phased s) (herr : ErrNil s') (hlog : s'.log = s.log)
    (hstatus : s'.response.status = s.response.status)
    (hmessage : s'.response.message = s.response.message)
    (hrunning : s.status = .running) (hnot : s'.status ≠ .returned) : Phased s' := by
  refine ⟨herr, ?_, ?_, ?_, ?_, ?_, fun h => absurd h hnot⟩
  · rw [hlog]
    exact h.relay
  · rw [hlog]
    exact h.uses
  · rw [hlog]
    exact h.calls
  · rw [hlog]
    exact h.sent
  · intro hmem _
    rw [hlog] at hmem
    have hresponded := h.responded hmem (by rw [hrunning]; intro p hp; cases hp)
    rw [Responded] at hresponded ⊢
    rwa [hlog, hstatus, hmessage]

/-- A tag is new to the log when its task is returned. -/
theorem tag_notMem (hrelay : InRelay s'.log)
    (htags : returnedTags s'.log = returnedTags s.log ++ t.tags) {g : ExampleId}
    (hg : g ∈ t.tags) : g ∉ returnedTags s.log := by
  have hnodup := hrelay.nodup
  rw [htags] at hnodup
  intro hmem
  exact (List.nodup_append.1 hnodup).2.2 g hmem g hg rfl

/-- A handshake that went through made every call of its case. -/
theorem callsOf_sent (hwell : t.WellTyped) (htag : t.userdata = .handshake)
    (hpasses : t.Passes) (hres : a.sendRes = .ok) :
    callsOf .handshake (.polled t ::
      (handshakeComplaints t ++ sendEvents t a ++ [.freeClient t.value])) =
        handshakeCalls t a := by
  rw [handshakeComplaints_eq hwell htag hpasses, sendEvents, handshakeCalls, hres]
  rfl

/-- And so did a response that was read. -/
theorem callsOf_responded (hwell : t.WellTyped) (htag : t.userdata = .send)
    (hpasses : t.Passes) :
    callsOf .send (.polled t :: (sendComplaints t ++ reasonEvents t a ++ bodyEvents t a)) =
      sendCalls t a := by
  rw [sendComplaints_eq hwell htag hpasses, List.nil_append, ← List.cons_append,
    callsOf_append, callsOf_bodyEvents]
  rfl

/-- A handshake makes the calls of its case up to some point. -/
theorem Handled.sends (h : Handled t a s s') (hwell : t.WellTyped)
    (htag : t.userdata = .handshake) (hfresh : callsOf .handshake s.log = [])
    (hne : callsOf .handshake s'.log ≠ []) :
    t.type = .clientConn ∧ callsOf .handshake s'.log <+: handshakeCalls t a := by
  have htype := fun hpasses => hwell.type_eq (by rw [htag]; decide) hpasses
  rw [htag] at htype
  cases h with
  | background hnone =>
      rw [htag] at hnone
      cases hnone
  | failed _ text e _ _ =>
      exfalso
      apply hne
      have hnone : callsOf .handshake (.polled t :: .printf text [] :: .value t .error ::
          failEvents e a) = [] := (silent_failEvents e a).2 .handshake
      rw [GetState.emits, callsOf_append, hfresh, hnone]
      rfl
  | sent _ hpasses hres =>
      refine ⟨htype hpasses, ?_⟩
      rw [GetState.emits, callsOf_append, hfresh, callsOf_sent hwell htag hpasses hres]
      exact List.prefix_refl _
  | notSent _ hpasses hres =>
      refine ⟨htype hpasses, ?_⟩
      rw [GetState.emits, callsOf_append, hfresh, handshakeComplaints_eq hwell htag hpasses]
      exact ⟨[.freeClient t.value], rfl⟩
  | noReason hsend =>
      rw [htag] at hsend
      cases hsend
  | responded hsend =>
      rw [htag] at hsend
      cases hsend
  | returned hbody =>
      rw [htag] at hbody
      cases hbody

/-- A send task that does not panic leaves the response known. -/
theorem Handled.responds (h : Handled t a s s') (hwell : t.WellTyped)
    (htag : t.userdata = .send) (hfresh : callsOf .send s.log = [])
    (hnot : ∀ p, s'.status ≠ .panicked p) : Responded s' := by
  have htype := fun hpasses => hwell.type_eq (by rw [htag]; decide) hpasses
  rw [htag] at htype
  cases h with
  | background hnone =>
      rw [htag] at hnone
      cases hnone
  | failed => exact absurd rfl (hnot requestFailed)
  | sent hhandshake =>
      rw [htag] at hhandshake
      cases hhandshake
  | notSent => exact absurd rfl (hnot _)
  | noReason _ hpasses p hreason => exact absurd rfl (hnot p)
  | responded _ hpasses message hreason =>
      refine ⟨t, a, message, htag, htype hpasses, ?_, ?_, rfl, hreason, rfl⟩
      · simp [GetState.emits]
      · rw [GetState.emits, callsOf_append, hfresh, callsOf_responded hwell htag hpasses]
        rfl
  | returned hbody =>
      rw [htag] at hbody
      cases hbody

/-- A task of another phase leaves what is known of the response. -/
theorem Responded.of_handled (hresponded : Responded s) (h : Handled t a s s')
    (hwell : t.WellTyped) (htag : t.userdata ≠ .send) : Responded s' := by
  obtain ⟨x, b, message, hx, htype, hpolled, hcallsx, hstatus, hreason, hmessage⟩ := hresponded
  obtain ⟨es, hlog, -, hcalls⟩ := h.calls hwell
  refine ⟨x, b, message, hx, htype, ?_, ?_, ?_, hreason, ?_⟩
  · rw [hlog]
    exact List.mem_append_left es hpolled
  · rw [hlog, callsOf_append, hcalls .send (Task.notMem_tags htag), List.append_nil]
    exact hcallsx
  · cases h with
    | noReason hsend => exact absurd hsend htag
    | responded hsend => exact absurd hsend htag
    | _ => exact hstatus
  · cases h with
    | responded hsend => exact absurd hsend htag
    | _ => exact hmessage

theorem Handled.returns (h : Handled t a s s') (hrunning : s.status = .running)
    (hreturned : s'.status = .returned) : t.userdata = .respBody := by
  cases h with
  | returned htag hpasses => exact htag
  | failed | notSent | noReason => cases hreturned
  | _ =>
      have hnot : s.status ≠ .returned := by
        rw [hrunning]
        decide
      exact absurd hreturned hnot

/-- The case of a returned task has not been called before. -/
theorem Phased.callsOf_eq_nil (h : Phased s) (hret : Returnable s t)
    (hhandled : Handled t a s s') {g : ExampleId} (hg : g ∈ t.tags) : callsOf g s.log = [] := by
  have htags := hhandled.returnedTags hret.wellTyped
  exact h.calls g (tag_notMem (h.relay.of_handled hret hhandled) htags hg)

theorem Phased.of_handled (h : Phased s) (hrunning : s.status = .running)
    (herr : ErrNil s') (hret : Returnable s t) (hhandled : Handled t a s s') : Phased s' := by
  have hwell := hret.wellTyped
  have hrelay := h.relay.of_handled hret hhandled
  have htags := hhandled.returnedTags hwell
  have hfresh : ∀ g ∈ t.tags, callsOf g s.log = [] := fun _ hg =>
    h.callsOf_eq_nil hret hhandled hg
  obtain ⟨es, hlog, huses, hcalls⟩ := hhandled.calls hwell
  have hkept : ∀ g, g ∉ t.tags → callsOf g s'.log = callsOf g s.log := by
    intro g hg
    rw [hlog, callsOf_append, hcalls g hg, List.append_nil]
  refine ⟨herr, hrelay, ?_, ?_, ?_, ?_, ?_⟩
  · intro u hu
    have hut : u ≠ t := by
      rintro rfl
      obtain ⟨rest, hrest, -⟩ := hhandled.launches hwell
      rw [hrest] at hu
      simp at hu
    have hold : .polled u ∉ s.log := by
      intro hmem
      rw [hlog] at hu
      exact hu (List.mem_append_left es hmem)
    rw [hlog, usesOf_append, h.uses u hold, huses u hut]
    rfl
  · intro g hg
    rw [htags, List.mem_append, not_or] at hg
    rw [hkept g hg.2]
    exact h.calls g hg.1
  · intro hne
    by_cases htag : t.userdata = .handshake
    · have hown : .handshake ∈ t.tags := by simp [Task.tags, htag]
      obtain ⟨htype, hprefix⟩ := hhandled.sends hwell htag (hfresh _ hown) hne
      exact ⟨t, a, htag, htype, hprefix⟩
    · rw [hkept .handshake (Task.notMem_tags htag)] at hne ⊢
      exact h.sent hne
  · intro hmem hnot
    by_cases htag : t.userdata = .send
    · have hown : .send ∈ t.tags := by simp [Task.tags, htag]
      exact hhandled.responds hwell htag (hfresh _ hown) hnot
    · rw [htags, List.mem_append] at hmem
      have hold := hmem.resolve_right (Task.notMem_tags htag)
      have hresponded := h.responded hold (by rw [hrunning]; intro p hp; cases hp)
      exact hresponded.of_handled hhandled hwell htag
  · intro hreturned
    have htag := hhandled.returns hrunning hreturned
    rw [htags]
    exact List.mem_append_right _ (by simp [Task.tags, htag])

theorem Phased.of_step {i : Input} (h : Phased s) (hexec : Executor s i)
    (hstep : step s i = some s') : Phased s' := by
  have herr' := h.errNil.of_step hstep
  obtain ⟨hrunning, hstepped⟩ := stepped (h.errNil (status_of_step hstep)) hstep
  have hnot : s.status ≠ .returned := by
    rw [hrunning]
    decide
  cases hstepped with
  | readCallBack ret errno => exact h.of_quiet herr' rfl rfl rfl hrunning hnot
  | writeCallBack ret errno => exact h.of_quiet herr' rfl rfl rfl hrunning hnot
  | bodyChunk mallocOk chunk r happend =>
      obtain ⟨hstatus, hmessage⟩ := appendToResponseBody_frame happend
      exact h.of_quiet herr' rfl hstatus hmessage hrunning hnot
  | select ready hselect => exact h.of_quiet herr' rfl rfl rfl hrunning hnot
  | selectPanics ready p hselect =>
      exact h.of_quiet herr' rfl rfl rfl hrunning (by intro hp; cases hp)
  | task t a s' hhandled => exact h.of_handled hrunning herr' hexec hhandled

theorem phased_run {inputs : List Input} (h : Phased s) (hexec : AtEach step Executor s inputs)
    (hrun : run step s inputs = some s') : Phased s' :=
  run_invariant_of_atEach (fun _ _ _ hinv hret hstep => hinv.of_step hret hstep) h hexec hrun

/-! ## A task that was handled is left alone -/

/-- What was used for a returned task, and called in a returned phase, stays as it was. -/
theorem Phased.keeps {i : Input} (h : Phased s) (hexec : Executor s i)
    (hstep : step s i = some s') (hpolled : .polled t ∈ s.log) :
    .polled t ∈ s'.log ∧ usesOf t s'.log = usesOf t s.log ∧
      ∀ g ∈ returnedTags s.log, g ∈ returnedTags s'.log ∧ callsOf g s'.log = callsOf g s.log := by
  obtain ⟨-, hstepped⟩ := stepped (h.errNil (status_of_step hstep)) hstep
  cases hstepped with
  | task u a s' hhandled =>
      have hret : Returnable s u := hexec
      have htags := hhandled.returnedTags hret.wellTyped
      have hrelay := h.relay.of_handled hret hhandled
      obtain ⟨es, hlog, huses, hcalls⟩ := hhandled.calls hret.wellTyped
      have htu : t ≠ u := by
        rintro rfl
        exact hret.id_ne hpolled rfl
      rw [htags, hlog]
      refine ⟨List.mem_append_left es hpolled, ?_, ?_⟩
      · rw [usesOf_append, huses t htu, List.append_nil]
      · intro g hg
        have hnew : g ∉ u.tags := fun hmem => tag_notMem hrelay htags hmem hg
        refine ⟨List.mem_append_left u.tags hg, ?_⟩
        rw [callsOf_append, hcalls g hnew, List.append_nil]
  | _ => exact ⟨hpolled, rfl, fun g hg => ⟨hg, rfl⟩⟩

theorem kept_run {inputs : List Input} (h : Phased s) (hexec : AtEach step Executor s inputs)
    (hrun : run step s inputs = some s') (hpolled : .polled t ∈ s.log) :
    usesOf t s'.log = usesOf t s.log ∧
      ∀ g ∈ returnedTags s.log, callsOf g s'.log = callsOf g s.log := by
  induction inputs generalizing s with
  | nil =>
      cases hrun
      exact ⟨rfl, fun _ _ => rfl⟩
  | cons i inputs ih =>
      obtain ⟨m, hm, hrest⟩ := run_cons_eq_some.1 hrun
      obtain ⟨hpolled', huses, hcalls⟩ := h.keeps hexec.1 hm hpolled
      obtain ⟨huses', hcalls'⟩ := ih (h.of_step hexec.1 hm) (hexec.2 m hm) hrest hpolled'
      refine ⟨huses'.trans huses, ?_⟩
      intro g hg
      obtain ⟨hg', hcall⟩ := hcalls g hg
      exact (hcalls' g hg').trans hcall

/-- A case that does not panic frees its task, and uses its handle to the end. -/
theorem Handled.uses (h : Handled t a s s') (hphased : Phased s) (hret : Returnable s t)
    (hnot : ∀ p, s'.status ≠ .panicked p) :
    usesOf t s'.log = [.freeTask t] ∨
      t.userdata = .handshake ∧ usesOf t s'.log = [.value t .clientConn, .freeTask t] ∧
        callsOf .handshake s'.log = handshakeCalls t a ∨
      t.userdata = .send ∧ usesOf t s'.log = [.value t .response, .freeTask t] ∧
        callsOf .send s'.log = sendCalls t a := by
  have hwell := hret.wellTyped
  have hunused : usesOf t s.log = [] := hphased.uses t fun hmem => hret.id_ne hmem rfl
  have hfresh : ∀ g ∈ t.tags, callsOf g s.log = [] := fun _ hg =>
    hphased.callsOf_eq_nil hret h hg
  cases h with
  | background htag =>
      left
      rw [GetState.emits, usesOf_append, hunused]
      simp [usesOf, Event.task?]
  | failed => exact absurd rfl (hnot requestFailed)
  | notSent => exact absurd rfl (hnot _)
  | noReason htag hpasses p hreason => exact absurd rfl (hnot p)
  | sent htag hpasses hres =>
      right
      left
      rw [GetState.emits, usesOf_append, callsOf_append, hunused,
        hfresh .handshake (by simp [Task.tags, htag]), callsOf_sent hwell htag hpasses hres,
        handshakeComplaints_eq hwell htag hpasses]
      refine ⟨htag, ?_, rfl⟩
      simp [usesOf, sendEvents, Event.task?]
  | responded htag hpasses message hreason =>
      right
      right
      rw [GetState.emits, usesOf_append, callsOf_append, hunused,
        hfresh .send (by simp [Task.tags, htag]), callsOf_responded hwell htag hpasses,
        sendComplaints_eq hwell htag hpasses]
      refine ⟨htag, ?_, rfl⟩
      rw [List.nil_append, List.nil_append, ← List.cons_append, usesOf_append,
        usesOf_bodyEvents]
      simp [usesOf, reasonEvents, Event.task?]
  | returned htag hpasses =>
      left
      rw [GetState.emits, usesOf_append, hunused, respBodyComplaints_eq hwell htag hpasses]
      simp [usesOf, returnEvents, Event.task?]

/-! ## The discipline of a request -/

/-- The clients a request was sent on. -/
def sentOn (log : List Event) : List (Option ℕ) :=
  log.filterMap fun e => match e with
    | .send client => some client
    | _ => none

def freedClients (log : List Event) : List (Option ℕ) :=
  log.filterMap fun e => match e with
    | .freeClient client => some client
    | _ => none

def freedResponses (log : List Event) : List (Option ℕ) :=
  log.filterMap fun e => match e with
    | .freeResponse resp => some resp
    | _ => none

/-- Tagged tasks are out one at a time and come back in the order of the phases; the
request is sent at most once, on the client of the handshake; `Get` returns after the body,
with what it read from the response. -/
structure Disciplined (s : GetState) : Prop where
  oneOut : ∀ log, log <+: s.log → ∃ out : Option (ExampleId × ℕ),
    pushedTasks log = returnedTasks log ++ out.toList
  order : returnedTags s.log <+: stages
  sentOnce : sentOn s.log = [] ∨ ∃ h, h.userdata = .handshake ∧ h.type = .clientConn ∧
    .value h .clientConn ∈ s.log ∧ sentOn s.log = [h.value]
  returned : s.status = .returned → returnedTags s.log = stages ∧
    ∃ x phrase len, x.userdata = .send ∧ x.type = .response ∧ .value x .response ∈ s.log ∧
      .status x.value s.response.status ∈ s.log ∧ .reasonPhrase x.value phrase len ∈ s.log ∧
      stringOf phrase len = .ok s.response.message

/-- A task that was handled: freed once, its value taken at most once and before that, and
the handle that was its value freed once. -/
structure Settled (t : Task) (log : List Event) : Prop where
  task : usesOf t log = [.freeTask t] ∨ ∃ kind, usesOf t log = [.value t kind, .freeTask t]
  client : .value t .clientConn ∈ log → freedClients log = [t.value]
  response : .value t .response ∈ log → freedResponses log = [t.value]

/-- Every task that `Get` handled without a panic is settled when the run ends. -/
def TasksSettled (start : GetState) (inputs : List Input) (s : GetState) : Prop :=
  ∀ pre t a post after, inputs = pre ++ .task t a :: post →
    run step start (pre ++ [.task t a]) = some after → (∀ p, after.status ≠ .panicked p) →
      Settled t s.log

/-- What a projection finds in the log it finds in the calls of its case. -/
theorem filterMap_callsOf {β : Type} {f : Event → Option β} {g : ExampleId}
    (hf : ∀ e, f e ≠ none → e.case? = some g) (log : List Event) :
    log.filterMap f = (callsOf g log).filterMap f := by
  induction log with
  | nil => rfl
  | cons e log ih =>
      by_cases hcase : e.case? = some g
      · have hcalls : callsOf g (e :: log) = e :: callsOf g log :=
          List.filter_cons_of_pos (by simpa using hcase)
        rw [hcalls, List.filterMap_cons, List.filterMap_cons, ih]
      · have hcalls : callsOf g (e :: log) = callsOf g log :=
          List.filter_cons_of_neg (by simpa using hcase)
        have hnone : f e = none := by
          by_contra hne
          exact hcase (hf e hne)
        rw [hcalls, List.filterMap_cons_none hnone, ih]

theorem sentOn_eq (log : List Event) : sentOn log = sentOn (callsOf .handshake log) := by
  apply filterMap_callsOf
  intro e he
  cases e <;> first | rfl | exact absurd rfl he

theorem freedClients_eq (log : List Event) :
    freedClients log = freedClients (callsOf .handshake log) := by
  apply filterMap_callsOf
  intro e he
  cases e <;> first | rfl | exact absurd rfl he

theorem freedResponses_eq (log : List Event) :
    freedResponses log = freedResponses (callsOf .send log) := by
  apply filterMap_callsOf
  intro e he
  cases e <;> first | rfl | exact absurd rfl he

theorem mem_of_mem_callsOf {e : Event} {g : ExampleId} (h : e ∈ callsOf g log) : e ∈ log :=
  List.mem_of_mem_filter h

theorem Phased.disciplined (h : Phased s) : Disciplined s where
  oneOut log hlog := by
    obtain ⟨lap, hlap⟩ := h.relay
    exact one_flying hlap (hlog.filterMap _)
  order := h.relay.order
  sentOnce := by
    rw [sentOn_eq]
    by_cases hnone : callsOf .handshake s.log = []
    · rw [hnone]
      exact Or.inl rfl
    · obtain ⟨x, a, hx, htype, hcalls⟩ := h.sent hnone
      have hmem := fun e => @mem_of_mem_callsOf s.log e .handshake
      generalize callsOf .handshake s.log = calls at hnone hcalls hmem
      have hcut : calls ∈ (handshakeCalls x a).inits := (List.mem_inits _ _).2 hcalls
      simp only [handshakeCalls, List.inits, List.map_cons, List.map_nil, List.mem_cons,
        List.not_mem_nil, or_false] at hcut
      rcases hcut with rfl | rfl | rfl | rfl | rfl
      · exact absurd rfl hnone
      · exact Or.inl rfl
      · exact Or.inr ⟨x, hx, htype, hmem _ (by simp), rfl⟩
      · exact Or.inr ⟨x, hx, htype, hmem _ (by simp), rfl⟩
      · exact Or.inr ⟨x, hx, htype, hmem _ (by simp), rfl⟩
  returned hreturned := by
    have hall : returnedTags s.log = stages := by
      have hlast : ∀ tags ∈ stages.inits, .respBody ∈ tags → tags = stages := by decide
      exact hlast _ ((List.mem_inits _ _).2 h.relay.order) (h.returned hreturned)
    refine ⟨hall, ?_⟩
    obtain ⟨x, a, message, hx, htype, -, hcalls, hstatus, hreason, hmessage⟩ :=
      h.responded (by rw [hall]; decide) (by rw [hreturned]; intro p hp; cases hp)
    have hmem : ∀ e ∈ sendCalls x a, e ∈ s.log := by
      intro e he
      rw [← hcalls] at he
      exact mem_of_mem_callsOf he
    refine ⟨x, a.reasonPhrase, a.reasonPhraseLen, hx, htype, hmem _ (by simp [sendCalls]), ?_,
      hmem _ (by simp [sendCalls]), ?_⟩
    · rw [hstatus]
      exact hmem _ (by simp [sendCalls])
    · rw [hmessage]
      exact hreason

theorem settled_of_uses (huses : usesOf t log = [.freeTask t] ∨
      t.userdata = .handshake ∧ usesOf t log = [.value t .clientConn, .freeTask t] ∧
        callsOf .handshake log = handshakeCalls t a ∨
      t.userdata = .send ∧ usesOf t log = [.value t .response, .freeTask t] ∧
        callsOf .send log = sendCalls t a) : Settled t log := by
  have hvalue : ∀ kind, .value t kind ∈ log → .value t kind ∈ usesOf t log := fun kind hmem =>
    List.mem_filter.2 ⟨hmem, by simp [Event.task?]⟩
  rcases huses with hfree | ⟨-, hclient, hcalls⟩ | ⟨-, hresponse, hcalls⟩
  · refine ⟨Or.inl hfree, ?_, ?_⟩
    · intro hmem
      have hused := hvalue _ hmem
      rw [hfree] at hused
      simp at hused
    · intro hmem
      have hused := hvalue _ hmem
      rw [hfree] at hused
      simp at hused
  · refine ⟨Or.inr ⟨_, hclient⟩, ?_, ?_⟩
    · intro _
      rw [freedClients_eq, hcalls]
      rfl
    · intro hmem
      have hused := hvalue _ hmem
      rw [hclient] at hused
      simp at hused
  · refine ⟨Or.inr ⟨_, hresponse⟩, ?_, ?_⟩
    · intro hmem
      have hused := hvalue _ hmem
      rw [hresponse] at hused
      simp at hused
    · intro _
      rw [freedResponses_eq, hcalls]
      rfl

/-- A task of a run was handled somewhere in it, and the run went on from there. -/
theorem exists_handled {start : GetState} {pre post : List Input} (h : Phased start)
    (hexec : AtEach step Executor start (pre ++ .task t a :: post))
    (hrun : run step start (pre ++ .task t a :: post) = some s) :
    ∃ before after, run step start (pre ++ [.task t a]) = some after ∧ Phased before ∧
      Returnable before t ∧ Handled t a before after ∧ Phased after ∧
      AtEach step Executor after post ∧ run step after post = some s := by
  obtain ⟨hexecPre, hexecRest⟩ := atEach_append hexec
  obtain ⟨before, hbefore, hrest⟩ := run_append_eq_some.1 hrun
  obtain ⟨after, hstep, hpost⟩ := run_cons_eq_some.1 hrest
  have hphased : Phased before := phased_run h hexecPre hbefore
  obtain ⟨hret, hexecPost⟩ := hexecRest before hbefore
  obtain ⟨-, hstepped⟩ := stepped (hphased.errNil (status_of_step hstep)) hstep
  cases hstepped with
  | task t a after hhandled =>
      refine ⟨before, after, ?_, hphased, hret, hhandled, hphased.of_step hret hstep,
        hexecPost after hstep, hpost⟩
      exact run_append_eq_some.2 ⟨before, hbefore, run_cons_eq_some.2 ⟨after, hstep, rfl⟩⟩

/-- What the case of a handled task called is what was called in that case at the end. -/
theorem Handled.callsOf_run {post : List Input} (h : Handled t a s s')
    (hwell : t.WellTyped) (hphased : Phased s') (hexec : AtEach step Executor s' post)
    {last : GetState} (hrun : run step s' post = some last) :
    usesOf t last.log = usesOf t s'.log ∧
      ∀ g, t.userdata = g → g ≠ .notSet → callsOf g last.log = callsOf g s'.log := by
  obtain ⟨rest, hlog, -⟩ := h.launches hwell
  have hpolled : .polled t ∈ s'.log := by
    rw [hlog]
    simp
  obtain ⟨huses, hcalls⟩ := kept_run hphased hexec hrun hpolled
  refine ⟨huses, ?_⟩
  intro g hg hne
  apply hcalls
  rw [h.returnedTags hwell, Task.tags, if_neg (by rwa [hg]), hg]
  exact List.mem_append_right _ (List.mem_singleton_self g)

theorem tasksSettled {start : GetState} {inputs : List Input} (h : Phased start)
    (hexec : AtEach step Executor start inputs) (hrun : run step start inputs = some s) :
    TasksSettled start inputs s := by
  rintro pre t a post after rfl hafter hnot
  obtain ⟨before, after', hafter', hphased, hret, hhandled, hphased', hexecPost, hpost⟩ :=
    exists_handled h hexec hrun
  rw [hafter] at hafter'
  cases hafter'
  obtain ⟨huses, hown⟩ := hhandled.callsOf_run hret.wellTyped hphased' hexecPost hpost
  apply settled_of_uses (a := a)
  rw [huses]
  rcases hhandled.uses hphased hret hnot with hfree | ⟨htag, hclient, hall⟩ |
    ⟨htag, hresponse, hall⟩
  · exact Or.inl hfree
  · exact Or.inr (Or.inl ⟨htag, hclient, (hown _ htag (by decide)).trans hall⟩)
  · exact Or.inr (Or.inr ⟨htag, hresponse, (hown _ htag (by decide)).trans hall⟩)

/-! ## The handles -/

/-- The client of a handshake and the response of a send task are taken, and freed once,
unless their case panics with the handle: where the send task is refused, or the reason
phrase cannot be sliced. No other values are taken for a client or a response. -/
structure HandlesSettled (inputs : List Input) (s : GetState) : Prop where
  obtained : ∀ t kind, .value t kind ∈ s.log → TakenFrom inputs t kind
  client : ∀ pre t a post, inputs = pre ++ .task t a :: post → t.userdata = .handshake →
    t.type = .clientConn → .value t .clientConn ∈ s.log ∧
      (a.sendRes = .ok ∧ freedClients s.log = [t.value] ∨
        a.sendRes ≠ .ok ∧ s.status = .panicked (.plain "error send\n") ∧
          freedClients s.log = [])
  response : ∀ pre t a post, inputs = pre ++ .task t a :: post → t.userdata = .send →
    t.type = .response → .value t .response ∈ s.log ∧
      ((∃ message, stringOf a.reasonPhrase a.reasonPhraseLen = .ok message) ∧
          freedResponses s.log = [t.value] ∨
        ∃ p, stringOf a.reasonPhrase a.reasonPhraseLen = .error p ∧ s.status = .panicked p ∧
          freedResponses s.log = [])

/-- A handshake with a client makes every call of its case, or panics before the last. -/
theorem Handled.client_calls (h : Handled t a s s') (hwell : t.WellTyped)
    (htag : t.userdata = .handshake) (htype : t.type = .clientConn)
    (hfresh : callsOf .handshake s.log = []) :
    a.sendRes = .ok ∧ callsOf .handshake s'.log = handshakeCalls t a ∨
      a.sendRes ≠ .ok ∧ s'.status = .panicked (.plain "error send\n") ∧
        callsOf .handshake s'.log =
          [.value t .clientConn, .send t.value, .push a.sendTask .send a.sendRes] := by
  cases h with
  | background hnone => rw [htag] at hnone; cases hnone
  | failed _ text e herror => rw [htype] at herror; cases herror
  | sent _ hpasses hres =>
      refine .inl ⟨hres, ?_⟩
      rw [GetState.emits, callsOf_append, hfresh, callsOf_sent hwell htag hpasses hres]
      rfl
  | notSent _ hpasses hres =>
      refine .inr ⟨hres, rfl, ?_⟩
      rw [GetState.emits, callsOf_append, hfresh, handshakeComplaints_eq hwell htag hpasses]
      rfl
  | noReason hsend => rw [htag] at hsend; cases hsend
  | responded hsend => rw [htag] at hsend; cases hsend
  | returned hbody => rw [htag] at hbody; cases hbody

/-- A response is read to the end, or its case panics at the reason phrase. -/
theorem Handled.response_calls (h : Handled t a s s') (hwell : t.WellTyped)
    (htag : t.userdata = .send) (htype : t.type = .response)
    (hfresh : callsOf .send s.log = []) :
    (∃ message, stringOf a.reasonPhrase a.reasonPhraseLen = .ok message) ∧
        callsOf .send s'.log = sendCalls t a ∨
      ∃ p, stringOf a.reasonPhrase a.reasonPhraseLen = .error p ∧ s'.status = .panicked p ∧
        callsOf .send s'.log = [.value t .response,
          .reasonPhrase t.value a.reasonPhrase a.reasonPhraseLen, .status t.value a.status] := by
  cases h with
  | background hnone => rw [htag] at hnone; cases hnone
  | failed _ text e herror => rw [htype] at herror; cases herror
  | sent hhandshake => rw [htag] at hhandshake; cases hhandshake
  | notSent hhandshake => rw [htag] at hhandshake; cases hhandshake
  | noReason _ hpasses p hreason =>
      refine .inr ⟨p, hreason, rfl, ?_⟩
      rw [GetState.emits, callsOf_append, hfresh, sendComplaints_eq hwell htag hpasses]
      rfl
  | responded _ hpasses message hreason =>
      refine .inl ⟨⟨message, hreason⟩, ?_⟩
      rw [GetState.emits, callsOf_append, hfresh, callsOf_responded hwell htag hpasses]
      rfl
  | returned hbody => rw [htag] at hbody; cases hbody

/-- Nothing follows a panic. -/
theorem run_panicked {p : Panic} {inputs : List Input} (hpanic : s.status = .panicked p)
    (hrun : run step s inputs = some s') : s'.status = .panicked p := by
  cases inputs with
  | nil =>
      cases hrun
      exact hpanic
  | cons i inputs =>
      obtain ⟨next, hstep, -⟩ := run_cons_eq_some.1 hrun
      have hrunning := status_of_step hstep
      rw [hpanic] at hrunning
      cases hrunning

/-- What an executor promises is enough for `Get` to be type safe. -/
theorem safe_of_executor {start : GetState} {inputs : List Input} (herr : ErrNil start)
    (hexec : AtEach step Executor start inputs) : AtEach step SafeStep start inputs := by
  induction inputs generalizing start with
  | nil => trivial
  | cons i inputs ih =>
      obtain ⟨hi, hrest⟩ := hexec
      refine ⟨(safeStep_iff herr).2 fun _ => ?_, fun mid hstep => ?_⟩
      · cases i with
        | task t a => exact hi.wellTyped
        | _ => trivial
      · exact ih (herr.of_step hstep) (hrest mid hstep)

theorem handlesSettled {start : GetState} {inputs : List Input} (h : Phased start)
    (hnone : taken start.log = []) (hexec : AtEach step Executor start inputs)
    (hrun : run step start inputs = some s) : HandlesSettled inputs s where
  obtained := by
    intro t kind hmem
    have htaken : (t, kind) ∈ taken s.log := List.mem_filterMap.2 ⟨_, hmem, rfl⟩
    refine (taken_of_run h.errNil (safe_of_executor h.errNil hexec) hrun htaken).resolve_left ?_
    rw [hnone]
    simp
  client := by
    rintro pre t a post rfl htag htype
    obtain ⟨before, after, -, hphased, hret, hhandled, hphased', hexecPost, hpost⟩ :=
      exists_handled h hexec hrun
    have hwell := hret.wellTyped
    have hcalls := (hhandled.callsOf_run hwell hphased' hexecPost hpost).2 _ htag (by decide)
    have hmem : ∀ e ∈ callsOf .handshake after.log, e ∈ s.log := by
      intro e he
      rw [← hcalls] at he
      exact mem_of_mem_callsOf he
    rw [freedClients_eq, hcalls]
    rcases hhandled.client_calls hwell htag htype (hphased.callsOf_eq_nil hret hhandled
      (by simp [Task.tags, htag])) with ⟨hres, hall⟩ | ⟨hres, hpanic, hcut⟩
    · rw [hall] at hmem ⊢
      exact ⟨hmem _ (by simp [handshakeCalls]), .inl ⟨hres, rfl⟩⟩
    · rw [hcut] at hmem ⊢
      exact ⟨hmem _ (by simp), .inr ⟨hres, run_panicked hpanic hpost, rfl⟩⟩
  response := by
    rintro pre t a post rfl htag htype
    obtain ⟨before, after, -, hphased, hret, hhandled, hphased', hexecPost, hpost⟩ :=
      exists_handled h hexec hrun
    have hwell := hret.wellTyped
    have hcalls := (hhandled.callsOf_run hwell hphased' hexecPost hpost).2 _ htag (by decide)
    have hmem : ∀ e ∈ callsOf .send after.log, e ∈ s.log := by
      intro e he
      rw [← hcalls] at he
      exact mem_of_mem_callsOf he
    rw [freedResponses_eq, hcalls]
    rcases hhandled.response_calls hwell htag htype (hphased.callsOf_eq_nil hret hhandled
      (by simp [Task.tags, htag])) with ⟨hmessage, hall⟩ | ⟨p, hreason, hpanic, hcut⟩
    · rw [hall] at hmem ⊢
      exact ⟨hmem _ (by simp [sendCalls]), .inl ⟨hmessage, rfl⟩⟩
    · rw [hcut] at hmem ⊢
      exact ⟨hmem _ (by simp), .inr ⟨p, hreason, run_panicked hpanic hpost, rfl⟩⟩

/-- Under an executor that keeps its promise, `Get` keeps to its phases and uses each task
and each handle once, but for the handle in its hands when a case panics. -/
theorem get_disciplined (fd : ℤ) (handshakeTask : ℕ) (handshakeRes : Code)
    (inputs : List Input) (s : GetState)
    (hrun : run step (GetState.start fd handshakeTask handshakeRes) inputs = some s)
    (hexec : AtEach step Executor (GetState.start fd handshakeTask handshakeRes) inputs) :
    Disciplined s ∧
      TasksSettled (GetState.start fd handshakeTask handshakeRes) inputs s ∧
      HandlesSettled inputs s := by
  have hstart := phased_start fd handshakeTask handshakeRes
  exact ⟨(phased_run hstart hexec hrun).disciplined, tasksSettled hstart hexec hrun,
    handlesSettled hstart rfl hexec hrun⟩

def okAnswers : Answers :=
  { errorCode := 0, errorDetails := [], sendTask := 1, sendRes := .ok,
    reasonPhrase := some (literal "OK"), reasonPhraseLen := 2, status := 200,
    headers := [(literal "Server", literal "h")], foreachTask := 2, foreachRes := .ok }

def connectedTask : Task :=
  { id := 0, userdata := .handshake, type := .clientConn, value := some 7 }

def respondedTask : Task :=
  { id := 1, userdata := .send, type := .response, value := some 8 }

/-- A whole request, with a background task and a select round in between. -/
def requestInputs : List Input :=
  [.task connectedTask okAnswers, .readCallBack (-1) eagain,
    .task { id := 9, userdata := .notSet, type := .empty, value := none } okAnswers,
    .select { ret := 1, read := {3}, write := ∅ }, .task respondedTask okAnswers,
    .bodyChunk true (literal "hi"),
    .task { id := 2, userdata := .respBody, type := .empty, value := none } okAnswers]

theorem get_disciplined_request :
    ∃ s, run step (GetState.start 3 0 .ok) requestInputs = some s ∧ s.status = .returned ∧
      Disciplined s ∧ Settled connectedTask s.log ∧ Settled respondedTask s.log ∧
      freedClients s.log = [some 7] ∧ freedResponses s.log = [some 8] := by
  obtain ⟨s, hrun, hreturned⟩ : ∃ s, run step (GetState.start 3 0 .ok) requestInputs = some s ∧
      s.status = .returned := ⟨_, rfl, rfl⟩
  obtain ⟨sent, hsent, hsending⟩ : ∃ s, run step (GetState.start 3 0 .ok)
      ([] ++ [.task connectedTask okAnswers]) = some s ∧ s.status = .running := ⟨_, rfl, rfl⟩
  obtain ⟨got, hgot, hreading⟩ : ∃ s, run step (GetState.start 3 0 .ok)
      (requestInputs.take 4 ++ [.task respondedTask okAnswers]) = some s ∧
        s.status = .running := ⟨_, rfl, rfl⟩
  have hexec : AtEach step Executor (GetState.start 3 0 .ok) requestInputs := by decide
  obtain ⟨hdisciplined, hsettled, hhandles⟩ :=
    get_disciplined 3 0 .ok requestInputs s hrun hexec
  have hclient := (hhandles.client [] connectedTask okAnswers _ rfl rfl rfl).2
  have hresponse := (hhandles.response (requestInputs.take 4) respondedTask okAnswers _ rfl rfl
    rfl).2
  refine ⟨s, hrun, hreturned, hdisciplined, ?_, ?_, ?_, ?_⟩
  · exact hsettled _ _ _ _ sent rfl hsent (by simp [hsending])
  · exact hsettled _ _ _ _ got rfl hgot (by simp [hreading])
  · exact (hclient.resolve_right fun hrefused => hrefused.1 rfl).2
  · refine (hresponse.resolve_right ?_).2
    rintro ⟨p, hreason, -⟩
    cases hreason

/-- The client and the response are freed once when they were obtained. -/
def HandlesFreed (log : List Event) : Prop :=
  ∀ t, (.value t .clientConn ∈ log → freedClients log = [t.value]) ∧
    (.value t .response ∈ log → freedResponses log = [t.value])

/-- A send task is refused after the handshake, a reason phrase is null after the send: `Get`
panics with the client, and with the response, in its hands. -/
theorem not_handlesFreed_onPanic :
    (∃ s, run step (GetState.start 3 0 .ok) [.task connectedTask refusedAnswers] = some s ∧
        AtEach step Executor (GetState.start 3 0 .ok) [.task connectedTask refusedAnswers] ∧
        ¬ HandlesFreed s.log) ∧
      ∃ s, run step (GetState.start 3 0 .ok)
          [.task connectedTask okAnswers, .task respondedTask refusedAnswers] = some s ∧
        AtEach step Executor (GetState.start 3 0 .ok)
          [.task connectedTask okAnswers, .task respondedTask refusedAnswers] ∧
        ¬ HandlesFreed s.log := by
  refine ⟨⟨_, rfl, by decide, ?_⟩, ⟨_, rfl, by decide, ?_⟩⟩
  · intro h
    have hfreed := (h connectedTask).1 (by decide)
    exact absurd hfreed (by decide)
  · intro h
    have hfreed := (h respondedTask).2 (by decide)
    exact absurd hfreed (by decide)

end LlgoExamples.Hyper
