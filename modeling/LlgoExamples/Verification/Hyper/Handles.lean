import LlgoExamples.Verification.Hyper.CProgram
import LlgoExamples.Verification.Hyper.Phases

/-! # The handles of a C program

What a program got from hyper and from `malloc` is entered in a ledger: it is used while it
is live and released once. Which handles are held between two inputs follows from how far
the program has got, and so does which task is out. -/

namespace LlgoExamples.Hyper.C

open Machine Ledger

variable {L : Type} {s s' : State L} {t : Task} {es es' : List Event}

/-! ## The ledger -/

inductive Resource where
  | exec
  | conn
  | uploadBuf
  | task (id : ℕ)
  | handle (kind : ValueKind) (value : Option ℕ)
  | body (body : Option ℕ)
  | buf (buf : Option ℕ)
  deriving DecidableEq, Repr

/-- A task comes with `hyper_executor_poll`, and its value with `hyper_task_value`. -/
def callEntries : Hyper.Event → List (Entry Resource)
  | .printf _ _ => []
  | .push _ _ _ => [.use .exec]
  | .polled t => [.use .exec, .acquire (.task t.id)]
  | .value t kind => [.use (.task t.id), .acquire (.handle kind t.value)]
  | .freeTask t => [.release (.task t.id)]
  | .send client => [.use (.handle .clientConn client)]
  | .freeClient client => [.release (.handle .clientConn client)]
  | .reasonPhrase resp _ _ => [.use (.handle .response resp)]
  | .status resp _ => [.use (.handle .response resp)]
  | .foreachBody resp => [.use (.handle .response resp)]
  | .freeResponse resp => [.release (.handle .response resp)]
  | .freeError err => [.release (.handle .error err)]
  | .freeExec => [.release .exec]

def entries : Event → List (Entry Resource)
  | .call e => callEntries e
  | .request _ => []
  | .onInformational => []
  | .setBody => [.use .uploadBuf]
  | .select _ _ _ => [.use .conn]
  | .write _ => []
  | .freeConn => [.release .conn]
  | .pollReady _ => [.use .uploadBuf]
  | .pollError => [.use .uploadBuf]
  | .responseBody resp body => [.use (.handle .response resp), .acquire (.body (some body))]
  | .bodyData body => [.use (.body body)]
  | .bufValue t => [.use (.task t.id), .acquire (.buf t.value)]
  | .freeBuf buf => [.release (.buf buf)]
  | .freeBody body => [.release (.body body)]
  | .freeUploadBuf => [.release .uploadBuf]

/-- The entries of a log, after what `main` acquires before it enters the loop. -/
def ledger (opened : List Resource) (log : List Event) : List (Entry Resource) :=
  opened.map .acquire ++ log.flatMap entries

theorem entries_headerEvents (headers : List (Bytes × Bytes)) :
    (headerEvents headers).flatMap entries = [] := by
  induction headers with
  | nil => rfl
  | cons header headers ih => exact ih

theorem entries_request (requests : List RequestEvent) :
    (requests.map Event.request).flatMap entries = [] := by
  induction requests with
  | nil => rfl
  | cons e requests ih => exact ih

/-! ## The tasks that are out -/

/-- The tagged tasks that were pushed and have not been returned. -/
def inFlight (log : List Event) : List (ExampleId × ℕ) :=
  Relay.out (moves (calls log))

/-- The tags of the tasks returned so far, in order. -/
def returned (log : List Event) : List ExampleId :=
  returnedTags (calls log)

/-- An executor returns a tagged task only while it has it. -/
def Executor {K A : Type} (s : State L) : Input K A → Prop
  | .task t _ => t.userdata ≠ .notSet → (t.userdata, t.id) ∈ inFlight s.log
  | _ => True

instance {K A : Type} (s : State L) : ∀ i : Input K A, Decidable (Executor s i)
  | .task t _ =>
      inferInstanceAs (Decidable (t.userdata ≠ .notSet → (t.userdata, t.id) ∈ inFlight s.log))
  | .readCb _ _ => isTrue trivial
  | .writeCb _ _ => isTrue trivial
  | .callBack _ => isTrue trivial
  | .select _ => isTrue trivial

/-- Nothing is pushed and nothing is returned. -/
def Still (es : List Event) : Prop :=
  moves (calls es) = []

theorem still_headerEvents (headers : List (Bytes × Bytes)) : Still (headerEvents headers) := by
  induction headers with
  | nil => rfl
  | cons header headers ih => exact ih

theorem still_request (requests : List RequestEvent) :
    Still (requests.map Event.request) := by
  induction requests with
  | nil => rfl
  | cons e requests ih => exact ih

theorem Still.append (h : Still es) (h' : Still es') : Still (es ++ es') := by
  rw [Still, calls_append, moves_append, h, h']
  rfl

theorem Still.inFlight (h : Still es) (log : List Event) :
    C.inFlight (log ++ es) = C.inFlight log := by
  rw [C.inFlight, calls_append, moves_append, h, List.append_nil]
  rfl

theorem Still.returned (h : Still es) (log : List Event) :
    C.returned (log ++ es) = C.returned log := by
  rw [C.returned, calls_append, returnedTags_append]
  have hnone : returnedTags (calls es) = [] := by
    rw [returnedTags, returnedTasks, h]
    rfl
  rw [hnone, List.append_nil]
  rfl

theorem inFlight_launch {log : List Event} {g : ExampleId} {id : ℕ}
    (h : moves (calls es) = [.launch g id]) :
    inFlight (log ++ es) = (g, id) :: inFlight log := by
  rw [inFlight, calls_append, moves_append, h, Relay.out_launch]
  rfl

theorem returned_launch {log : List Event} {g : ExampleId} {id : ℕ}
    (h : moves (calls es) = [.launch g id]) : returned (log ++ es) = returned log := by
  rw [returned, calls_append, returnedTags_append]
  have hnone : returnedTags (calls es) = [] := by
    rw [returnedTags, returnedTasks, h]
    rfl
  rw [hnone, List.append_nil]
  rfl

/-- A case that pushes one task launches it or, where the push was refused, nothing. -/
theorem still_or_launch (task : ℕ) (g : ExampleId) (res : Code)
    (h : moves (calls es) = moves [.push task g res]) :
    Still es ∨ ∃ id, moves (calls es) = [.launch g id] := by
  rcases moves_push task g res with hnone | hlaunch
  · exact .inl (h.trans hnone)
  · exact .inr ⟨task, h.trans hlaunch⟩

theorem still_polled (htag : t.userdata = .notSet) : Still [.call (.polled t)] :=
  List.filterMap_cons_none (if_pos htag)

theorem moves_polled (htag : t.userdata ≠ .notSet) :
    moves (calls [.call (.polled t)]) = [.finish t.userdata t.id] :=
  List.filterMap_cons_some (if_neg htag)

theorem inFlight_polled (log : List Event) (htag : t.userdata ≠ .notSet) :
    inFlight (log ++ [.call (.polled t)]) = (inFlight log).erase (t.userdata, t.id) := by
  rw [inFlight, calls_append, moves_append, moves_polled htag, Relay.out_finish]
  rfl

theorem returned_polled (log : List Event) (htag : t.userdata ≠ .notSet) :
    returned (log ++ [.call (.polled t)]) = returned log ++ [t.userdata] := by
  have hone : returnedTags (calls [.call (.polled t)]) = [t.userdata] := by
    rw [returnedTags, returnedTasks, moves_polled htag]
    rfl
  rw [returned, calls_append, returnedTags_append, hone]
  rfl

/-! ## What a program promises -/

namespace Program

variable {p : Program}

/-- What a program says of its handles: `Stage` gives the tag of the task that may be out
after these tags were returned, and `held` what is held between two inputs. -/
structure Plan (p : Program) where
  opened : List Resource
  held : p.Locals → List Resource
  Stage : List ExampleId → ExampleId → p.Locals → Prop

variable {plan : Plan p} {s s' : State p.Locals}

/-- The outcomes of a case, after the tags `ts` and then the tag of `t` were returned: the
program goes on to the next stage, or it ends. -/
inductive Turn (plan : Plan p) (ts : List ExampleId) (t : Task) (s s' : State p.Locals) :
    Prop where
  | next (es : List Event) (g : ExampleId) (hlog : s'.log = s.log ++ es)
      (hended : s'.ended = none) (hstage : plan.Stage (ts ++ [t.userdata]) g s'.locals)
      (hmoves : Still es ∨ ∃ id, moves (calls es) = [.launch g id])
      (howned : run post (.task t.id :: plan.held s.locals) (es.flatMap entries) =
        some (plan.held s'.locals))
  | stopped (es : List Event) (live : List Resource) (hlog : s'.log = s.log ++ es)
      (hended : s'.ended ≠ none) (hmoves : Still es)
      (howned : run post (.task t.id :: plan.held s.locals) (es.flatMap entries) = some live)
      (hexit : s'.ended = some (.exit 0) → live = [])

/-- A function that hyper calls leaves the tasks and the handles as they are. -/
structure Undisturbed (plan : Plan p) (s s' : State p.Locals) : Prop where
  ended : s'.ended = none
  stage : ∀ ts g, plan.Stage ts g s.locals → plan.Stage ts g s'.locals
  log : ∃ es, s'.log = s.log ++ es ∧ Still es ∧
    run post (plan.held s.locals) (es.flatMap entries) = some (plan.held s'.locals)

structure Follows (p : Program) (plan : Plan p) : Prop where
  exec : ∀ l, .exec ∈ plan.held l
  conn : ∀ l, .conn ∈ plan.held l
  callBack : ∀ k (s : State p.Locals), s.ended = none →
    Undisturbed plan s (p.settle ((p.callBack k).run s))
  background : ∀ t a (s : State p.Locals), t.userdata = .notSet →
    p.settle ((p.handleTask t a).run s) = s.emits [.call (.freeTask t)]
  turn : ∀ ts t a (s : State p.Locals), s.ended = none → t.userdata ≠ .notSet →
    plan.Stage ts t.userdata s.locals → Turn plan ts t s (p.settle ((p.handleTask t a).run s))

/-! ## Every run -/

/-- Where a run has got to. -/
inductive Session (plan : Plan p) (s : State p.Locals) : Prop where
  | running (g : ExampleId) (hended : s.ended = none)
      (hstage : plan.Stage (returned s.log) g s.locals)
      (hflying : inFlight s.log = [] ∨ ∃ id, inFlight s.log = [(g, id)])
      (howned : Leaves (ledger plan.opened s.log) (plan.held s.locals))
  | stopped (ts : List ExampleId) (g : ExampleId) (locals : p.Locals) (live : List Resource)
      (hended : s.ended ≠ none) (hstage : plan.Stage ts g locals)
      (hreturned : returned s.log <+: ts ++ [g])
      (halone : (inFlight s.log).length ≤ 1)
      (howned : Leaves (ledger plan.opened s.log) live)
      (hexit : s.ended = some (.exit 0) → live = [])

theorem ledger_append (opened : List Resource) (log es : List Event) :
    ledger opened (log ++ es) = ledger opened log ++ es.flatMap entries := by
  rw [ledger, ledger, List.flatMap_append, List.append_assoc]

theorem Session.undisturbed (h : Session plan s) (hnone : s.ended = none)
    (hu : Undisturbed plan s s') : Session plan s' := by
  cases h with
  | stopped ts g locals live hended => exact absurd hnone hended
  | running g hended hstage hflying howned =>
      obtain ⟨es, hlog, hstill, hrun⟩ := hu.log
      refine .running g hu.ended ?_ ?_ ?_
      · rw [hlog, hstill.returned]
        exact hu.stage _ _ hstage
      · rw [hlog, hstill.inFlight]
        exact hflying
      · rw [hlog, ledger_append]
        exact howned.run hrun

/-- The one task that is out was returned. -/
theorem Session.turn {ts : List ExampleId}
    (hreturned : returned s.log = ts ++ [t.userdata]) (hflying : inFlight s.log = [])
    (howned : Leaves (ledger plan.opened s.log) (.task t.id :: plan.held s.locals))
    (hstage : plan.Stage ts t.userdata s.locals) (hturn : Turn plan ts t s s') :
    Session plan s' := by
  cases hturn with
  | next es g hlog hended hnext hmoves hrun =>
      refine .running g hended ?_ ?_ ?_
      · rcases hmoves with hstill | ⟨id, hlaunch⟩
        · rw [hlog, hstill.returned, hreturned]
          exact hnext
        · rw [hlog, returned_launch hlaunch, hreturned]
          exact hnext
      · rcases hmoves with hstill | ⟨id, hlaunch⟩
        · rw [hlog, hstill.inFlight]
          exact .inl hflying
        · rw [hlog, inFlight_launch hlaunch, hflying]
          exact .inr ⟨id, rfl⟩
      · rw [hlog, ledger_append]
        exact howned.run hrun
  | stopped es live hlog hended hstill hrun hexit =>
      refine .stopped ts t.userdata s.locals live hended hstage ?_ ?_ ?_ hexit
      · rw [hlog, hstill.returned, hreturned]
      · rw [hlog, hstill.inFlight, hflying]
        exact Nat.zero_le 1
      · rw [hlog, ledger_append]
        exact howned.run hrun

theorem Session.of_step {i : Input p.CallBack p.Answers} (hp : p.Follows plan)
    (h : Session plan s) (hexec : Executor s i) (hstep : p.step s i = some s') :
    Session plan s' := by
  obtain ⟨hnone, hstepped⟩ := stepped hstep
  have huse : ∀ r ∈ plan.held s.locals, run post (plan.held s.locals) [.use r] =
      some (plan.held s.locals) := by
    intro r hr
    rw [run_cons, post, if_pos hr]
    rfl
  cases hstepped with
  | readCb ret errno =>
      exact h.undisturbed hnone ⟨hnone, fun _ _ => id, [], (List.append_nil _).symm, rfl, rfl⟩
  | writeCb ret errno =>
      exact h.undisturbed hnone ⟨hnone, fun _ _ => id, [], (List.append_nil _).symm, rfl, rfl⟩
  | callBack k s' hcall =>
      subst hcall
      exact h.undisturbed hnone (hp.callBack k s hnone)
  | select ready hret =>
      exact h.undisturbed hnone ⟨hnone, fun _ _ => id, _, rfl, rfl, huse _ (hp.conn _)⟩
  | selectFails ready hret =>
      cases h with
      | stopped ts g locals live hended => exact absurd hnone hended
      | running g hended hstage hflying howned =>
          have hstill :
              Still [selectEvent s.connection, .call (.printf "select() error\n" [])] := rfl
          refine .stopped _ g s.locals (plan.held s.locals) (fun h => by cases h) hstage ?_ ?_ ?_ ?_
          · rw [State.emits, hstill.returned]
            exact List.prefix_append _ _
          · rw [State.emits, hstill.inFlight]
            rcases hflying with hnone | ⟨id, hone⟩
            · rw [hnone]
              exact Nat.zero_le 1
            · rw [hone]
              exact Nat.le_refl 1
          · rw [State.emits, ledger_append]
            exact howned.run (huse _ (hp.conn _))
          · intro h
            cases h
  | task t a s' hcase =>
      subst hcase
      have hpolled : run post (plan.held s.locals)
          (([.call (.polled t)] : List Event).flatMap entries) =
            some (.task t.id :: plan.held s.locals) :=
        run_cons_eq_some.2 ⟨_, if_pos (hp.exec _), rfl⟩
      by_cases htag : t.userdata = .notSet
      · rw [hp.background t a _ htag, emits_emits]
        refine h.undisturbed hnone ⟨hnone, fun _ _ => id, _, rfl, ?_, ?_⟩
        · exact (still_polled htag).append rfl
        · rw [List.flatMap_append]
          refine run_append_eq_some.2 ⟨_, hpolled, ?_⟩
          simp [entries, callEntries, post, State.emits]
      · cases h with
        | stopped ts g locals live hended => exact absurd hnone hended
        | running g hended hstage hflying howned =>
            have hin := hexec htag
            rcases hflying with hempty | ⟨id, hone⟩
            · rw [hempty] at hin
              cases hin
            · rw [hone, List.mem_singleton] at hin
              have hg : g = t.userdata := (congrArg Prod.fst hin).symm
              subst hg
              refine Session.turn (s := s.emits [.call (.polled t)]) ?_ ?_ ?_ hstage
                (hp.turn _ t a _ hnone htag hstage)
              · exact returned_polled s.log htag
              · rw [State.emits, inFlight_polled s.log htag, hone, hin]
                exact List.erase_cons_head _ _
              · rw [State.emits, ledger_append]
                exact howned.run hpolled

theorem Session.of_run {inputs : List (Input p.CallBack p.Answers)} (hp : p.Follows plan)
    (h : Session plan s) (hexec : AtEach p.step Executor s inputs)
    (hrun : run p.step s inputs = some s') : Session plan s' :=
  run_invariant_of_atEach (fun _ _ _ hs hi => hs.of_step hp hi) h hexec hrun

/-- A program enters its loop with the handshake pushed. -/
theorem session_entered (plan : Plan p) (locals : p.Locals)
    (hstage : plan.Stage [] .handshake locals)
    (hopened : run post [] (plan.opened.map .acquire) = some (plan.held locals))
    (hexec : .exec ∈ plan.held locals) (fd : ℤ) (connected : String) (host port path : CString)
    (version : Bytes) (task : ℕ) (res : Code) :
    Session plan (entered fd locals (prelude connected host port path version task res)) := by
  have hmoves : moves (calls (prelude connected host port path version task res)) =
      moves [.push task .handshake res] := by
    rw [prelude]
    cases res <;> rfl
  have hreturned : returned ([] ++ prelude connected host port path version task res) = [] := by
    rcases still_or_launch task .handshake res hmoves with hstill | ⟨id, hlaunch⟩
    · exact hstill.returned []
    · exact returned_launch hlaunch
  refine .running .handshake rfl ?_ ?_ ?_
  · rw [entered, ← List.nil_append (prelude _ _ _ _ _ _ _), hreturned]
    exact hstage
  · rw [entered, ← List.nil_append (prelude _ _ _ _ _ _ _)]
    rcases still_or_launch task .handshake res hmoves with hstill | ⟨id, hlaunch⟩
    · exact .inl (hstill.inFlight [])
    · exact .inr ⟨id, inFlight_launch hlaunch⟩
  · refine ⟨plan.held locals, ?_, List.Perm.refl _⟩
    have huse : run post (plan.held locals)
        ((prelude connected host port path version task res).flatMap entries) =
          some (plan.held locals) := by
      change (post (plan.held locals) (.use .exec)).bind _ = _
      rw [post, if_pos hexec]
      rfl
    exact run_append_eq_some.2 ⟨_, hopened, huse⟩

/-- What holds of a run at any point: at most one tagged task is out, the tags come back in
their order, nothing is touched after its release or released twice, between two inputs
exactly what the plan says is held, and an exit with 0 leaves nothing. -/
structure Kept (plan : Plan p) (order : List ExampleId → Prop) (s : State p.Locals) :
    Prop where
  alone : (inFlight s.log).length ≤ 1
  order : order (returned s.log)
  owned : ∃ live, Leaves (ledger plan.opened s.log) live ∧
    (s.ended = none → live = plan.held s.locals) ∧ (s.ended = some (.exit 0) → live = [])
  wakers : s.connection.WakersKept
  cleared : s.ended = some (.exit 0) → s.connection.slots = []

theorem Session.kept {order : List ExampleId → Prop} (h : Session plan s)
    (horder : ∀ ts g locals, plan.Stage ts g locals → ∀ pre, pre <+: ts ++ [g] → order pre)
    (hsound : WakersSound s) : Kept plan order s := by
  cases h with
  | running g hended hstage hflying howned =>
      refine ⟨?_, ?_, ⟨_, howned, fun _ => rfl, ?_⟩, hsound.accounted.wakersKept, hsound.cleared⟩
      · rcases hflying with hnone | ⟨id, hone⟩
        · rw [hnone]
          exact Nat.zero_le 1
        · rw [hone]
          exact Nat.le_refl 1
      · exact horder _ _ _ hstage _ (List.prefix_append _ _)
      · intro hexit
        exact absurd hexit (not_exited hended)
  | stopped ts g locals live hended hstage hreturned halone howned hexit =>
      refine ⟨halone, horder _ _ _ hstage _ hreturned, ⟨live, howned, ?_, hexit⟩,
        hsound.accounted.wakersKept, hsound.cleared⟩
      intro hnone
      exact absurd hnone hended

end Program

end LlgoExamples.Hyper.C
