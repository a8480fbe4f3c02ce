import LlgoExamples.Library.Registers
import LlgoExamples.Verification.Sled.Equations

/-! # Clients of one database

Any number of clients call one database. A call is invoked, takes effect in one atomic
tree operation and responds, and the steps of different clients interleave freely. The
database refines a family of registers whose compare-and-swap is weak. -/

namespace LlgoExamples.Sled

open Machine

/-! ## The system -/

inductive Request where
  | setString (key val : Bytes)
  | delString (key : Bytes)
  | getString (key : Bytes)
  | casString (key oldVal newVal : Bytes) (actual : Value)
  deriving DecidableEq, Repr

inductive Reply where
  | done
  | value (v : Bytes)
  | swapped (ret : Bool) (actual : Bytes)
  deriving DecidableEq, Repr

inductive ClientState where
  | idle
  | waiting (r : Request)
  | replied (r : Request) (a : Reply)
  deriving DecidableEq, Repr

/-- `log` lists the calls in the order in which they took effect. -/
structure System (ι : Type*) where
  world : World
  client : ι → ClientState
  log : List (ι × Request × Reply)

inductive Event (ι : Type*) where
  | invoke (i : ι) (r : Request)
  | effect (i : ι)
  | respond (i : ι)
  deriving DecidableEq, Repr

/-- The effect of one call, with a non-nil `actual` for swaps. -/
def serve (alloc : Supply) (w : World) : Request → Option (Reply × World)
  | .setString key val => some (.done, setString key val w)
  | .delString key => some (.done, delString key w)
  | .getString key =>
      let (v, w) := getString alloc key w
      some (.value v.str, w)
  | .casString key oldVal newVal actual =>
      (casString alloc key oldVal newVal (some actual) w).bind fun r =>
        r.actual.map fun a => (.swapped r.ret a.str, r.world)

variable {ι : Type*} [DecidableEq ι]

def System.step (alloc : Supply) (s : System ι) : Event ι → Option (System ι)
  | .invoke i r =>
      match s.client i with
      | .idle => some { s with client := Function.update s.client i (.waiting r) }
      | _ => none
  | .effect i =>
      match s.client i with
      | .waiting r =>
          (serve alloc s.world r).map fun (a, w) =>
            { world := w
              client := Function.update s.client i (.replied r a)
              log := s.log ++ [(i, r, a)] }
      | _ => none
  | .respond i =>
      match s.client i with
      | .replied _ _ => some { s with client := Function.update s.client i .idle }
      | _ => none

/-- All clients are idle on a database with any content. -/
def System.start (w : World) : System ι :=
  ⟨w, fun _ => .idle, []⟩

/-! ## Refinement of the registers -/

/-- What a call did to the registers. A delete writes the empty string. -/
def action : Request → Reply → Registers.Action Bytes Bytes
  | .setString key val, _ => .write key val
  | .delString key, _ => .write key []
  | .getString key, .value v => .read key v
  | .getString key, _ => .read key []
  | .casString key oldVal newVal _, .swapped true _ => .swap key oldVal newVal
  | .casString key _ _ _, .swapped false actual => .miss key actual
  | .casString key _ _ _, _ => .miss key []

def actions (log : List (ι × Request × Reply)) : List (Registers.Action Bytes Bytes) :=
  log.map fun (_, r, a) => action r a

variable {alloc : Supply} {w w' : World} {s s' : System ι} {i : ι}

theorem view_update (key : Bytes) (o : Option Bytes) :
    World.view { w with tree := Function.update w.tree key o } =
      Function.update w.view key (o.getD []) := by
  funext k
  by_cases hk : k = key
  · subst hk
    simp [World.view]
  · simp [World.view, hk]

theorem view_eq_of_tree_eq (h : w'.tree = w.tree) : w'.view = w.view := by
  funext k
  rw [World.view, World.view, h]

/-- A swap with a non-nil `actual` succeeds where the old value is current, as the wrapper
reads it, and otherwise reports the current value. -/
theorem serve_casString (alloc : Supply) (w : World) (key oldVal newVal : Bytes)
    (actual : Value) :
    (w.tree key = optSlice oldVal ∧
      serve alloc w (.casString key oldVal newVal actual) = some (.swapped true [],
        { w with tree := Function.update w.tree key (optSlice newVal) })) ∨
    (∃ w', serve alloc w (.casString key oldVal newVal actual) =
      some (.swapped false (w.view key), w') ∧ w'.tree = w.tree) := by
  by_cases h : w.tree key = optSlice oldVal
  · left
    refine ⟨h, ?_⟩
    simp [serve, casString, casValue_of_eq alloc key oldVal newVal w actual h]
  · right
    obtain ⟨a, w', hcas, ha, htree⟩ := casValue_of_ne alloc key oldVal newVal w actual h
    refine ⟨w', ?_, htree⟩
    simp [serve, casString, hcas, ha]

/-- No call of a client faults. -/
theorem exists_serve (alloc : Supply) (w : World) (r : Request) :
    ∃ a w', serve alloc w r = some (a, w') := by
  cases r with
  | setString key val => exact ⟨_, _, rfl⟩
  | delString key => exact ⟨_, _, rfl⟩
  | getString key => exact ⟨_, _, rfl⟩
  | casString key oldVal newVal actual =>
      rcases serve_casString alloc w key oldVal newVal actual with
        ⟨_, h⟩ | ⟨w', h, _⟩
      · exact ⟨_, _, h⟩
      · exact ⟨_, _, h⟩

/-- The effect of a call is one operation on the registers. -/
theorem serve_refines {r : Request} {a : Reply} (h : serve alloc w r = some (a, w')) :
    Registers.post w.view (action r a) = some w'.view := by
  cases r with
  | setString key val =>
      cases h
      simp [action, Registers.post, setString, sledSet, Tree.insert, view_update]
  | delString key =>
      cases h
      simp [action, Registers.post, delString, sledDel, Tree.remove, view_update]
  | getString key =>
      obtain ⟨rfl, rfl⟩ : .value (w.view key) = a ∧ (getValue alloc key w).2 = w' := by
        simpa [serve, getString] using h
      have hview := view_eq_of_tree_eq (getValue_tree alloc key w)
      simp [action, Registers.post, hview]
  | casString key oldVal newVal actual =>
      rcases serve_casString alloc w key oldVal newVal actual with
        ⟨hold, hserve⟩ | ⟨w'', hserve, htree⟩
      · rw [hserve] at h
        cases h
        have hview : w.view key = oldVal := by simp [World.view, hold]
        simp [action, Registers.post, hview, view_update]
      · rw [hserve] at h
        cases h
        simp [action, Registers.post, view_eq_of_tree_eq htree]

/-- An effect logs the call and what it replied, and acts on the database as that call. -/
theorem step_effect (h : s.step alloc (.effect i) = some s') :
    ∃ r a, s.client i = .waiting r ∧ serve alloc s.world r = some (a, s'.world) ∧
      s'.client i = .replied r a ∧ s'.log = s.log ++ [(i, r, a)] := by
  simp only [System.step] at h
  split at h
  · rename_i r hr
    obtain ⟨⟨a, w⟩, hserve, rfl⟩ := Option.map_eq_some_iff.mp h
    exact ⟨r, a, hr, hserve, by simp, rfl⟩
  · cases h

theorem step_refines {e : Event ι} (h : s.step alloc e = some s') :
    ∃ log, s'.log = s.log ++ log ∧
      run Registers.post s.world.view (actions log) = some s'.world.view := by
  cases e with
  | invoke i r =>
      simp only [System.step] at h
      split at h <;> cases h
      exact ⟨[], by simp, rfl⟩
  | effect i =>
      obtain ⟨r, a, _, hserve, _, hlog⟩ := step_effect h
      refine ⟨[(i, r, a)], hlog, ?_⟩
      simp [actions, serve_refines hserve]
  | respond i =>
      simp only [System.step] at h
      split at h <;> cases h
      exact ⟨[], by simp, rfl⟩

/-- Every run of the clients is a run of the registers: the calls, in the order in which
they took effect. -/
theorem run_refines {events : List (Event ι)} (h : run (System.step alloc) s events = some s') :
    ∃ log, s'.log = s.log ++ log ∧
      run Registers.post s.world.view (actions log) = some s'.world.view := by
  induction events generalizing s with
  | nil =>
      cases h
      exact ⟨[], by simp, rfl⟩
  | cons e events ih =>
      obtain ⟨t, ht, h⟩ := run_cons_eq_some.mp h
      obtain ⟨log, hlog, hrun⟩ := step_refines ht
      obtain ⟨log', hlog', hrun'⟩ := ih h
      refine ⟨log ++ log', by rw [hlog', hlog, List.append_assoc], ?_⟩
      rw [actions, List.map_append]
      exact run_append_eq_some.mpr ⟨_, hrun, hrun'⟩

/-! ## No lost update -/

/-- The swap of client `i` took effect between `s` and `s'`: with `true` it found the old
value, stored the new one and changed nothing else, with `false` it changed nothing and
reported what a get would return. -/
def CasAtomic (alloc : Supply) (s s' : System ι) (i : ι) : Prop :=
  ∀ key oldVal newVal actual, s.client i = .waiting (.casString key oldVal newVal actual) →
    ∃ ret a, s'.client i = .replied (.casString key oldVal newVal actual) (.swapped ret a) ∧
      (ret = true → (getString alloc key s.world).1.str = oldVal ∧
        (getString alloc key s'.world).1.str = newVal ∧
        ∀ k, k ≠ key → s'.world.tree k = s.world.tree k) ∧
      (ret = false → s'.world.tree = s.world.tree ∧ a = (getString alloc key s.world).1.str)

theorem casAtomic_of_effect (h : s.step alloc (.effect i) = some s') : CasAtomic alloc s s' i := by
  intro key oldVal newVal actual hwaiting
  obtain ⟨r, a, hr, hserve, hreplied, _⟩ := step_effect h
  rw [hwaiting] at hr
  cases hr
  rcases serve_casString alloc s.world key oldVal newVal actual with
    ⟨hold, hcas⟩ | ⟨w', hcas, htree⟩
  · rw [hcas] at hserve
    obtain ⟨rfl, hworld⟩ := Prod.mk.inj (Option.some.inj hserve)
    refine ⟨true, [], hreplied, ?_, by simp⟩
    intro _
    rw [← hworld]
    refine ⟨by simp [getString, World.view, hold], by simp [getString, World.view], ?_⟩
    intro k hk
    simp [hk]
  · rw [hcas] at hserve
    obtain ⟨rfl, rfl⟩ := Prod.mk.inj (Option.some.inj hserve)
    refine ⟨false, s.world.view key, hreplied, by simp, ?_⟩
    intro _
    exact ⟨htree, by simp [getString]⟩

/-- The log of a run has no set or delete of `key`. -/
def OnlySwapped (key : Bytes) (s : System ι) : Prop :=
  ∀ e ∈ s.log, (∀ val, e.2.1 ≠ .setString key val) ∧ e.2.1 ≠ .delString key

/-- The pairs of old and new value of the swaps of `key` that returned true, in the order
in which they took effect. -/
def successfulSwaps (key : Bytes) (s : System ι) : List (Bytes × Bytes) :=
  Registers.swapsAt key (actions s.log)

omit [DecidableEq ι] in
theorem write_notMem_actions {key : Bytes} (h : OnlySwapped key s) (v : Bytes) :
    .write key v ∉ actions s.log := by
  intro hmem
  obtain ⟨⟨i, r, a⟩, he, haction⟩ := List.mem_map.mp hmem
  obtain ⟨hset, hdel⟩ := h _ he
  cases r with
  | setString key' val =>
      simp only [action, Registers.Action.write.injEq] at haction
      exact hset val (by rw [haction.1])
  | delString key' =>
      simp only [action, Registers.Action.write.injEq] at haction
      exact hdel (by rw [haction.1])
  | getString key' => cases a <;> simp [action] at haction
  | casString key' oldVal newVal actual =>
      cases a with
      | swapped ret a => cases ret <;> simp [action] at haction
      | done => simp [action] at haction
      | value v => simp [action] at haction

/-- In every interleaving each swap is atomic, and the successful swaps of a key that is
only swapped form a chain from its first value to its last: each was made by a client that
passed the value the swap before it had stored. -/
theorem no_lost_update (alloc : Supply) (w : World) (events : List (Event ι)) (s : System ι)
    (h : run (System.step alloc) (System.start w) events = some s) :
    (∀ before i after t t', events = before ++ .effect i :: after →
      run (System.step alloc) (System.start w) before = some t →
      t.step alloc (.effect i) = some t' → CasAtomic alloc t t' i) ∧
    ∀ key, OnlySwapped key s →
      Registers.Chain (getString alloc key w).1.str (successfulSwaps key s)
        (getString alloc key s.world).1.str ∧
      ∀ before p q after, successfulSwaps key s = before ++ p :: q :: after → q.1 = p.2 := by
  refine ⟨fun _ _ _ _ _ _ _ heffect => casAtomic_of_effect heffect, ?_⟩
  intro key honly
  obtain ⟨log, hlog, hrun⟩ := run_refines h
  have hlog' : s.log = log := by simpa [System.start] using hlog
  have hchain : Registers.Chain (w.view key) (successfulSwaps key s) (s.world.view key) := by
    rw [successfulSwaps, hlog']
    apply Registers.run_chain hrun
    rw [← hlog']
    exact write_notMem_actions honly
  refine ⟨by simpa [getString] using hchain, ?_⟩
  intro before p q after hsplit
  rw [hsplit] at hchain
  exact hchain.follows

/-- Client 1 has not seen the swap of client 0 and misses; with the reported value it
succeeds. -/
def twoClients : List (Event ℕ) :=
  [.invoke 0 (.casString [1] [] [2] ⟨.null, []⟩), .invoke 1 (.casString [1] [] [3] ⟨.null, []⟩),
    .effect 0, .effect 1, .respond 1, .invoke 1 (.casString [1] [2] [3] ⟨.null, []⟩), .effect 1,
    .respond 0]

theorem no_lost_update_twoClients :
    ∃ s, run (System.step .lowest) (System.start World.fresh) twoClients = some s ∧
      successfulSwaps [1] s = [([], [2]), ([2], [3])] ∧
      Registers.Chain [] [([], [2]), ([2], [3])] (getString .lowest [1] s.world).1.str := by
  have hrun : (run (System.step .lowest) (System.start World.fresh) twoClients).map System.log =
      some [(0, .casString [1] [] [2] ⟨.null, []⟩, .swapped true []),
        (1, .casString [1] [] [3] ⟨.null, []⟩, .swapped false [2]),
        (1, .casString [1] [2] [3] ⟨.null, []⟩, .swapped true [])] := rfl
  obtain ⟨s, hs, hlog⟩ := Option.map_eq_some_iff.mp hrun
  have hswaps : successfulSwaps [1] s = [([], [2]), ([2], [3])] := by
    rw [successfulSwaps, hlog]
    rfl
  have honly : OnlySwapped [1] s := by
    intro e he
    rw [hlog] at he
    simp only [List.mem_cons, List.not_mem_nil, or_false] at he
    rcases he with rfl | rfl | rfl <;> simp
  have hchain := ((no_lost_update .lowest World.fresh twoClients s hs).2 [1] honly).1
  rw [hswaps] at hchain
  exact ⟨s, hs, hswaps, hchain⟩

end LlgoExamples.Sled
