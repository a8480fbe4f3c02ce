import LlgoExamples.Library.Machine

/-! A relay: stages in a fixed order, of which each is launched at most once, and only
after the stage before it has come back. -/

namespace LlgoExamples.Relay

open Machine

variable {κ ι : Type*}

inductive Move (κ ι : Type*) where
  | launch (k : κ) (id : ι)
  | finish (k : κ) (id : ι)

/-- The stages that have not come back, and the one that is out. -/
structure Lap (κ ι : Type*) where
  todo : List κ
  flying : Option (κ × ι)

def Lap.start (stages : List κ) : Lap κ ι :=
  { todo := stages, flying := none }

def launched (moves : List (Move κ ι)) : List (κ × ι) :=
  moves.filterMap fun m => match m with
    | .launch k id => some (k, id)
    | .finish _ _ => none

def finished (moves : List (Move κ ι)) : List (κ × ι) :=
  moves.filterMap fun m => match m with
    | .launch _ _ => none
    | .finish k id => some (k, id)

section

variable [DecidableEq κ] [DecidableEq ι]

def post (lap : Lap κ ι) : Move κ ι → Option (Lap κ ι)
  | .launch k id =>
      if lap.flying = none ∧ lap.todo.head? = some k then
        some { lap with flying := some (k, id) }
      else none
  | .finish k id =>
      if lap.flying = some (k, id) then some { todo := lap.todo.tail, flying := none }
      else none

variable {stages : List κ} {moves pre : List (Move κ ι)} {lap : Lap κ ι}

/-- What was launched and has not come back, in any order of moves. -/
def out (moves : List (Move κ ι)) : List (κ × ι) :=
  moves.foldl (fun out m => match m with
    | .launch k id => (k, id) :: out
    | .finish k id => out.erase (k, id)) []

theorem out_launch (moves : List (Move κ ι)) (k : κ) (id : ι) :
    out (moves ++ [.launch k id]) = (k, id) :: out moves := by
  rw [out, List.foldl_append]
  rfl

theorem out_finish (moves : List (Move κ ι)) (k : κ) (id : ι) :
    out (moves ++ [.finish k id]) = (out moves).erase (k, id) := by
  rw [out, List.foldl_append]
  rfl

/-- What the moves of a relay amount to. -/
structure Standing (stages : List κ) (moves : List (Move κ ι)) (lap : Lap κ ι) : Prop where
  launched_eq : launched moves = finished moves ++ lap.flying.toList
  stages_eq : (finished moves).map Prod.fst ++ lap.todo = stages
  flying_next : ∀ k id, lap.flying = some (k, id) → lap.todo.head? = some k

theorem Standing.post {m : Move κ ι} {lap' : Lap κ ι} (h : Standing stages moves lap)
    (hpost : post lap m = some lap') : Standing stages (moves ++ [m]) lap' := by
  cases m with
  | launch k id =>
      simp only [Relay.post] at hpost
      split at hpost
      · rename_i hnext
        cases hpost
        have hlaunched := h.launched_eq
        rw [hnext.1, Option.toList_none, List.append_nil] at hlaunched
        refine ⟨?_, ?_, ?_⟩
        · simp only [launched, finished, List.filterMap_append] at hlaunched ⊢
          simp [hlaunched]
        · have hstages := h.stages_eq
          simp only [finished, List.filterMap_append] at hstages ⊢
          simpa using hstages
        · intro k' id' hflying
          cases hflying
          exact hnext.2
      · cases hpost
  | finish k id =>
      simp only [Relay.post] at hpost
      split at hpost
      · rename_i hflying
        cases hpost
        have hlaunched := h.launched_eq
        have hstages := h.stages_eq
        have hhead := h.flying_next k id hflying
        rw [hflying] at hlaunched
        refine ⟨?_, ?_, ?_⟩
        · simp only [launched, finished, List.filterMap_append] at hlaunched ⊢
          simp [hlaunched]
        · obtain ⟨rest, hrest⟩ : ∃ rest, lap.todo = k :: rest := by
            cases htodo : lap.todo with
            | nil =>
                rw [htodo] at hhead
                cases hhead
            | cons k' rest =>
                rw [htodo] at hhead
                cases hhead
                exact ⟨rest, rfl⟩
          rw [hrest] at hstages ⊢
          simp only [finished, List.filterMap_append] at hstages ⊢
          simpa using hstages
        · intro k' id' hnone
          cases hnone
      · cases hpost

theorem standing_run (h : run post (Lap.start stages) moves = some lap) :
    Standing stages moves lap := by
  induction moves using List.reverseRecOn generalizing lap with
  | nil =>
      cases h
      exact ⟨rfl, rfl, fun _ _ h => by cases h⟩
  | append_singleton moves m ih =>
      obtain ⟨mid, hmid, hlast⟩ := run_append_eq_some.1 h
      obtain ⟨lap', hpost, hnil⟩ := run_cons_eq_some.1 hlast
      cases hnil
      exact (ih hmid).post hpost

/-- At every point, all that was launched has come back, but for at most one. -/
theorem one_flying (h : run post (Lap.start stages) moves = some lap) (hpre : pre <+: moves) :
    ∃ flying : Option (κ × ι), launched pre = finished pre ++ flying.toList := by
  obtain ⟨mid, hmid⟩ := run_prefix h hpre
  exact ⟨mid.flying, (standing_run hmid).launched_eq⟩

/-- The stages come back in their order. -/
theorem finished_prefix (h : run post (Lap.start stages) moves = some lap) :
    (finished moves).map Prod.fst <+: stages :=
  ⟨lap.todo, (standing_run h).stages_eq⟩

end

end LlgoExamples.Relay
