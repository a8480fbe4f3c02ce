import LlgoExamples.Verification.Opendal.Session

/-! # What a call of a session does

Each call lets the services act at most once on what it was given, hands out an error where
they failed, and changes no object but those it was called on. -/

namespace LlgoExamples.Opendal

variable {C : Core} {s t u : Session C} {o : Outcome C} {p : Ptr} {a : ℕ} {obj : Object C}
  {τ : Type}

theorem bind_eq_ok {α β : Type} {x : Except Fault α} {f : α → Except Fault β} {b : β} :
    (x >>= f) = .ok b ↔ ∃ a, x = .ok a ∧ f a = .ok b := by
  cases x with
  | error e =>
      constructor
      · intro h
        cases h
      · rintro ⟨a, ha, -⟩
        cases ha
  | ok a =>
      constructor
      · intro h
        exact ⟨a, rfl, h⟩
      · rintro ⟨a', ⟨⟩, h⟩
        exact h

theorem bind_eq_error {α β : Type} {x : Except Fault α} {f : α → Except Fault β} {e : Fault}
    (h : (x >>= f) = .error e) : x = .error e ∨ ∃ a, x = .ok a ∧ f a = .error e := by
  cases x with
  | error e' =>
      have heq : e' = e := by cases h; rfl
      exact .inl (by rw [heq])
  | ok a => exact .inr ⟨a, rfl, h⟩

/-! ## Answers -/

theorem refuse_eq_ok {e : C.Error} {bad : Ptr → Reply} (h : s.refuse e bad = .ok o) :
    ∃ code, Code.ofKind (C.kind e) = .ok code ∧
      o = ⟨s, some (.error code (C.toString e)), bad⟩ := by
  unfold Session.refuse errorObject at h
  cases hcode : Code.ofKind (C.kind e) with
  | error f =>
      rw [hcode] at h
      cases h
  | ok code =>
      rw [hcode] at h
      cases h
      exact ⟨code, rfl, rfl⟩

/-- What an answer says of the core's. -/
inductive Answers (s : Session C) (made : τ → Option (Object C)) (good : τ → Ptr → Reply)
    (bad : Ptr → Reply) : Except C.Error τ → Outcome C → Prop where
  | value (v : τ) : Answers s made good bad (.ok v) ⟨s, made v, good v⟩
  | error (e : C.Error) (code : Code) : Code.ofKind (C.kind e) = .ok code →
      Answers s made good bad (.error e) ⟨s, some (.error code (C.toString e)), bad⟩

theorem answer_eq_ok {made : τ → Option (Object C)} {good : τ → Ptr → Reply} {bad : Ptr → Reply}
    {r : Except C.Error τ} (h : s.answer made good bad r = .ok o) :
    Answers s made good bad r o := by
  cases r with
  | ok v =>
      cases h
      exact .value v
  | error e =>
      obtain ⟨code, hcode, rfl⟩ := refuse_eq_ok h
      exact .error e code hcode

theorem Answers.session_eq {made : τ → Option (Object C)} {good : τ → Ptr → Reply}
    {bad : Ptr → Reply} {r : Except C.Error τ} (h : Answers s made good bad r o) :
    o.session = s := by
  cases h <;> rfl

theorem notNull_eq_ok {message : String} {path : Option CStr} {str : CStr}
    (h : notNull message path = .ok str) : path = some str := by
  cases path with
  | none => cases h
  | some q =>
      cases h
      rfl

theorem unwrapStr_eq_ok {path : CStr} {str : String} (h : path.unwrapStr = .ok str) :
    path.toStr = some str := by
  unfold CStr.unwrapStr at h
  cases hs : path.toStr with
  | none =>
      rw [hs] at h
      cases h
  | some q =>
      rw [hs] at h
      cases h
      rfl

/-- An operation on a path acts once, on the string that the path is. -/
theorem onPath_eq_ok {act : C.Operator → String → C.State → Except C.Error τ × C.State}
    {made : τ → Option (Object C)} {good : τ → Ptr → Reply} {bad : Ptr → Reply} {op : Ptr}
    {path : Option CStr} (h : s.onPath act made good bad op path = .ok o) :
    ∃ cstr str v, path = some cstr ∧ cstr.toStr = some str ∧ s.value .operator op = .ok v ∧
      Answers { s with core := (act v str s.core).2 } made good bad (act v str s.core).1 o := by
  obtain ⟨cstr, hcstr, h⟩ := bind_eq_ok.mp h
  obtain ⟨v, hv, h⟩ := bind_eq_ok.mp h
  obtain ⟨str, hstr, h⟩ := bind_eq_ok.mp h
  exact ⟨cstr, str, v, notNull_eq_ok hcstr, unwrapStr_eq_ok hstr, hv, answer_eq_ok h⟩

theorem onPaths_eq_ok
    {act : C.Operator → String → String → C.State → Except C.Error Unit × C.State} {op : Ptr}
    {src dest : Option CStr} (h : s.onPaths act op src dest = .ok o) :
    ∃ csrc cdest str str' v, src = some csrc ∧ csrc.toStr = some str ∧ dest = some cdest ∧
      cdest.toStr = some str' ∧ s.value .operator op = .ok v ∧
      Answers { s with core := (act v str str' s.core).2 } (fun _ => none)
        (fun _ _ => .ptr .null) .ptr (act v str str' s.core).1 o := by
  obtain ⟨csrc, hcsrc, h⟩ := bind_eq_ok.mp h
  obtain ⟨cdest, hcdest, h⟩ := bind_eq_ok.mp h
  obtain ⟨v, hv, h⟩ := bind_eq_ok.mp h
  obtain ⟨str, hstr, h⟩ := bind_eq_ok.mp h
  obtain ⟨str', hstr', h⟩ := bind_eq_ok.mp h
  exact ⟨csrc, cdest, str, str', v, notNull_eq_ok hcsrc, unwrapStr_eq_ok hstr,
    notNull_eq_ok hcdest, unwrapStr_eq_ok hstr', hv, answer_eq_ok h⟩

/-! ## What a call leaves alone -/

/-- The objects that a call changes or frees. -/
def Call.changes : Call → List Ptr
  | .optionsSet options _ _ => [options]
  | .listerNext lister => [lister]
  | .readerRead reader buf _ => [reader, buf]
  | .free _ p => [p]
  | _ => []

theorem held_set_of_ne (hp : .block a ≠ p) : (s.set p obj).held a = s.held a := by
  cases p with
  | null => rfl
  | dangling => rfl
  | block b =>
      have hab : a ≠ b := fun h => hp (by rw [h])
      exact Function.update_of_ne hab _ _

theorem pathOp_held {f : PathOp} {op : Ptr} {path : Option CStr} (h : s.pathOp f op path = .ok o) :
    o.session.held = s.held := by
  cases f <;> simp only [Session.pathOp] at h <;>
    (obtain ⟨_, _, _, _, _, _, h⟩ := onPath_eq_ok h; rw [h.session_eq])

theorem pathsOp_held {f : PathsOp} {op : Ptr} {src dest : Option CStr}
    (h : s.pathsOp f op src dest = .ok o) : o.session.held = s.held := by
  cases f <;>
    (obtain ⟨_, _, _, _, _, _, _, _, _, _, h⟩ := onPaths_eq_ok h; rw [h.session_eq])

theorem buildOperator_held {scheme : C.Scheme} {map : String → Option String}
    (h : s.buildOperator scheme map = .ok o) : o.session.held = s.held := by
  unfold Session.buildOperator Session.perform at h
  simp only at h
  generalize (C.viaMap scheme map s.core).1 = r at h
  cases r with
  | error e =>
      obtain ⟨code, -, rfl⟩ := refuse_eq_ok h
      rfl
  | ok op =>
      simp only at h
      split at h
      · cases h
        rfl
      · split at h <;> cases h
        rfl

theorem operatorNew_held {scheme : Option CStr} {options : Ptr}
    (h : s.operatorNew scheme options = .ok o) : o.session.held = s.held := by
  obtain ⟨scheme, -, h⟩ := bind_eq_ok.mp h
  obtain ⟨str, -, h⟩ := bind_eq_ok.mp h
  split at h
  · obtain ⟨code, -, rfl⟩ := refuse_eq_ok h
    rfl
  · split at h
    · exact buildOperator_held h
    · obtain ⟨options, -, h⟩ := bind_eq_ok.mp h
      exact buildOperator_held h

theorem listerNext_held {lister : Ptr} (h : s.listerNext lister = .ok o)
    (ha : .block a ≠ lister) : o.session.held a = s.held a := by
  obtain ⟨l, -, h⟩ := bind_eq_ok.mp h
  simp only [Session.perform] at h
  split at h
  · cases h
    exact held_set_of_ne ha
  · rw [(answer_eq_ok h).session_eq]
    exact held_set_of_ne ha

theorem readerRead_held {reader buf : Ptr} {len : ℕ} (h : s.readerRead reader buf len = .ok o)
    (hr : .block a ≠ reader) (hb : .block a ≠ buf) : o.session.held a = s.held a := by
  unfold Session.readerRead at h
  split at h
  · cases h
  · obtain ⟨old, -, h⟩ := bind_eq_ok.mp h
    split at h
    · cases h
    · obtain ⟨r, -, h⟩ := bind_eq_ok.mp h
      simp only [Session.perform] at h
      split at h
      · cases h
        exact (held_set_of_ne hb).trans (held_set_of_ne hr)
      · obtain ⟨code, -, rfl⟩ := refuse_eq_ok h
        exact held_set_of_ne hr

theorem free_held {f : FreeOp} (h : s.free f p = .ok o) (ha : .block a ≠ p) :
    o.session.held a = s.held a := by
  unfold Session.free at h
  split at h
  · split at h <;> cases h
    rfl
  · cases h
  · rename_i b
    split at h
    · split at h <;> cases h
      exact Function.update_of_ne (fun hab => ha (by rw [hab])) _ _
    · cases h

theorem look_session {read : Object C → Option Reply} (h : s.look p read = .ok o) :
    o.session = s := by
  unfold Session.look at h
  cases hread : (s.at? p).bind read with
  | none =>
      rw [hread] at h
      cases h
  | some reply =>
      rw [hread] at h
      cases h
      rfl

/-- A call leaves every object alone that it is not called on. -/
theorem call_held {c : Call} (h : s.call c = .ok o) (ha : .block a ∉ c.changes) :
    o.session.held a = s.held a := by
  cases c with
  | optionsNew =>
      cases h
      rfl
  | optionsSet options key value =>
      obtain ⟨map, -, h⟩ := bind_eq_ok.mp h
      obtain ⟨k, -, h⟩ := bind_eq_ok.mp h
      obtain ⟨v, -, h⟩ := bind_eq_ok.mp h
      cases h
      simp only [Call.changes, List.mem_singleton] at ha
      exact held_set_of_ne ha
  | operatorNew scheme options => rw [operatorNew_held h]
  | write op path bytes =>
      obtain ⟨bs, -, h⟩ := bind_eq_ok.mp h
      obtain ⟨_, _, _, _, _, _, h⟩ := onPath_eq_ok h
      rw [h.session_eq]
  | onPath f op path => rw [pathOp_held h]
  | onPaths f op src dest => rw [pathsOp_held h]
  | listerNext lister =>
      simp only [Call.changes, List.mem_singleton] at ha
      exact listerNext_held h ha
  | readerRead reader buf len =>
      simp only [Call.changes, List.mem_cons, List.not_mem_nil, or_false, not_or] at ha
      exact readerRead_held h ha.1 ha.2
  | metadata f p =>
      obtain ⟨m, -, h⟩ := bind_eq_ok.mp h
      cases f <;> cases h <;> rfl
  | string f p =>
      cases f <;>
        (obtain ⟨v, -, h⟩ := bind_eq_ok.mp h
         split at h <;> cases h
         rfl)
  | infoNew op =>
      obtain ⟨v, -, h⟩ := bind_eq_ok.mp h
      cases h
      rfl
  | free f p =>
      simp only [Call.changes, List.mem_singleton] at ha
      exact free_held h ha
  | malloc bytes =>
      cases h
      rfl
  | loadBytes p => rw [look_session h]
  | loadError p => rw [look_session h]
  | loadString p => rw [look_session h]
  | loadMemory p => rw [look_session h]

/-! ## What handing out leaves alone -/

/-- Handing out an object leaves the others. -/
theorem Hands.keeps {made : Option (Object C)} (h : Hands s made p t)
    (hobj : s.held a = some obj) : t.held a = some obj := by
  cases h with
  | nothing => exact hobj
  | something b v hnone =>
      have hab : a ≠ b := by
        rintro rfl
        rw [hnone] at hobj
        cases hobj
      exact (Function.update_of_ne hab _ _).trans hobj

theorem Hands.held_made {v : Object C} (h : Hands s (some v) p t) : t.at? p = some v := by
  cases h with
  | something b _ hnone => exact Function.update_self _ _ _

end LlgoExamples.Opendal
