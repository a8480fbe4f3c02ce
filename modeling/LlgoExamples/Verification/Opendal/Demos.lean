import LlgoExamples.Model.Opendal.Demos
import LlgoExamples.Verification.Opendal.Runs

/-! # What the demos leave behind -/

namespace LlgoExamples.Opendal

variable {C : Core} (supply : Supply) {w w' : World C} {s t : Session C} {p : Ptr} {o : Outcome C}

/-! ## Opening an operator -/

/-- An operator is handed out, or an error. -/
inductive Opened : Outcome C → Prop where
  | operator (s : Session C) (v : C.Operator) : Opened ⟨s, some (.value .operator v), handed⟩
  | error (s : Session C) (code : Code) (message : List UInt8) :
      Opened ⟨s, some (.error code message), failed⟩

theorem opened_of_refuse {e : C.Error} (h : s.refuse e failed = .ok o) : Opened o := by
  obtain ⟨code, -, rfl⟩ := refuse_eq_ok h
  exact .error s code _

theorem opened_of_buildOperator {scheme : C.Scheme} {map : String → Option String}
    (h : s.buildOperator scheme map = .ok o) : Opened o := by
  unfold Session.buildOperator Session.perform at h
  simp only at h
  generalize (C.viaMap scheme map s.core).1 = r at h
  cases r with
  | error e => exact opened_of_refuse h
  | ok op =>
      simp only at h
      split at h
      · cases h
        exact .operator _ _
      · split at h <;> cases h
        exact .operator _ _

theorem opened_of_operatorNew {scheme : Option CStr} {options : Ptr}
    (h : s.operatorNew scheme options = .ok o) : Opened o := by
  obtain ⟨scheme, -, h⟩ := bind_eq_ok.mp h
  obtain ⟨str, -, h⟩ := bind_eq_ok.mp h
  split at h
  · exact opened_of_refuse h
  · split at h
    · exact opened_of_buildOperator h
    · obtain ⟨options, -, h⟩ := bind_eq_ok.mp h
      exact opened_of_buildOperator h

/-! ## Faults that are not undefined behaviour -/

theorem errorObject_error {e : C.Error} {f : Fault} (h : errorObject e = .error f) :
    f ≠ .undefined := by
  unfold errorObject at h
  rintro rfl
  cases hk : C.kind e <;> rw [hk] at h <;> cases h

theorem refuse_error {e : C.Error} {bad : Ptr → Reply} {f : Fault}
    (h : s.refuse e bad = .error f) : f ≠ .undefined := by
  unfold Session.refuse at h
  cases he : errorObject e with
  | error f' =>
      rw [he] at h
      cases h
      exact errorObject_error he
  | ok v =>
      rw [he] at h
      cases h

theorem buildOperator_error {scheme : C.Scheme} {map : String → Option String} {f : Fault}
    (h : s.buildOperator scheme map = .error f) : f ≠ .undefined := by
  unfold Session.buildOperator Session.perform at h
  simp only at h
  generalize (C.viaMap scheme map s.core).1 = r at h
  cases r with
  | error e => exact refuse_error h
  | ok op =>
      simp only at h
      split at h
      · cases h
      · split at h <;> cases h
        simp

theorem notNull_error {message : String} {path : Option CStr} {f : Fault}
    (h : notNull message path = .error f) : f ≠ .undefined := by
  cases path with
  | none =>
      cases h
      simp
  | some path => cases h

theorem unwrapStr_error {path : CStr} {f : Fault} (h : path.unwrapStr = .error f) :
    f ≠ .undefined := by
  unfold CStr.unwrapStr at h
  cases hs : path.toStr with
  | none =>
      rw [hs] at h
      cases h
      simp
  | some str =>
      rw [hs] at h
      cases h

/-- Opening an operator without options is never undefined. -/
theorem operatorNew_error {scheme : Option CStr} {f : Fault}
    (h : s.operatorNew scheme .null = .error f) : f ≠ .undefined := by
  rcases bind_eq_error h with h | ⟨scheme, -, h⟩
  · exact notNull_error h
  · rcases bind_eq_error h with h | ⟨str, -, h⟩
    · exact unwrapStr_error h
    · split at h
      · exact refuse_error h
      · exact buildOperator_error h

/-- How a refined call ends. -/
theorem Refines.ends {α : Type} {spec : Except Fault (Outcome C)} {g : α → Reply}
    {x : Except Fault (α × World C)} (h : Refines spec (x.map fun (a, w) => (g a, w)))
    (hspec : ∀ f, spec = .error f → f ≠ .undefined) :
    (∃ f, x = .error f ∧ f ≠ .undefined ∧ spec = .error f) ∨
      ∃ o p a w, x = .ok (a, w) ∧ spec = .ok o ∧ g a = o.reply p ∧ w.Tidy ∧
        Hands o.session o.made p w.session := by
  cases spec with
  | error f =>
      have hf := hspec f rfl
      have hx := h.resolve_left hf
      cases x with
      | error f' =>
          cases hx
          exact .inl ⟨_, rfl, hf, rfl⟩
      | ok out => cases hx
  | ok o =>
      obtain ⟨p, w, hx, ht, hhands⟩ := h
      cases x with
      | error f => cases hx
      | ok out =>
          obtain ⟨a, w'⟩ := out
          simp only [Except.map, Except.ok.injEq, Prod.mk.injEq] at hx
          obtain ⟨hreply, rfl⟩ := hx
          exact .inr ⟨o, p, a, _, rfl, rfl, hreply, ht, hhands⟩

/-! ## The calls of the demos -/

/-- A literal without a NUL goes through as it is. -/
theorem literal_given {str : String} (h : (CStr.new str).isSome) :
    ∃ c, CStr.new str = some c ∧ c.unwrapStr = .ok str := by
  obtain ⟨c, hc⟩ := Option.isSome_iff_exists.mp h
  refine ⟨c, hc, ?_⟩
  simp [CStr.unwrapStr, toStr_of_new hc]

theorem onPath_literal {τ : Type}
    {act : C.Operator → String → C.State → Except C.Error τ × C.State}
    {made : τ → Option (Object C)} {good : τ → Ptr → Reply} {bad : Ptr → Reply} {op : Ptr}
    {str : String} {v : C.Operator} (hstr : (CStr.new str).isSome)
    (hv : s.value .operator op = .ok v) :
    s.onPath act made good bad op (CStr.new str) =
      Session.answer { s with core := (act v str s.core).2 } made good bad
        (act v str s.core).1 := by
  obtain ⟨c, hc, hunwrap⟩ := literal_given hstr
  unfold Session.onPath
  rw [hc]
  simp only [notNull, Option.elim_some, ok_bind, hv, hunwrap]
  rfl

theorem answer_not_undefined {τ : Type} {made : τ → Option (Object C)} {good : τ → Ptr → Reply}
    {bad : Ptr → Reply} {r : Except C.Error τ} {f : Fault}
    (h : s.answer made good bad r = .error f) : f ≠ .undefined := by
  cases r with
  | ok v => cases h
  | error e => exact refuse_error h

/-- Something held keeps memory from being empty. -/
theorem keys_ne_nil_of_held {a : ℕ} {obj : Object C} (ht : w.Tidy)
    (h : w.session.held a = some obj) : w.heap.keys ≠ [] := by
  intro hnil
  have hnone := ht.keys_eq_nil_iff.mp hnil a
  rw [session_held] at h
  rw [hnone] at h
  cases h

/-- How opening an operator without options ends. -/
inductive NewEnds (w : World C) (scheme : Option CStr) :
    Except Fault (Result Ptr × World C) → Prop where
  | operator (s : Session C) (v : C.Operator) (a : ℕ) (w' : World C) :
      w.session.operatorNew scheme .null = .ok ⟨s, some (.value .operator v), handed⟩ →
      s.held = w.session.held → s.held a = none → w'.Tidy →
      w'.session = s.add a (.value .operator v) → NewEnds w scheme (.ok (⟨.block a, .null⟩, w'))
  | error (s : Session C) (code : Code) (message : List UInt8) (a : ℕ) (w' : World C) :
      w.session.operatorNew scheme .null = .ok ⟨s, some (.error code message), failed⟩ →
      s.held = w.session.held → s.held a = none → w'.Tidy →
      w'.session = s.add a (.error code message) → NewEnds w scheme (.ok (⟨.null, .block a⟩, w'))
  | fault (f : Fault) : f ≠ .undefined → w.session.operatorNew scheme .null = .error f →
      NewEnds w scheme (.error f)

theorem operatorNew_ends (ht : w.Tidy) (scheme : Option CStr) :
    NewEnds w scheme (opendalOperatorNew supply scheme .null w) := by
  have hnew := operatorNew_refines supply ht scheme .null
  rcases hnew.ends fun f hf => operatorNew_error hf with
    ⟨f, hx, hf, hspec⟩ | ⟨o, p, result, w1, hx, hspec, hreply, ht1, hhands⟩
  · rw [hx]
    exact .fault f hf hspec
  · rw [hx]
    have hheld := operatorNew_held hspec
    generalize hs1 : w1.session = s1 at hhands
    cases opened_of_operatorNew hspec with
    | operator s v =>
        cases hhands with
        | something a _ hnone =>
            cases hreply
            exact .operator s v a w1 hspec hheld hnone ht1 hs1
    | error s code message =>
        cases hhands with
        | something a _ hnone =>
            cases hreply
            exact .error s code message a w1 hspec hheld hnone ht1 hs1

/-- What was there before, and an operator. -/
structure Opens (w : World C) (v : C.Operator) (a : ℕ) (w' : World C) : Prop where
  tidy : w'.Tidy
  unused : w.session.held a = none
  held : w'.session.held = Function.update w.session.held a (some (.value .operator v))

namespace Opens

variable {v : C.Operator} {a d : ℕ}

theorem of_add (hheld : s.held = w.session.held) (hnone : s.held a = none) (ht : w'.Tidy)
    (hs : w'.session = s.add a (.value .operator v)) : Opens w v a w' where
  tidy := ht
  unused := by rw [← hheld, hnone]
  held := by
    rw [hs, ← hheld]
    rfl

theorem operator (h : Opens w v a w') : w'.session.held a = some (.value .operator v) := by
  rw [h.held, Function.update_self]

theorem value (h : Opens w v a w') : w'.session.value .operator (.block a) = .ok v :=
  value_of_at? h.operator

theorem keeps {obj : Object C} (h : Opens w v a w') (hobj : w.session.held d = some obj) :
    w'.session.held d = some obj := by
  have hda : d ≠ a := by
    rintro rfl
    rw [h.unused] at hobj
    cases hobj
  rw [h.held, Function.update_of_ne hda, hobj]

/-- In a new library the operator is all there is. -/
theorem alone {core : C.State} (h : Opens (World.start core) v a w') {c : ℕ} (hca : c ≠ a) :
    w'.session.held c = none := by
  rw [h.held, Function.update_of_ne hca, session_start]
  rfl

end Opens

/-- How reading a file through an operator ends. -/
inductive ReadEnds (w : World C) (v : C.Operator) (str : String) :
    Except Fault (Result Ptr × World C) → Prop where
  | data (bs : List UInt8) (b : ℕ) (w' : World C) : (C.read v str w.core).1 = .ok bs →
      w.session.held b = none → w'.Tidy →
      w'.session.held = Function.update w.session.held b (some (.bytes bs)) →
      ReadEnds w v str (.ok (⟨.block b, .null⟩, w'))
  | error (e : C.Error) (code : Code) (b : ℕ) (w' : World C) :
      (C.read v str w.core).1 = .error e → Code.ofKind (C.kind e) = .ok code →
      w.session.held b = none → w'.Tidy →
      w'.session.held = Function.update w.session.held b (some (.error code (C.toString e))) →
      ReadEnds w v str (.ok (⟨.null, .block b⟩, w'))
  | fault (f : Fault) : f ≠ .undefined → ReadEnds w v str (.error f)

theorem read_ends (ht : w.Tidy) {op : Ptr} {v : C.Operator} {str : String}
    (hstr : (CStr.new str).isSome) (hv : w.session.value .operator op = .ok v) :
    ReadEnds w v str (opendalOperatorRead supply op (CStr.new str) w) := by
  have href := pathOp_refines supply ht .read op (CStr.new str)
  simp only [Session.pathOp, PathOp.call, onPath_literal hstr hv] at href
  rcases href.ends fun f hf => answer_not_undefined hf with
    ⟨f, hx, hf, -⟩ | ⟨o, p, result, w1, hx, hspec, hreply, ht1, hhands⟩
  · rw [hx]
    exact .fault f hf
  · rw [hx]
    have hans := answer_eq_ok hspec
    generalize hs1 : w1.session = s1 at hhands
    generalize hread : (C.read v str w.session.core).1 = r at hans
    cases hans with
    | value bs =>
        cases hhands with
        | something b _ hnone =>
            cases hreply
            exact .data bs b w1 hread hnone ht1 (by rw [hs1]; rfl)
    | error e code hcode =>
        cases hhands with
        | something b _ hnone =>
            cases hreply
            exact .error e code b w1 hread hcode hnone ht1 (by rw [hs1]; rfl)

/-! ## Reading an error and giving all back -/

theorem loadError_of_held {b : ℕ} {code : Code} {message : List UInt8}
    (h : w.session.held b = some (.error code message)) :
    loadError (.block b) w = .ok (code, message) := by
  obtain ⟨r, hr, hbuilt⟩ := built_of_object h
  cases hbuilt with
  | error _ bytes _ hholds =>
      simp only [loadError, rootAt_of_root hr, ok_bind, slice_of_holds hholds]
      rfl

theorem loadBytes_of_held {b : ℕ} {bs : List UInt8} (h : w.session.held b = some (.bytes bs)) :
    loadBytes (.block b) w = .ok bs := by
  obtain ⟨r, hr, hbuilt⟩ := built_of_object h
  cases hbuilt with
  | bytes ob _ hholds =>
      simp only [loadBytes, rootAt_of_root hr, ok_bind, slice_of_holds hholds]

/-- The operator is freed after what else is held, and everything else stays. -/
theorem frees_second {a b : ℕ} {v : C.Operator} {obj : Object C} {f : FreeOp} (ht : w.Tidy)
    (hab : a ≠ b) (ha : w.session.held a = some (.value .operator v))
    (hb : w.session.held b = some obj) (hf : f.frees obj = true) :
    ∃ w1 w2, f.call (.block b) w = .ok w1 ∧ opendalOperatorFree (.block a) w1 = .ok w2 ∧
      w2.Tidy ∧
      w2.session.held = Function.update (Function.update w.session.held b none) a none := by
  obtain ⟨w1, hfree1, ht1, hs1⟩ := free_of_frees ht hb hf
  have ha1 : w1.session.held a = some (.value .operator v) := by
    rw [hs1]
    exact (Function.update_of_ne hab _ _).trans ha
  obtain ⟨w2, hfree2, ht2, hs2⟩ := free_of_frees (f := .operator) ht1 ha1 rfl
  refine ⟨w1, w2, hfree1, hfree2, ht2, ?_⟩
  rw [hs2, hs1]
  rfl

/-- A second object next to the first, and nothing else. -/
theorem held_second {a b : ℕ} {first second : Object C} (ha : w.session.held a = some first)
    (honly : ∀ c, c ≠ a → w.session.held c = none) (hnone : w.session.held b = none)
    (hs : w'.session.held = Function.update w.session.held b (some second)) :
    w'.session.held a = some first ∧ w'.session.held b = some second ∧
      ∀ c, c ≠ a → c ≠ b → w'.session.held c = none := by
  have hab : a ≠ b := by
    rintro rfl
    rw [ha] at hnone
    cases hnone
  rw [hs]
  refine ⟨?_, Function.update_self _ _ _, ?_⟩
  · rw [Function.update_of_ne hab, ha]
  · intro c hca hcb
    rw [Function.update_of_ne hcb, honly c hca]

/-- The error and then the operator are freed. -/
theorem frees_both {a b : ℕ} {v : C.Operator} {code : Code} {message : List UInt8} (ht : w.Tidy)
    (ha : w.session.held a = some (.value .operator v))
    (hb : w.session.held b = some (.error code message))
    (honly : ∀ c, c ≠ a → c ≠ b → w.session.held c = none) :
    ∃ w1 w2, opendalErrorFree (.block b) w = .ok w1 ∧
      opendalOperatorFree (.block a) w1 = .ok w2 ∧ w2.Tidy ∧ ∀ c, w2.session.held c = none := by
  have hab : a ≠ b := by
    rintro rfl
    rw [ha] at hb
    cases hb
  obtain ⟨w1, w2, hfree1, hfree2, ht2, hheld⟩ := frees_second (f := .error) ht hab ha hb rfl
  refine ⟨w1, w2, hfree1, hfree2, ht2, ?_⟩
  intro c
  simp only [hheld, Function.update_apply]
  split_ifs with hca hcb
  · rfl
  · rfl
  · exact honly c hca hcb

/-! ## `error_handle.go` -/

/-- What the demo expects: the operator is there, and the file is not. -/
def ReadsNotFound (core : C.State) (e : C.Error) : Prop :=
  ∃ o v, (Session.start core).operatorNew (CStr.new "memory") .null = .ok o ∧
    o.made = some (.value .operator v) ∧
    (C.read v "testpath" o.session.core).1 = .error e ∧ C.kind e = .notFound

theorem toInt_eq_goNotFound {code : Code} {k : ErrorKind} (h : Code.ofKind k = .ok code) :
    code.toInt = goNotFound ↔ k = .notFound := by
  cases k <;> cases h <;> decide

/-- Where an operator was handed out, what the demo expects is up to the read. -/
theorem readsNotFound_iff {core : C.State} {v : C.Operator} {e : C.Error}
    (h : (Session.start core).operatorNew (CStr.new "memory") .null =
      .ok ⟨s, some (.value .operator v), handed⟩) :
    ReadsNotFound core e ↔
      (C.read v "testpath" s.core).1 = .error e ∧ C.kind e = .notFound := by
  constructor
  · rintro ⟨o, v', ho, hmade, hread, hk⟩
    rw [h] at ho
    cases ho
    cases hmade
    exact ⟨hread, hk⟩
  · rintro ⟨hread, hk⟩
    exact ⟨_, v, h, rfl, hread, hk⟩

/-- The demo ends without undefined behaviour, and has freed all it was handed exactly when
it found what it expects. -/
structure FreesOnNotFound (core : C.State) (x : Except Fault (List UInt8 × World C)) : Prop where
  defined : ∀ f, x = .error f → f ≠ .undefined
  freed : ∀ printed w, x = .ok (printed, w) →
    (w.heap.keys = [] ↔ ∃ e, ReadsNotFound core e)
  printed : ∀ printed w e, x = .ok (printed, w) → ReadsNotFound core e → printed = C.toString e

theorem freesOnNotFound_fault {core : C.State} {f : Fault} (hf : f ≠ .undefined) :
    FreesOnNotFound core (.error f) := by
  constructor
  · rintro f' ⟨⟩
    exact hf
  · rintro printed w ⟨⟩
  · rintro printed w e ⟨⟩

/-- An early return while something is held. -/
theorem freesOnNotFound_early {core : C.State} {a : ℕ} {obj : Object C} (ht : w.Tidy)
    (hheld : w.session.held a = some obj) (hnot : ∀ e, ¬ ReadsNotFound core e) :
    FreesOnNotFound core (.ok ([], w)) := by
  constructor
  · rintro f ⟨⟩
  · rintro printed w' ⟨⟩
    constructor
    · intro hnil
      exact absurd hnil (keys_ne_nil_of_held ht hheld)
    · rintro ⟨e, he⟩
      exact absurd he (hnot e)
  · rintro printed w' e ⟨⟩ he
    exact absurd he (hnot e)

/-- The way out on which nothing is left. -/
theorem freesOnNotFound_done {core : C.State} {e : C.Error} (ht : w.Tidy)
    (hempty : ∀ a, w.session.held a = none) (he : ReadsNotFound core e)
    (honly : ∀ e', ReadsNotFound core e' → e = e') :
    FreesOnNotFound core (.ok (C.toString e, w)) := by
  constructor
  · rintro f ⟨⟩
  · rintro printed w' ⟨⟩
    constructor
    · exact fun _ => ⟨e, he⟩
    · exact fun _ => ht.keys_eq_nil_iff.mpr hempty
  · rintro printed w' e' ⟨⟩ he'
    rw [honly e' he']

/-- The demo leaves memory behind on every way out but the one it expects, where it prints
what the core said. -/
theorem errorHandle_frees (core : C.State) :
    FreesOnNotFound core (errorHandleMain supply (World.start core)) := by
  have hend := operatorNew_ends supply (tidy_start core) (CStr.new "memory")
  unfold errorHandleMain
  generalize opendalOperatorNew supply (CStr.new "memory") .null (World.start core) = x at hend
  cases hend with
  | fault f hf hspec => exact freesOnNotFound_fault hf
  | error s code message a w1 hspec hheld hnone ht1 hs1 =>
      rw [ok_bind]
      refine freesOnNotFound_early ht1 (a := a) (by rw [hs1]; exact Function.update_self _ _ _) ?_
      rintro e ⟨o, v, ho, hmade, -, -⟩
      rw [session_start, ho] at hspec
      cases hspec
      cases hmade
  | operator s v a w1 hspec hheld hnone ht1 hs1 =>
      rw [session_start] at hspec
      have hexpects := fun e => readsNotFound_iff (e := e) hspec
      have hcore : w1.core = s.core := congrArg Session.core hs1
      have hopens := Opens.of_add hheld hnone ht1 hs1
      rw [ok_bind]
      change FreesOnNotFound core (opendalOperatorRead supply (.block a) _ w1 >>= _)
      have hread := read_ends supply ht1 (show (CStr.new "testpath").isSome by decide) hopens.value
      generalize opendalOperatorRead supply (.block a) (CStr.new "testpath") w1 = y at hread
      cases hread with
      | fault f hf => exact freesOnNotFound_fault hf
      | data bs b w2 hok hnone2 ht2 hs2 =>
          obtain ⟨hat2, -, -⟩ := held_second hopens.operator (fun _ => hopens.alone) hnone2 hs2
          refine freesOnNotFound_early ht2 hat2 ?_
          intro e he
          rw [hexpects, ← hcore, hok] at he
          cases he.1
      | error e code b w2 herr hcode hnone2 ht2 hs2 =>
          obtain ⟨hat2, hbt2, honly⟩ :=
            held_second hopens.operator (fun _ => hopens.alone) hnone2 hs2
          have hexpect : ∀ e', ReadsNotFound core e' ↔ e = e' ∧ C.kind e' = .notFound := by
            intro e'
            rw [hexpects, ← hcore, herr]
            simp
          rw [ok_bind]
          change FreesOnNotFound core (loadError (.block b) w2 >>= _)
          rw [loadError_of_held hbt2, ok_bind]
          dsimp only
          by_cases hk : C.kind e = .notFound
          · rw [if_neg (not_not.mpr ((toInt_eq_goNotFound hcode).mpr hk))]
            unfold arraySlice
            split
            · obtain ⟨w3, w4, hfree3, hfree4, ht4, hempty⟩ := frees_both ht2 hat2 hbt2 honly
              rw [ok_bind, hfree3, ok_bind, hfree4, ok_bind]
              refine freesOnNotFound_done ht4 hempty ((hexpect e).mpr ⟨rfl, hk⟩) ?_
              exact fun e' he' => ((hexpect e').mp he').1
            · exact freesOnNotFound_fault (by simp)
          · rw [if_pos fun h => hk ((toInt_eq_goNotFound hcode).mp h)]
            refine freesOnNotFound_early ht2 hat2 ?_
            intro e' he'
            obtain ⟨rfl, hk'⟩ := (hexpect e').mp he'
            exact hk hk'

/-! ## `basic.c` -/

/-- How writing through an operator ends. -/
inductive WriteEnds (w : World C) (v : C.Operator) (str : String) (bs : List UInt8) :
    Except Fault (Ptr × World C) → Prop where
  | written (core : C.State) (w' : World C) : C.write v str bs w.core = (.ok (), core) →
      w'.Tidy → w'.session = { w.session with core := core } →
      WriteEnds w v str bs (.ok (.null, w'))
  | refused (b : ℕ) (w' : World C) : WriteEnds w v str bs (.ok (.block b, w'))
  | fault (f : Fault) : f ≠ .undefined → WriteEnds w v str bs (.error f)

theorem write_ends (ht : w.Tidy) {op : Ptr} {v : C.Operator} {str : String} {b : OpendalBytes}
    {bs : List UInt8} (hstr : (CStr.new str).isSome) (hv : w.session.value .operator op = .ok v)
    (hb : slice b w = .ok bs) :
    WriteEnds w v str bs (opendalOperatorWrite supply op (CStr.new str) b w) := by
  have href := onPathUnit_refines supply (fun op path => C.write op path bs) ht op (CStr.new str)
  rw [← opendalOperatorWrite_eq supply hb, onPath_literal hstr hv] at href
  rcases href.ends fun f hf => answer_not_undefined hf with
    ⟨f, hx, hf, -⟩ | ⟨o, p, result, w1, hx, hspec, hreply, ht1, hhands⟩
  · rw [hx]
    exact .fault f hf
  · rw [hx]
    have hans := answer_eq_ok hspec
    generalize hs1 : w1.session = s1 at hhands
    generalize hwrite : C.write v str bs w.session.core = r at hans
    obtain ⟨r, core⟩ := r
    cases hans with
    | value u =>
        cases hhands
        cases hreply
        exact .written core w1 hwrite ht1 hs1
    | error e code hcode =>
        cases hhands with
        | something b' _ hnone =>
            cases hreply
            exact .refused b' w1

/-- The demo prints what it wrote, and hands everything back. -/
structure PrintsWritten (w : World C) (text : List UInt8)
    (x : Except Abort (List UInt8 × World C)) : Prop where
  defined : x ≠ .error (.fault .undefined)
  printed : ∀ printed w', x = .ok (printed, w') →
    printed = text ++ [10] ∧ w'.session.held = w.session.held
  /-- Only the operator and the write can be refused. -/
  asserted : ∀ condition, x = .error (.assertion condition) →
    condition = "result.op != NULL" ∨ condition = "error == NULL"

theorem printsWritten_fault {text : List UInt8} {f : Fault} (hf : f ≠ .undefined) :
    PrintsWritten w text (.error (.fault f)) := by
  constructor
  · rintro ⟨⟩
    exact hf rfl
  · rintro printed w' ⟨⟩
  · rintro condition ⟨⟩

theorem printsWritten_assertion {text : List UInt8} {condition : String}
    (h : condition = "result.op != NULL" ∨ condition = "error == NULL") :
    PrintsWritten w text (.error (.assertion condition)) := by
  constructor
  · rintro ⟨⟩
  · rintro printed w' ⟨⟩
  · rintro condition' ⟨⟩
    exact h

/-- All the caller's memory is what the binding takes for the bytes. -/
theorem slice_memory {text : List UInt8} {a : ℕ}
    (h : w.session.at? (.block a) = some (.memory text)) :
    slice ⟨.block a, text.length⟩ w = .ok text := by
  obtain ⟨b, r, ⟨⟩, hr, hbuilt⟩ := built_of_at? h
  cases hbuilt with
  | memory bs => simp [slice, Blocks.root_eq_some.mp hr]

/-- `basic.c` from where it has read. -/
def basicPrints (op readBytes : Ptr) (w : World C) : Except Abort (List UInt8 × World C) := do
  let bytes ← calling (loadBytes readBytes w)
  cAssert "read_bytes->len == 24" (bytes.length = 24)
  let w ← calling (opendalBytesFree readBytes w)
  let w ← calling (opendalOperatorFree op w)
  return (bytes.take 24 ++ [10], w)

/-- `basic.c` from where it has written. -/
def basicReads (op : Ptr) (w : World C) : Except Abort (List UInt8 × World C) := do
  let (r, w) ← calling (opendalOperatorRead supply op (CStr.new "/testpath") w)
  cAssert "r.error == NULL" (r.error = .null)
  basicPrints op r.value w

/-- `basic.c` from where it has its operator. -/
def basicWrites (data op : Ptr) (w : World C) : Except Abort (List UInt8 × World C) := do
  let (error, w) ← calling (opendalOperatorWrite supply op (CStr.new "/testpath") ⟨data, 24⟩ w)
  cAssert "error == NULL" (error = .null)
  basicReads supply op w

theorem basicMain_eq (data : Ptr) (w : World C) :
    basicMain supply data w = (do
      let (result, w) ← calling (opendalOperatorNew supply (CStr.new "memory") .null w)
      cAssert "result.op != NULL" (result.value ≠ .null)
      cAssert "result.error == NULL" (result.error = .null)
      basicWrites supply data result.value w) := rfl

namespace Opens

variable {w'' : World C} {v : C.Operator} {a b d : ℕ} {text : List UInt8}

/-- The 24 bytes are printed, and they and the operator are given back. -/
theorem prints (h : Opens w v a w') (ht : w''.Tidy) (hnone : w'.session.held b = none)
    (hs : w''.session.held = Function.update w'.session.held b (some (.bytes text)))
    (hlen : text.length = 24) :
    PrintsWritten w text (basicPrints (.block a) (.block b) w'') := by
  have hab : a ≠ b := by
    rintro rfl
    rw [h.operator] at hnone
    cases hnone
  have ha : w''.session.held a = some (.value .operator v) := by
    rw [hs, Function.update_of_ne hab, h.operator]
  have hb : w''.session.held b = some (.bytes text) := by
    rw [hs, Function.update_self]
  have hbnone : w.session.held b = none := by
    rw [h.held, Function.update_of_ne hab.symm] at hnone
    exact hnone
  obtain ⟨w1, w2, hfree1, hfree2, -, hheld⟩ := frees_second (f := .bytes) ht hab ha hb rfl
  have hback : w2.session.held = w.session.held := by
    rw [hheld, hs, h.held]
    funext c
    simp only [Function.update_apply]
    split_ifs with hca hcb
    · rw [hca, h.unused]
    · rw [hcb, hbnone]
    · rfl
  have hrun : basicPrints (.block a) (.block b) w'' = .ok (text ++ [10], w2) := by
    have hfree : opendalBytesFree (.block b) w'' = .ok w1 := hfree1
    have htake : text.take 24 = text := by rw [← hlen, List.take_length]
    unfold basicPrints
    rw [loadBytes_of_held hb]
    change cAssert "read_bytes->len == 24" (text.length = 24) >>= _ = _
    rw [hlen]
    change calling (opendalBytesFree (.block b) w'') >>= _ = _
    rw [hfree]
    change calling (opendalOperatorFree (.block a) w1) >>= _ = _
    rw [hfree2]
    change Except.ok (text.take 24 ++ [10], w2) = _
    rw [htake]
  rw [hrun]
  constructor
  · rintro ⟨⟩
  · rintro printed w' ⟨⟩
    exact ⟨rfl, hback⟩
  · rintro condition ⟨⟩

/-- A file that is there is read, and the assertion after the read holds. -/
theorem reads (h : Opens w v a w') (hfile : (C.read v "/testpath" w'.core).1 = .ok text)
    (hlen : text.length = 24) : PrintsWritten w text (basicReads supply (.block a) w') := by
  have hread := read_ends supply h.tidy (show (CStr.new "/testpath").isSome by decide) h.value
  unfold basicReads
  generalize opendalOperatorRead supply (.block a) (CStr.new "/testpath") w' = x at hread
  cases hread with
  | fault f hf => exact printsWritten_fault hf
  | error e code b w2 herr hcode hnone ht2 hs2 =>
      rw [hfile] at herr
      cases herr
  | data bs b w2 hok hnone ht2 hs2 =>
      rw [hfile] at hok
      cases hok
      exact h.prints ht2 hnone hs2 hlen

/-- The write is refused, or the file is read. -/
theorem writes (h : Opens w v a w')
    (hstore : ∀ s s', C.write v "/testpath" text s = (.ok (), s') →
      (C.read v "/testpath" s').1 = .ok text)
    (hdata : w.session.at? (.block d) = some (.memory text)) (hlen : text.length = 24) :
    PrintsWritten w text (basicWrites supply (.block d) (.block a) w') := by
  have hslice := slice_memory (w := w') (h.keeps hdata)
  rw [hlen] at hslice
  have hwrite := write_ends supply h.tidy (show (CStr.new "/testpath").isSome by decide) h.value
    hslice
  unfold basicWrites
  generalize opendalOperatorWrite supply (.block a) (CStr.new "/testpath") ⟨.block d, 24⟩ w' = x
    at hwrite
  cases hwrite with
  | fault f hf => exact printsWritten_fault hf
  | refused b w2 => exact printsWritten_assertion (.inr rfl)
  | written core w2 hok ht2 hs2 =>
      have hcore : w2.core = core := congrArg Session.core hs2
      have hopens : Opens w v a w2 := ⟨ht2, h.unused, by rw [hs2]; exact h.held⟩
      refine hopens.reads supply ?_ hlen
      rw [hcore]
      exact hstore _ _ hok

end Opens

/-- On a service that reads back what was written, the assertions after the write hold. -/
theorem basic_prints {text : List UInt8}
    (hstore : ∀ v s s', C.write v "/testpath" text s = (.ok (), s') →
      (C.read v "/testpath" s').1 = .ok text)
    (ht : w.Tidy) {d : ℕ} (hdata : w.session.at? (.block d) = some (.memory text))
    (hlen : text.length = 24) : PrintsWritten w text (basicMain supply (.block d) w) := by
  have hend := operatorNew_ends supply ht (CStr.new "memory")
  rw [basicMain_eq]
  generalize opendalOperatorNew supply (CStr.new "memory") .null w = x at hend
  cases hend with
  | fault f hf hspec => exact printsWritten_fault hf
  | error s code message a w1 hspec hheld hnone ht1 hs1 => exact printsWritten_assertion (.inl rfl)
  | operator s v a w1 hspec hheld hnone ht1 hs1 =>
      exact (Opens.of_add hheld hnone ht1 hs1).writes supply (hstore v) hdata hlen

def demoText : List UInt8 :=
  "this_string_length_is_24".toUTF8.data.toList

/-- The program's own string, before `main`. -/
def stocked : World memoryCore :=
  (malloc Supply.lowest demoText (World.start (∅ : Files))).2

theorem basic_prints_stocked :
    PrintsWritten stocked demoText (basicMain Supply.lowest (.block 0) stocked) := by
  have hstore : ∀ (v : Unit) (s s' : Files),
      memoryCore.write v "/testpath" demoText s = (.ok (), s') →
        (memoryCore.read v "/testpath" s').1 = .ok demoText := by
    rintro v s s' ⟨⟩
    have hlookup : AList.lookup "/testpath" (s.insert "/testpath" demoText) = some demoText :=
      AList.lookup_insert s
    exact congrArg (fun file => file.elim (Except.error ErrorKind.notFound) Except.ok) hlookup
  have ht : stocked.Tidy :=
    (box_handsOut Supply.lowest (tidy_start (C := memoryCore) (∅ : Files)) rfl rfl).1
  exact basic_prints Supply.lowest hstore ht rfl (by decide)

/-! ## `error_handle.c` -/

/-- What is not as the demos expect, and the assertion of `error_handle.c` that is about it. -/
inductive Unexpected (core : C.State) : String → Prop where
  | refused (s : Session C) (code : Code) (message : List UInt8) :
      (Session.start core).operatorNew (CStr.new "memory") .null =
        .ok ⟨s, some (.error code message), failed⟩ → Unexpected core "result.op != NULL"
  | there (s : Session C) (v : C.Operator) (bs : List UInt8) :
      (Session.start core).operatorNew (CStr.new "memory") .null =
        .ok ⟨s, some (.value .operator v), handed⟩ → (C.read v "testpath" s.core).1 = .ok bs →
      Unexpected core "r.error != NULL"
  | unread (s : Session C) (v : C.Operator) (e : C.Error) :
      (Session.start core).operatorNew (CStr.new "memory") .null =
        .ok ⟨s, some (.value .operator v), handed⟩ → (C.read v "testpath" s.core).1 = .error e →
      C.kind e ≠ .notFound → Unexpected core "r.error->code == OPENDAL_NOT_FOUND"

/-- How `error_handle.c` ends where `error_handle.go` ends as it does. Only a text that is too
long for a slice or a counter tells them apart. -/
inductive Ported (core : C.State) : Except Fault (List UInt8 × World C) →
    Except Abort (List UInt8 × World C) → Prop where
  | ended (e : C.Error) (w : World C) : ReadsNotFound core e → w.heap.keys = [] →
      Ported core (.ok (C.toString e, w)) (.ok (C.toString e, w))
  | stopped (condition : String) (w : World C) : Unexpected core condition →
      w.heap.keys ≠ [] → Ported core (.ok ([], w)) (.error (.assertion condition))
  | fault (f : Fault) : f ≠ .undefined → Ported core (.error f) (.error (.fault f))
  | unsliced (e : C.Error) (w : World C) : ReadsNotFound core e →
      1 <<< 30 < (C.toString e).length → w.heap.keys = [] →
      Ported core (.error (.panic "runtime error: slice bounds out of range"))
        (.ok (C.toString e, w))
  | uncounted (e : C.Error) : ReadsNotFound core e → intMax < (C.toString e).length →
      Ported core (.error (.panic "runtime error: slice bounds out of range"))
        (.error (.fault .undefined))

/-- Where the one returns, the assertion of the other fails. -/
theorem Ported.guard {core : C.State} {early : Prop} [Decidable early] {holds : Bool}
    {condition : String} {x : Except Fault (List UInt8 × World C)}
    {y : Except Abort (List UInt8 × World C)} (hsame : holds = true ↔ ¬ early)
    (hleft : early → w.heap.keys ≠ []) (hwhy : early → Unexpected core condition)
    (hnext : ¬ early → Ported core x y) :
    Ported core (if early then .ok ([], w) else x) (cAssert condition holds >>= fun _ => y) := by
  by_cases h : early
  · have hfails : holds = false := by
      rw [← Bool.not_eq_true, hsame]
      exact not_not.2 h
    rw [if_pos h, hfails]
    exact .stopped condition w (hwhy h) (hleft h)
  · rw [if_neg h, hsame.2 h]
    exact hnext h

/-- A store that takes the two paths for one gives the two demos the same answer. -/
theorem read_testpath (hpath : ∀ v core, C.read v "/testpath" core = C.read v "testpath" core)
    {op : Ptr} : opendalOperatorRead supply op (CStr.new "/testpath") w =
      opendalOperatorRead supply op (CStr.new "testpath") w := by
  obtain ⟨c, hc, hunwrap⟩ := literal_given (show (CStr.new "/testpath").isSome by decide)
  obtain ⟨c', hc', hunwrap'⟩ := literal_given (show (CStr.new "testpath").isSome by decide)
  have hread : ∀ v, C.read v "/testpath" = C.read v "testpath" := fun v => funext (hpath v)
  simp only [opendalOperatorRead, onPath, hc, hc', notNull, Option.elim_some, ok_bind, hunwrap,
    hunwrap', hread]

/-- The text is printed and all is given back, where it is not too long. -/
theorem ported_text {core : C.State} {a b : ℕ} {v : C.Operator} {code : Code} {e : C.Error}
    (he : ReadsNotFound core e) (ht : w.Tidy)
    (ha : w.session.held a = some (.value .operator v))
    (hb : w.session.held b = some (.error code (C.toString e)))
    (honly : ∀ c, c ≠ a → c ≠ b → w.session.held c = none) :
    Ported core
      (do
        let dataSlice ← arraySlice (C.toString e)
        let w ← opendalErrorFree (.block b) w
        let w ← opendalOperatorFree (.block a) w
        return (dataSlice, w))
      (do
        let printed ← calling (printWithInt (C.toString e))
        let w ← calling (opendalErrorFree (.block b) w)
        let w ← calling (opendalOperatorFree (.block a) w)
        return (printed, w)) := by
  obtain ⟨w1, w2, hfree1, hfree2, ht2, hempty⟩ := frees_both ht ha hb honly
  have hkeys := ht2.keys_eq_nil_iff.mpr hempty
  rw [hfree1]
  unfold arraySlice printWithInt
  split
  · have hcounted : (C.toString e).length ≤ intMax := by
      have : 1 <<< 30 ≤ intMax := by decide
      omega
    rw [if_pos hcounted]
    change Ported core (opendalOperatorFree (.block a) w1 >>= _)
      (calling (opendalOperatorFree (.block a) w1) >>= _)
    rw [hfree2]
    exact .ended e w2 he hkeys
  · rename_i hlong
    split
    · change Ported core _ (calling (opendalOperatorFree (.block a) w1) >>= _)
      rw [hfree2]
      exact .unsliced e w2 he (Nat.lt_of_not_le hlong) hkeys
    · rename_i huncounted
      exact .uncounted e he (Nat.lt_of_not_le huncounted)

/-- On a store that drops the slash before a path, the two demos print the same and leave the
same: where `error_handle.go` returns early, something is left and the assertion about it
stops `error_handle.c`. The second assertion never does. -/
theorem errorHandle_ported (core : C.State)
    (hpath : ∀ v core, C.read v "/testpath" core = C.read v "testpath" core) :
    Ported core (errorHandleMain supply (World.start core))
      (errorHandleC supply (World.start core)) := by
  have hend := operatorNew_ends supply (tidy_start core) (CStr.new "memory")
  unfold errorHandleMain errorHandleC
  generalize opendalOperatorNew supply (CStr.new "memory") .null (World.start core) = x at hend
  cases hend with
  | fault f hf hspec => exact .fault f hf
  | error s code message a w1 hspec hheld hnone ht1 hs1 =>
      rw [session_start] at hspec
      have ha : w1.session.held a = some (.error code message) := by
        rw [hs1]
        exact Function.update_self _ _ _
      exact .stopped _ w1 (.refused s code message hspec) (keys_ne_nil_of_held ht1 ha)
  | operator s v a w1 hspec hheld hnone ht1 hs1 =>
      rw [session_start] at hspec
      have hcore : w1.core = s.core := congrArg Session.core hs1
      have hopens := Opens.of_add hheld hnone ht1 hs1
      have hread := read_ends supply ht1 (show (CStr.new "testpath").isSome by decide) hopens.value
      change Ported core (opendalOperatorRead supply (.block a) _ w1 >>= _)
        (calling (opendalOperatorRead supply (.block a) _ w1) >>= _)
      rw [read_testpath supply hpath]
      generalize opendalOperatorRead supply (.block a) (CStr.new "testpath") w1 = y at hread
      cases hread with
      | fault f hf => exact .fault f hf
      | data bs b w2 hok hnone2 ht2 hs2 =>
          rw [hcore] at hok
          have hb : w2.session.held b = some (.bytes bs) := by
            rw [hs2, Function.update_self]
          exact .stopped _ w2 (.there s v bs hspec hok) (keys_ne_nil_of_held ht2 hb)
      | error e code b w2 herr hcode hnone2 ht2 hs2 =>
          rw [hcore] at herr
          obtain ⟨hat2, hbt2, honly⟩ :=
            held_second hopens.operator (fun _ => hopens.alone) hnone2 hs2
          have hkind := toInt_eq_goNotFound hcode
          change Ported core (loadError (.block b) w2 >>= _)
            (calling (loadError (.block b) w2) >>= _)
          rw [loadError_of_held hbt2]
          refine Ported.guard (w := w2) ?_ (fun _ => keys_ne_nil_of_held ht2 hat2) ?_ ?_
          · rw [not_not, decide_eq_true_iff]
            cases code <;> decide
          · exact fun hearly => .unread s v e hspec herr (mt hkind.mpr hearly)
          · intro hfound
            have he := (readsNotFound_iff hspec).mpr ⟨herr, hkind.mp (not_not.mp hfound)⟩
            exact ported_text he ht2 hat2 hbt2 honly

/-- A service in memory that drops the slash before the path of a read. -/
def slashlessCore : Core :=
  { memoryCore with
    read := fun v path => memoryCore.read v (String.ofList (path.toList.dropWhile (· = '/'))) }

theorem errorHandle_ported_slashless :
    Ported (C := slashlessCore) (∅ : Files)
      (errorHandleMain Supply.lowest (World.start (C := slashlessCore) (∅ : Files)))
      (errorHandleC Supply.lowest (World.start (C := slashlessCore) (∅ : Files))) :=
  errorHandle_ported (C := slashlessCore) Supply.lowest (∅ : Files) fun _ _ => rfl

end LlgoExamples.Opendal
