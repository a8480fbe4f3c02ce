import LlgoExamples.Verification.Opendal.Session

/-! # The binding refines its sessions

Reading the objects off the heap of a world gives a session. Every call answers and leaves
the world as the session says, at an address that was not held before. -/

namespace LlgoExamples.Opendal

open Blocks

variable {C : Core}

/-! ## Reading objects off the heap -/

def OpendalBytes.owned (b : OpendalBytes) : Option ℕ :=
  match b.data with
  | .block a => some a
  | _ => none

/-- The bytes of a struct and of the vector it owns, which is exactly as long. -/
def vecView (b : OpendalBytes) (part : Option (Part C)) : Option (List UInt8) :=
  match b.data, part with
  | .block _, some (.vec bs) => if bs.length = b.len then some bs else none
  | .dangling, none => if b.len = 0 then some [] else none
  | _, _ => none

def layout (C : Core) : Layout Root (Part C) (Object C) where
  owned
    | .handle _ inner => some inner
    | .bytes b => b.owned
    | .error _ message => message.owned
    | .cString _ => none
    | .memory _ => none
  view
    | .handle kind _, some (.value kind' v) =>
        if kind' = kind then some (.value kind' v) else none
    | .bytes b, part => (vecView b part).map .bytes
    | .error code message, part => (vecView message part).map (.error code)
    | .cString s, _ => some (.cString s)
    | .memory bs, _ => some (.memory bs)
    | _, _ => none

namespace World

def session (w : World C) : Session C :=
  ⟨(layout C).object w.heap, w.core⟩

def Tidy (w : World C) : Prop :=
  (layout C).Tidy w.heap

end World

theorem session_start (core : C.State) : (World.start core).session = Session.start core := by
  unfold World.session World.start Session.start
  congr 1

theorem tidy_start (core : C.State) : (World.start core).Tidy :=
  tidy_empty

variable (supply : Supply) {w w' : World C} {kind : Kind} {v : C.Payload kind} {p : Ptr} {a : ℕ}

@[simp] theorem session_held (w : World C) : w.session.held = (layout C).object w.heap := rfl

@[simp] theorem session_core (w : World C) : w.session.core = w.core := rfl

theorem fresh_notMem (w : World C) : supply.pick w.handed w.heap.keys.toFinset ∉ w.heap := by
  have h := supply.fresh w.handed w.heap.keys.toFinset
  rw [List.mem_toFinset] at h
  exact h

/-- Addresses that are not in use hold nothing. -/
theorem object_of_notMem {h : Heap Root (Part C)} (ha : a ∉ h) : (layout C).object h a = none := by
  refine object_eq_none ?_
  simp [Heap.root, AList.lookup_eq_none.mpr ha]

/-! ## Handing out -/

/-- What handing out `made` has to do. -/
def HandsOut (s : Session C) (made : Option (Object C)) (out : Ptr × World C) : Prop :=
  out.2.Tidy ∧ Hands s made out.1 out.2.session

theorem box_handsOut (ht : w.Tidy) {r : Root} {obj : Object C}
    (ho : (layout C).owned r = none) (hv : (layout C).view r none = some obj) :
    HandsOut w.session (some obj) (w.box supply r) := by
  have ha := fresh_notMem supply w
  obtain ⟨htidy, hobj⟩ := box_alone ht ha ho hv
  refine ⟨htidy, ?_⟩
  have hs : (w.box supply r).2.session =
      w.session.add (supply.pick w.handed w.heap.keys.toFinset) obj := by
    unfold World.session Session.add
    congr 1
  rw [hs]
  exact .something _ _ (object_of_notMem ha)

/-- A part and then the root that owns it. -/
theorem boxPart_handsOut (ht : w.Tidy) {r : ℕ → Root} {part : Part C} {obj : Object C}
    (ho : ∀ b, (layout C).owned (r b) = some b)
    (hv : ∀ b, (layout C).view (r b) (some part) = some obj) :
    HandsOut w.session (some obj)
      ((w.boxPart supply part).2.box supply (r (w.boxPart supply part).1)) := by
  have hb := fresh_notMem supply w
  let inner := (w.boxPart supply part).2
  have ha := fresh_notMem supply inner
  obtain ⟨htidy, hobj⟩ := box_object ht hb ha (ho _) (hv _)
  refine ⟨htidy, ?_⟩
  have hs : (inner.box supply (r (w.boxPart supply part).1)).2.session =
      w.session.add (supply.pick inner.handed inner.heap.keys.toFinset) obj := by
    unfold World.session Session.add
    congr 1
  rw [hs]
  refine .something _ _ (object_of_notMem ?_)
  intro hmem
  exact ha ((AList.mem_insert _).mpr (.inr hmem))

theorem newHandle_handsOut (ht : w.Tidy) :
    HandsOut w.session (some (.value kind v)) (newHandle supply kind v w) :=
  boxPart_handsOut supply ht (fun _ => rfl) (fun _ => by simp [layout])

/-- A struct over a new vector. -/
theorem opendalBytesNew_handsOut (ht : w.Tidy) {r : OpendalBytes → Root}
    {obj : List UInt8 → Object C} (ho : ∀ b, (layout C).owned (r b) = b.owned)
    (hv : ∀ b part, (layout C).view (r b) part = (vecView b part).map obj) (bs : List UInt8) :
    HandsOut w.session (some (obj bs))
      ((opendalBytesNew supply bs w).2.box supply (r (opendalBytesNew supply bs w).1)) := by
  unfold opendalBytesNew
  split
  · rename_i hnil
    subst hnil
    exact box_handsOut supply ht (ho _) (by simp [hv, vecView])
  · exact boxPart_handsOut supply (r := fun b => r ⟨.block b, bs.length⟩) ht (fun _ => ho _)
      (fun _ => by simp [hv, vecView])

/-! ## Following pointers -/

theorem rootAt_block (w : World C) (a : ℕ) :
    w.rootAt (.block a) = (w.heap.root a).elim (.error .undefined) .ok := rfl

theorem rootAt_of_root {r : Root} (hr : w.heap.root a = some r) : w.rootAt (.block a) = .ok r := by
  rw [rootAt_block, hr]
  rfl

/-- The vector of a struct. -/
inductive Holds (w : World C) : OpendalBytes → List UInt8 → Prop where
  | empty : Holds w ⟨.dangling, 0⟩ []
  | vec (b : ℕ) (bs : List UInt8) : w.heap.part b = some (.vec bs) →
      Holds w ⟨.block b, bs.length⟩ bs

/-- The blocks of an object. -/
inductive Built (w : World C) : Root → Object C → Prop where
  | value (kind : Kind) (inner : ℕ) (v : C.Payload kind) :
      w.heap.part inner = some (.value kind v) → Built w (.handle kind inner) (.value kind v)
  | bytes (b : OpendalBytes) (bs : List UInt8) : Holds w b bs → Built w (.bytes b) (.bytes bs)
  | error (code : Code) (message : OpendalBytes) (bs : List UInt8) : Holds w message bs →
      Built w (.error code message) (.error code bs)
  | cString (s : CStr) : Built w (.cString s) (.cString s)
  | memory (bs : List UInt8) : Built w (.memory bs) (.memory bs)

theorem holds_of_vecView {b : OpendalBytes} {part : Option (Part C)} {bs : List UInt8}
    (h : vecView b part = some bs)
    (hpart : ∀ x, b.owned = some x → w.heap.part x = part) : Holds w b bs := by
  obtain ⟨data, len⟩ := b
  cases data with
  | null => cases h
  | dangling =>
      cases part with
      | some part => cases h
      | none =>
          simp only [vecView] at h
          split at h
          · rename_i hlen
            cases h
            cases hlen
            exact .empty
          · cases h
  | block x =>
      rcases part with - | (⟨kind, v⟩ | ⟨bs'⟩)
      · cases h
      · cases h
      · simp only [vecView] at h
        split at h
        · rename_i hlen
          cases h
          cases hlen
          exact .vec x bs (hpart x rfl)
        · cases h

/-- Where a session holds an object, all its blocks are there. -/
theorem built_of_object {obj : Object C} (h : (layout C).object w.heap a = some obj) :
    ∃ r, w.heap.root a = some r ∧ Built w r obj := by
  obtain ⟨r, hr, hcase⟩ := object_eq_some h
  refine ⟨r, hr, ?_⟩
  obtain ⟨part, hview, hpart⟩ : ∃ part, (layout C).view r part = some obj ∧
      ∀ x, (layout C).owned r = some x → w.heap.part x = part := by
    rcases hcase with ⟨hnone, hview⟩ | ⟨b, part, hb, hp, hview⟩
    · refine ⟨none, hview, fun x hx => ?_⟩
      rw [hnone] at hx
      cases hx
    · refine ⟨some part, hview, fun x hx => ?_⟩
      rw [hb] at hx
      cases hx
      exact hp
  cases r with
  | handle kind inner =>
      have hinner := hpart inner rfl
      rcases part with - | (⟨kind', v⟩ | ⟨bs⟩)
      · cases hview
      · simp only [layout] at hview
        split at hview
        · rename_i hk
          subst hk
          cases hview
          exact .value kind' inner v hinner
        · cases hview
      · cases hview
  | bytes b =>
      obtain ⟨bs, hbs, rfl⟩ := Option.map_eq_some_iff.mp hview
      exact .bytes b bs (holds_of_vecView hbs hpart)
  | error code message =>
      obtain ⟨bs, hbs, rfl⟩ := Option.map_eq_some_iff.mp hview
      exact .error code message bs (holds_of_vecView hbs hpart)
  | cString s =>
      cases hview
      exact .cString s
  | memory bs =>
      cases hview
      exact .memory bs

theorem at?_eq_some {s : Session C} {obj : Object C} (h : s.at? p = some obj) :
    ∃ a, p = .block a ∧ s.held a = some obj := by
  cases p with
  | null => cases h
  | dangling => cases h
  | block a => exact ⟨a, rfl, h⟩

theorem built_of_at? {obj : Object C} (h : w.session.at? p = some obj) :
    ∃ a r, p = .block a ∧ w.heap.root a = some r ∧ Built w r obj := by
  obtain ⟨a, rfl, hobj⟩ := at?_eq_some h
  obtain ⟨r, hr, hbuilt⟩ := built_of_object hobj
  exact ⟨a, r, rfl, hr, hbuilt⟩

theorem at?_of_value {s : Session C} (h : s.value kind p = .ok v) :
    s.at? p = some (.value kind v) := by
  unfold Session.value at h
  split at h
  · rename_i kind' v' hobj
    split at h
    · rename_i hk
      subst hk
      cases h
      exact hobj
    · cases h
  · cases h

theorem value_of_at? {s : Session C} (h : s.at? p = some (.value kind v)) :
    s.value kind p = .ok v := by
  simp [Session.value, h]

theorem value_eq_ok (h : w.session.value kind p = .ok v) :
    ∃ a inner, p = .block a ∧ w.heap.root a = some (.handle kind inner) ∧
      w.heap.part inner = some (.value kind v) := by
  obtain ⟨a, r, rfl, hr, hbuilt⟩ := built_of_at? (at?_of_value h)
  cases hbuilt with
  | value kind inner v hpart => exact ⟨a, inner, rfl, hr, hpart⟩

theorem value_error {f : Fault} {s : Session C} (h : s.value kind p = .error f) :
    f = .undefined := by
  unfold Session.value at h
  split at h
  · split at h
    · cases h
    · cases h
      rfl
  · cases h
    rfl

theorem inner_of_root {inner : ℕ} (hr : w.heap.root a = some (.handle kind inner)) :
    w.inner kind (.block a) = .ok inner := by
  simp [World.inner, rootAt_of_root hr]

theorem load_of_part {inner : ℕ} (hp : w.heap.part inner = some (.value kind v)) :
    w.load kind inner = .ok v := by
  simp [World.load, hp]

theorem deref_of_value (h : w.session.value kind p = .ok v) : w.deref kind p = .ok v := by
  obtain ⟨a, inner, rfl, hr, hp⟩ := value_eq_ok h
  unfold World.deref
  rw [inner_of_root hr]
  exact load_of_part hp

/-- Storing a value where a session has one. -/
theorem store_spec (ht : w.Tidy) {inner : ℕ} (hr : w.heap.root a = some (.handle kind inner))
    (v' : C.Payload kind) :
    (w.store kind inner v').Tidy ∧
      (w.store kind inner v').session = w.session.set (.block a) (.value kind v') := by
  have hview : (layout C).view (.handle kind inner) (some (.value kind v')) =
      some (.value kind v') := by
    simp [layout]
  obtain ⟨htidy, hobj⟩ := set_part ht hr rfl hview
  refine ⟨htidy, ?_⟩
  unfold World.session Session.set Session.add
  congr 1

theorem memoryAt_eq_ok {bs : List UInt8} (h : w.session.memoryAt p = .ok bs) :
    ∃ a, p = .block a ∧ w.heap.root a = some (.memory bs) := by
  unfold Session.memoryAt at h
  split at h
  · rename_i bs' hobj
    cases h
    obtain ⟨a, r, rfl, hr, hbuilt⟩ := built_of_at? hobj
    cases hbuilt with
    | memory bs => exact ⟨a, rfl, hr⟩
  · cases h

theorem memoryAt_error {f : Fault} {s : Session C} (h : s.memoryAt p = .error f) :
    f = .undefined := by
  unfold Session.memoryAt at h
  split at h
  · cases h
  · cases h
    rfl

/-! ## Refinement of one call -/

/-- The world does what the session says, except where the session says nothing. -/
def Refines (o : Except Fault (Outcome C)) (r : Except Fault (Reply × World C)) : Prop :=
  match o with
  | .error f => f = .undefined ∨ r = .error f
  | .ok o => ∃ p w, r = .ok (o.reply p, w) ∧ HandsOut o.session o.made (p, w)

variable {α β : Type}

theorem refines_bind {x : Except Fault α} {f : α → Except Fault (Outcome C)}
    {g : α → Except Fault (Reply × World C)} (h : ∀ a, x = .ok a → Refines (f a) (g a)) :
    Refines (x >>= f) (x >>= g) := by
  cases x with
  | error e => exact .inr rfl
  | ok a => exact h a rfl

/-- A value that the session does not have makes it say nothing. -/
theorem refines_value {s : Session C} {f : C.Payload kind → Except Fault (Outcome C)}
    {r : Except Fault (Reply × World C)}
    (h : ∀ v, s.value kind p = .ok v → Refines (f v) r) : Refines (s.value kind p >>= f) r := by
  cases hv : s.value kind p with
  | error e =>
      rw [value_error hv]
      exact .inl rfl
  | ok v => exact h v hv

theorem refines_returns {s : Session C} {reply : Reply} (ht : w.Tidy) (hs : w.session = s) :
    Refines (.ok (s.replies reply)) (.ok (reply, w)) := by
  refine ⟨.null, w, rfl, ht, ?_⟩
  rw [hs]
  exact .nothing

theorem refines_hands {s : Session C} {obj : Object C} {reply : Ptr → Reply} {out : Ptr × World C}
    (h : HandsOut s (some obj) out) :
    Refines (.ok ⟨s, some obj, reply⟩) (.ok (reply out.1, out.2)) :=
  ⟨out.1, out.2, rfl, h⟩

theorem ok_bind (a : α) (f : α → Except Fault β) : (Except.ok a >>= f) = f a := rfl

theorem map_bind (x : Except Fault α) (f : α → Except Fault β) {γ : Type} (g : β → γ) :
    (x >>= f).map g = x >>= fun a => (f a).map g := by
  cases x <;> rfl

/-! ## Answers -/

theorem opendalErrorNew_refines (ht : w.Tidy) (e : C.Error) (reply : Ptr → Reply) :
    Refines (w.session.refuse e reply)
      ((opendalErrorNew supply e w).map fun (p, w) => (reply p, w)) := by
  unfold Session.refuse errorObject opendalErrorNew
  cases Code.ofKind (C.kind e) with
  | error f => exact .inr rfl
  | ok code =>
      exact refines_hands
        (opendalBytesNew_handsOut supply (r := .error code) ht (fun _ => rfl) (fun _ _ => rfl)
          (C.toString e))

/-- An operation answers as the session does, when its value is handed out as the session
says. -/
theorem answer_refines (wrap : Result α → Reply) {τ : Type} {made : τ → Option (Object C)}
    {good : τ → Ptr → Reply} {bad : Ptr → Reply} {hand : τ → World C → α × World C} {none' : α}
    (hbad : ∀ p, wrap ⟨none', p⟩ = bad p) (ht : w.Tidy)
    (hhand : ∀ v, ∃ p, wrap ⟨(hand v w).1, .null⟩ = good v p ∧
      HandsOut w.session (made v) (p, (hand v w).2)) (x : Except C.Error τ) :
    Refines (w.session.answer made good bad x)
      ((answer supply hand none' (x, w)).map fun (r, w) => (wrap r, w)) := by
  cases x with
  | ok v =>
      obtain ⟨p, hreply, hout⟩ := hhand v
      refine ⟨p, (hand v w).2, ?_, hout⟩
      change _ = Except.ok (good v p, (hand v w).2)
      rw [← hreply]
      rfl
  | error e =>
      obtain rfl : (fun p => wrap ⟨none', p⟩) = bad := funext hbad
      have h := opendalErrorNew_refines supply ht e fun p => wrap ⟨none', p⟩
      simp only [answer]
      cases herr : opendalErrorNew supply e w with
      | error f =>
          rw [herr] at h
          exact h
      | ok out =>
          rw [herr] at h
          exact h

/-! ## The functions of an operator -/

theorem session_perform {act : C.State → α × C.State} :
    w.session.perform act = ((w.perform act).1, (w.perform act).2.session) := rfl

theorem tidy_perform {act : C.State → α × C.State} (ht : w.Tidy) : (w.perform act).2.Tidy := ht

theorem onPath_refines {τ : Type} (wrap : Result α → Reply)
    (act : C.Operator → String → C.State → Except C.Error τ × C.State)
    {made : τ → Option (Object C)} {good : τ → Ptr → Reply} {bad : Ptr → Reply}
    {hand : τ → World C → α × World C} {none' : α}
    (hbad : ∀ p, wrap ⟨none', p⟩ = bad p) (ht : w.Tidy)
    (hhand : ∀ v (w : World C), w.Tidy → ∃ p, wrap ⟨(hand v w).1, .null⟩ = good v p ∧
      HandsOut w.session (made v) (p, (hand v w).2)) (op : Ptr) (path : Option CStr) :
    Refines (w.session.onPath act made good bad op path)
      ((onPath supply act hand none' op path w).map fun (r, w) => (wrap r, w)) := by
  unfold Session.onPath onPath
  rw [map_bind]
  refine refines_bind fun path _ => refines_value fun o ho => ?_
  rw [deref_of_value ho]
  change Refines _ (Except.map _ (path.unwrapStr >>= _))
  rw [map_bind]
  refine refines_bind fun str _ => ?_
  rw [session_perform]
  exact answer_refines supply wrap hbad (tidy_perform ht) (fun v => hhand v _ (tidy_perform ht)) _

theorem onPathUnit_eq_map (act : C.Operator → String → C.State → Except C.Error Unit × C.State)
    (op : Ptr) (path : Option CStr) :
    onPathUnit supply act op path w =
      (onPath supply act Prod.mk () op path w).map fun (r, w) => (r.error, w) := by
  unfold onPathUnit
  cases onPath supply act Prod.mk () op path w <;> rfl

/-- Nothing is handed out next to a value that is no pointer. -/
theorem handsOut_nothing (ht : w.Tidy) : HandsOut w.session none (.null, w) :=
  ⟨ht, .nothing⟩

theorem onPathUnit_refines
    (act : C.Operator → String → C.State → Except C.Error Unit × C.State) (ht : w.Tidy)
    (op : Ptr) (path : Option CStr) :
    Refines (w.session.onPath act (fun _ => none) (fun _ _ => .ptr .null) .ptr op path)
      ((onPathUnit supply act op path w).map fun (p, w) => (Reply.ptr p, w)) := by
  have h : Refines (w.session.onPath act (fun _ => none) (fun _ _ => .ptr .null) .ptr op path)
      ((onPath supply act Prod.mk () op path w).map fun (r, w) => (Reply.ptr r.error, w)) := by
    refine onPath_refines supply (fun r => .ptr r.error) act (fun _ => rfl) ht ?_ op path
    exact fun _ w ht => ⟨.null, rfl, handsOut_nothing ht⟩
  rw [onPathUnit_eq_map]
  cases hx : onPath supply act Prod.mk () op path w with
  | error f =>
      rw [hx] at h
      exact h
  | ok out =>
      rw [hx] at h
      exact h

theorem pathOp_refines (ht : w.Tidy) (f : PathOp) (op : Ptr) (path : Option CStr) :
    Refines (w.session.pathOp f op path) (f.call supply op path w) := by
  cases f with
  | read =>
      refine onPath_refines supply .result C.read (fun _ => rfl) ht ?_ op path
      intro bs w ht
      exact ⟨_, rfl, opendalBytesNew_handsOut supply ht (fun _ => rfl) (fun _ _ => rfl) bs⟩
  | reader =>
      refine onPath_refines supply .result C.openReader (fun _ => rfl) ht ?_ op path
      exact fun r w ht => ⟨_, rfl, newHandle_handsOut supply ht⟩
  | stat =>
      refine onPath_refines supply .result C.stat (fun _ => rfl) ht ?_ op path
      exact fun m w ht => ⟨_, rfl, newHandle_handsOut supply ht⟩
  | list =>
      refine onPath_refines supply .result C.lister (fun _ => rfl) ht ?_ op path
      exact fun l w ht => ⟨_, rfl, newHandle_handsOut supply ht⟩
  | isExist =>
      refine onPath_refines supply .flag C.isExist (fun _ => rfl) ht ?_ op path
      exact fun e w ht => ⟨.null, rfl, handsOut_nothing ht⟩
  | delete => exact onPathUnit_refines supply C.delete ht op path
  | createDir => exact onPathUnit_refines supply C.createDir ht op path

theorem onPaths_refines
    (act : C.Operator → String → String → C.State → Except C.Error Unit × C.State)
    (ht : w.Tidy) (op : Ptr) (src dest : Option CStr) :
    Refines (w.session.onPaths act op src dest)
      ((onPaths supply act op src dest w).map fun (p, w) => (Reply.ptr p, w)) := by
  unfold Session.onPaths onPaths
  rw [map_bind]
  refine refines_bind fun src _ => ?_
  rw [map_bind]
  refine refines_bind fun dest _ => refines_value fun o ho => ?_
  rw [deref_of_value ho]
  change Refines _ (Except.map _ (src.unwrapStr >>= _))
  rw [map_bind]
  refine refines_bind fun str _ => ?_
  rw [map_bind]
  refine refines_bind fun str' _ => ?_
  rw [session_perform, map_bind]
  have h : Refines ((w.perform (act o str str')).2.session.answer (fun _ => none)
        (fun _ _ => .ptr .null) .ptr (w.perform (act o str str')).1)
      ((answer supply Prod.mk () (w.perform (act o str str'))).map fun (r, w) =>
        (Reply.ptr r.error, w)) := by
    refine answer_refines supply (fun r => .ptr r.error) (fun _ => rfl) (tidy_perform ht) ?_ _
    exact fun _ => ⟨.null, rfl, handsOut_nothing (tidy_perform ht)⟩
  cases hx : answer supply Prod.mk () (w.perform (act o str str')) with
  | error f =>
      rw [hx] at h
      exact h
  | ok out =>
      rw [hx] at h
      exact h

theorem pathsOp_refines (ht : w.Tidy) (f : PathsOp) (op : Ptr) (src dest : Option CStr) :
    Refines (w.session.pathsOp f op src dest)
      ((f.call supply op src dest w).map fun (p, w) => (Reply.ptr p, w)) := by
  cases f with
  | rename => exact onPaths_refines supply C.rename ht op src dest
  | copy => exact onPaths_refines supply C.copy ht op src dest

/-! ## Writing -/

/-- What a session takes for the content of a write is what the binding copies. -/
theorem slice_of_holds {b : OpendalBytes} {bs : List UInt8} (h : Holds w b bs) :
    slice b w = .ok bs := by
  cases h with
  | empty => rfl
  | vec x bs hpart => simp [slice, part_eq_some.mp hpart]

theorem slice_of_content {arg : BytesArg} {bs : List UInt8}
    (h : w.session.content arg = .ok bs) :
    ∃ b, arg.eval w = .ok b ∧ slice b w = .ok bs := by
  cases arg with
  | own b =>
      refine ⟨b, rfl, ?_⟩
      simp only [Session.content] at h
      split at h
      · rename_i hempty
        cases h
        simp [slice, hempty.1, hempty.2]
      · cases hmem : w.session.memoryAt b.data with
        | error f =>
            rw [hmem] at h
            cases h
        | ok mem =>
            rw [hmem] at h
            change (if b.len ≤ mem.length then Except.ok (mem.take b.len)
              else Except.error Fault.undefined) = _ at h
            obtain ⟨a, hdata, hroot⟩ := memoryAt_eq_ok hmem
            simpa [slice, hdata, root_eq_some.mp hroot] using h
  | got p =>
      simp only [Session.content] at h
      split at h
      · rename_i bs' hobj
        cases h
        obtain ⟨a, r, rfl, hr, hbuilt⟩ := built_of_at? hobj
        cases hbuilt with
        | bytes b bs hholds =>
            exact ⟨b, by simp [BytesArg.eval, rootAt_of_root hr], slice_of_holds hholds⟩
      · cases h

theorem content_error {arg : BytesArg} {f : Fault} {s : Session C} (h : s.content arg = .error f) :
    f = .undefined := by
  cases arg with
  | own b =>
      simp only [Session.content] at h
      split at h
      · cases h
      · cases hmem : s.memoryAt b.data with
        | error f' =>
            rw [hmem] at h
            cases h
            exact memoryAt_error hmem
        | ok mem =>
            rw [hmem] at h
            change (if b.len ≤ mem.length then Except.ok (mem.take b.len)
              else Except.error Fault.undefined) = _ at h
            split at h <;> cases h
            rfl
  | got p =>
      simp only [Session.content] at h
      split at h <;> cases h
      rfl

theorem opendalOperatorWrite_eq {b : OpendalBytes} {bs : List UInt8} (hb : slice b w = .ok bs)
    (op : Ptr) (path : Option CStr) :
    opendalOperatorWrite supply op path b w =
      onPathUnit supply (fun op path => C.write op path bs) op path w := by
  unfold opendalOperatorWrite onPathUnit onPath
  rw [hb]
  cases notNull "The path given is pointing at NULL" path with
  | error f => rfl
  | ok path =>
      cases hop : w.deref .operator op with
      | error f => rfl
      | ok o =>
          change (path.unwrapStr >>= _) = (path.unwrapStr >>= _) >>= _
          cases path.unwrapStr <;> rfl

/-! ## Building an operator -/

/-- Inserting entries with distinct keys one by one. -/
theorem foldl_insert_lookup (k : String) (entries : List ((_ : String) × String))
    (hnodup : entries.NodupKeys) (map : OptionMap) :
    (entries.foldl (fun map e => map.insert e.1 e.2) map).lookup k =
      (entries.dlookup k).or (map.lookup k) := by
  induction entries generalizing map with
  | nil => simp
  | cons e entries ih =>
      obtain ⟨hnotMem, hrest⟩ := List.nodupKeys_cons.mp hnodup
      obtain ⟨k', v⟩ := e
      rw [List.foldl_cons, ih hrest]
      by_cases hk : k = k'
      · subst hk
        rw [List.dlookup_eq_none.mpr hnotMem, List.dlookup_cons_eq, AList.lookup_insert]
        rfl
      · rw [List.dlookup_cons_ne _ _ hk, AList.lookup_insert_ne hk]

/-- Copying the options entry by entry gives the same map. -/
theorem copyOptions_lookup (options : OptionMap) (k : String) :
    (copyOptions options).lookup k = options.lookup k := by
  unfold copyOptions
  rw [foldl_insert_lookup k _ options.nodupKeys, AList.lookup_empty, Option.or_none]
  rfl

theorem lookup_copyOptions (options : OptionMap) :
    (fun k => (copyOptions options).lookup k) = fun k => options.lookup k := by
  funext k
  exact copyOptions_lookup options k

theorem answer_error {τ : Type} {hand : τ → World C → α × World C} {none' : α} (e : C.Error)
    {wrap : Result α → Reply} :
    ((answer supply hand none' (.error e, w)).map fun (r, w) => (wrap r, w)) =
      (opendalErrorNew supply e w).map fun (p, w) => (wrap ⟨none', p⟩, w) := by
  simp only [answer]
  cases opendalErrorNew supply e w <;> rfl

/-- The operator that the binding builds is the one of the session. -/
theorem buildOperator_refines (ht : w.Tidy) (scheme : C.Scheme) (map : String → Option String) :
    Refines (w.session.buildOperator scheme map)
      ((buildOperator scheme map w >>= fun (op, w) =>
        answer supply (fun op w => newHandle supply .operator (C.blocking op) w) .null
          (op, w)).map fun (r, w) => (.result r, w)) := by
  rw [map_bind]
  unfold Session.buildOperator buildOperator
  rw [session_perform]
  cases hperf : w.perform (C.viaMap scheme map) with
  | mk op w1 =>
      have ht1 : w1.Tidy := by
        have h : (w.perform (C.viaMap scheme map)).2.Tidy := tidy_perform ht
        rwa [hperf] at h
      cases op with
      | error e =>
          change Refines _ (Except.map _ (answer _ _ _ _))
          rw [answer_error]
          exact opendalErrorNew_refines supply ht1 e failed
      | ok op =>
          simp only
          split
          · exact refines_hands (newHandle_handsOut supply ht1)
          · cases hl : C.createBlockingLayer w1.core with
            | error e =>
                simp only [session_core, hl]
                exact .inr rfl
            | ok layer =>
                simp only [session_core, hl]
                exact refines_hands (newHandle_handsOut supply ht1)

theorem operatorNew_refines (ht : w.Tidy) (scheme : Option CStr) (options : Ptr) :
    Refines (w.session.operatorNew scheme options)
      ((opendalOperatorNew supply scheme options w).map fun (r, w) => (.result r, w)) := by
  unfold Session.operatorNew opendalOperatorNew
  rw [map_bind]
  refine refines_bind fun scheme _ => ?_
  rw [map_bind]
  refine refines_bind fun str _ => ?_
  cases C.schemeFromStr str with
  | error e =>
      simp only
      have h := opendalErrorNew_refines supply ht e failed
      cases herr : opendalErrorNew supply e w with
      | error f =>
          rw [herr] at h
          exact h
      | ok out =>
          rw [herr] at h
          exact h
  | ok scheme =>
      simp only
      split
      · exact buildOperator_refines supply ht scheme _
      · refine refines_value fun map hmap => ?_
        rw [deref_of_value hmap]
        have h := buildOperator_refines supply ht scheme fun k => AList.lookup k map
        rw [← lookup_copyOptions map] at h
        rw [← lookup_copyOptions map]
        exact h

/-! ## Listers and readers -/

theorem listerNext_refines (ht : w.Tidy) (lister : Ptr) :
    Refines (w.session.listerNext lister)
      ((opendalListerNext supply lister w).map fun (r, w) => (.result r, w)) := by
  unfold Session.listerNext opendalListerNext
  refine refines_value fun l hl => ?_
  obtain ⟨a, inner, rfl, hr, hp⟩ := value_eq_ok hl
  rw [inner_of_root hr, ok_bind, load_of_part hp, ok_bind]
  simp only [World.perform, Session.perform, session_core]
  generalize (C.next l w.core).2 = core
  generalize (C.next l w.core).1.2 = l'
  generalize (C.next l w.core).1.1 = e
  have ht1 : (World.mk w.heap w.handed core).Tidy := ht
  obtain ⟨ht2, hs2⟩ := store_spec ht1 hr l'
  cases e with
  | none => exact refines_returns ht2 hs2
  | some e =>
      change Refines (Session.answer ((World.mk w.heap w.handed core).session.set _ _) _ _ _ e)
        (Except.map _ (answer _ _ _ _))
      rw [← hs2]
      refine answer_refines supply .result (fun _ => rfl) ht2 ?_ e
      exact fun e => ⟨_, rfl, newHandle_handsOut supply ht2⟩

/-- Writing to the caller's memory. -/
theorem setRoot_spec (ht : w.Tidy) {old : List UInt8} (hr : w.heap.root a = some (.memory old))
    (bs : List UInt8) :
    (w.setRoot (.block a) (.memory bs)).Tidy ∧
      (w.setRoot (.block a) (.memory bs)).session = w.session.set (.block a) (.memory bs) := by
  have hview : (layout C).view (.memory bs) none = some (.memory bs) := rfl
  obtain ⟨htidy, hobj⟩ := set_alone ht hr rfl rfl hview
  refine ⟨htidy, ?_⟩
  unfold World.session Session.set Session.add
  congr 1

theorem root_store {inner : ℕ} {r : Root} (hp : w.heap.part inner = some (.value kind v))
    (hr : w.heap.root a = some r) (v' : C.Payload kind) :
    (w.store kind inner v').heap.root a = some r := by
  have hne : a ≠ inner := by
    rintro rfl
    rw [root_eq_some] at hr
    rw [part_eq_some, hr] at hp
    cases hp
  rw [← hr]
  exact root_congr (AList.lookup_insert_ne hne)

theorem readerRead_refines (ht : w.Tidy) (reader buf : Ptr) (len : ℕ) :
    Refines (w.session.readerRead reader buf len)
      ((opendalReaderRead supply reader buf len w).map fun (r, w) => (.size r, w)) := by
  unfold Session.readerRead opendalReaderRead
  split
  · exact .inr rfl
  · cases hmem : w.session.memoryAt buf with
    | error f =>
        rw [memoryAt_error hmem]
        exact .inl rfl
    | ok old =>
        obtain ⟨b, rfl, hb⟩ := memoryAt_eq_ok hmem
        rw [rootAt_of_root hb]
        simp only [ok_bind]
        split
        · exact .inl rfl
        · refine refines_value fun r hv => ?_
          obtain ⟨a, inner, rfl, hr, hp⟩ := value_eq_ok hv
          rw [inner_of_root hr, ok_bind, load_of_part hp, ok_bind]
          simp only [World.perform, Session.perform, session_core]
          generalize (C.readStd r len w.core).2 = core
          generalize (C.readStd r len w.core).1.2 = r'
          generalize (C.readStd r len w.core).1.1 = n
          have ht1 : (World.mk w.heap w.handed core).Tidy := ht
          obtain ⟨ht2, hs2⟩ := store_spec ht1 hr r'
          cases n with
          | ok bytes =>
              have hb2 := root_store (w := World.mk w.heap w.handed core) hp hb r'
              obtain ⟨ht3, hs3⟩ := setRoot_spec ht2 hb2 (overwrite bytes old)
              rw [hs2] at hs3
              exact refines_returns ht3 hs3
          | error e =>
              have h := opendalErrorNew_refines supply ht2
                (C.setSource (C.newError .unexpected "read failed from reader") e)
                fun p => .size ⟨0, p⟩
              rw [hs2] at h
              simp only
              cases herr : opendalErrorNew supply
                  (C.setSource (C.newError .unexpected "read failed from reader") e)
                  ((World.mk w.heap w.handed core).store .reader inner r') with
              | error f =>
                  rw [herr] at h
                  exact h
              | ok out =>
                  rw [herr] at h
                  exact h

/-! ## Strings, metadata and infos -/

theorem getString_refines (ht : w.Tidy) (kind : Kind) (get : C.Payload kind → String)
    (failure : Fault) (p : Ptr) :
    Refines (w.session.getString kind get failure p)
      ((getString supply kind get failure p w).map fun (p, w) => (.ptr p, w)) := by
  unfold Session.getString getString
  refine refines_value fun v hv => ?_
  rw [deref_of_value hv, ok_bind]
  cases CStr.new (get v) with
  | none => exact .inr rfl
  | some s => exact refines_hands (box_handsOut supply ht rfl rfl)

theorem stringOp_refines (ht : w.Tidy) (f : StringOp) (p : Ptr) :
    Refines (w.session.stringOp f p) ((f.call supply p w).map fun (p, w) => (.ptr p, w)) := by
  cases f <;> exact getString_refines supply ht _ _ _ p

theorem metadataOp_refines (ht : w.Tidy) (f : MetadataOp) (p : Ptr) :
    Refines (w.session.metadataOp f p) ((f.call p w).map fun r => (r, w)) := by
  unfold Session.metadataOp
  refine refines_value fun m hm => ?_
  have hderef := deref_of_value hm
  cases f with
  | contentLength =>
      simp only [MetadataOp.call, opendalMetadataContentLength, hderef]
      exact refines_returns ht rfl
  | isFile =>
      simp only [MetadataOp.call, opendalMetadataIsFile, hderef]
      exact refines_returns ht rfl
  | isDir =>
      simp only [MetadataOp.call, opendalMetadataIsDir, hderef]
      exact refines_returns ht rfl
  | lastModifiedMs =>
      simp only [MetadataOp.call, opendalMetadataLastModifiedMs, hderef]
      exact refines_returns ht rfl

/-! ## Freeing -/

theorem session_drop (w' : World C) (hcore : w'.core = w.core)
    (hobj : (layout C).object w'.heap = Function.update ((layout C).object w.heap) a none) :
    w'.session = w.session.drop a := by
  unfold World.session Session.drop
  rw [hobj, hcore]

theorem freeHandle_of_root (ht : w.Tidy) {inner : ℕ}
    (hr : w.heap.root a = some (.handle kind inner))
    (hp : w.heap.part inner = some (.value kind v)) :
    ∃ w', freeHandle kind (.block a) w = .ok w' ∧ w'.Tidy ∧ w'.session = w.session.drop a := by
  obtain ⟨htidy, hobj⟩ := unbox_object ht hr rfl
  refine ⟨(w.freePart inner).freeRoot (.block a), ?_, htidy, session_drop _ rfl hobj⟩
  unfold freeHandle
  rw [inner_of_root hr, ok_bind, load_of_part hp]
  rfl

/-- Dropping the vector of a struct and then the struct. -/
theorem freeVec_of_holds (ht : w.Tidy) {r : Root} {b : OpendalBytes} {bs : List UInt8}
    (hr : w.heap.root a = some r) (ho : (layout C).owned r = b.owned) (hb : Holds w b bs) :
    ∃ w1, freeVec b w = .ok w1 ∧ (w1.freeRoot (.block a)).Tidy ∧
      (w1.freeRoot (.block a)).session = w.session.drop a := by
  cases hb with
  | empty =>
      obtain ⟨htidy, hobj⟩ := unbox_alone ht hr ho
      exact ⟨w, rfl, htidy, session_drop _ rfl hobj⟩
  | vec x bs hpart =>
      obtain ⟨htidy, hobj⟩ := unbox_object ht hr ho
      refine ⟨w.freePart x, ?_, htidy, session_drop _ rfl hobj⟩
      simp [freeVec, hpart]

theorem freeRoot_of_alone (ht : w.Tidy) {r : Root} (hr : w.heap.root a = some r)
    (ho : (layout C).owned r = none) :
    (w.freeRoot (.block a)).Tidy ∧ (w.freeRoot (.block a)).session = w.session.drop a := by
  obtain ⟨htidy, hobj⟩ := unbox_alone ht hr ho
  exact ⟨htidy, session_drop _ rfl hobj⟩

/-- What a function frees, it frees with all its blocks. -/
theorem free_of_frees (ht : w.Tidy) {f : FreeOp} {obj : Object C}
    (hobj : (layout C).object w.heap a = some obj) (hf : f.frees obj = true) :
    ∃ w', f.call (.block a) w = .ok w' ∧ w'.Tidy ∧ w'.session = w.session.drop a := by
  obtain ⟨r, hr, hbuilt⟩ := built_of_object hobj
  cases hbuilt with
  | value kind inner v hp =>
      have h := freeHandle_of_root ht hr hp
      cases f <;> simp only [FreeOp.frees, decide_eq_true_eq, reduceCtorEq] at hf <;> subst hf <;>
        exact h
  | bytes b bs hb =>
      obtain ⟨w1, hfree, htidy, hs⟩ := freeVec_of_holds ht hr rfl hb
      cases f <;> simp only [FreeOp.frees, Bool.false_eq_true] at hf
      refine ⟨_, ?_, htidy, hs⟩
      simp only [FreeOp.call, opendalBytesFree, rootAt_of_root hr, ok_bind, hfree]
      rfl
  | error code message bs hb =>
      obtain ⟨w1, hfree, htidy, hs⟩ := freeVec_of_holds ht hr rfl hb
      cases f <;> simp only [FreeOp.frees, Bool.false_eq_true] at hf
      refine ⟨_, ?_, htidy, hs⟩
      simp only [FreeOp.call, opendalErrorFree, rootAt_of_root hr, ok_bind, hfree]
      rfl
  | cString s =>
      obtain ⟨htidy, hs⟩ := freeRoot_of_alone ht hr rfl
      cases f <;> simp only [FreeOp.frees, Bool.false_eq_true] at hf
      refine ⟨_, ?_, htidy, hs⟩
      simp only [FreeOp.call, cFree, rootAt_of_root hr, ok_bind]
      rfl
  | memory bs =>
      obtain ⟨htidy, hs⟩ := freeRoot_of_alone ht hr rfl
      cases f <;> simp only [FreeOp.frees, Bool.false_eq_true] at hf
      refine ⟨_, ?_, htidy, hs⟩
      simp only [FreeOp.call, cFree, rootAt_of_root hr, ok_bind]
      rfl

theorem free_null {f : FreeOp} (hf : f.nullOk = true) : f.call .null w = .ok w := by
  cases f <;> simp only [FreeOp.nullOk, Bool.false_eq_true] at hf <;> rfl

theorem free_refines (ht : w.Tidy) (f : FreeOp) (p : Ptr) :
    Refines (w.session.free f p) ((f.call p w).map fun w => (.unit, w)) := by
  unfold Session.free
  cases p with
  | null =>
      simp only
      split
      · rename_i hf
        rw [free_null hf]
        exact refines_returns ht rfl
      · exact .inl rfl
  | dangling => exact .inl rfl
  | block a =>
      simp only [session_held]
      cases hobj : (layout C).object w.heap a with
      | none => exact .inl rfl
      | some obj =>
          simp only
          split
          · rename_i hf
            obtain ⟨w', hfree, htidy, hs⟩ := free_of_frees ht hobj hf
            rw [hfree]
            exact refines_returns htidy hs
          · exact .inl rfl

/-! ## Reading what was handed out -/

theorem look_refines (ht : w.Tidy) {p : Ptr} {read : Object C → Option Reply}
    {r : Except Fault (Reply × World C)}
    (h : ∀ a root obj reply, p = .block a → w.heap.root a = some root → Built w root obj →
      read obj = some reply → r = .ok (reply, w)) :
    Refines (w.session.look p read) r := by
  unfold Session.look
  cases hobj : w.session.at? p with
  | none => exact .inl rfl
  | some obj =>
      obtain ⟨a, root, hp, hroot, hbuilt⟩ := built_of_at? hobj
      cases hread : read obj with
      | none =>
          simp only [Option.bind_some, hread]
          exact .inl rfl
      | some reply =>
          simp only [Option.bind_some, hread]
          rw [h a root obj reply hp hroot hbuilt hread]
          exact refines_returns ht rfl

/-! ## Every call -/

/-- Every call of the binding does what its session says. -/
theorem performCall_refines (ht : w.Tidy) (c : Call) :
    Refines (w.session.call c) (performCall supply c w) := by
  cases c with
  | optionsNew => exact refines_hands (newHandle_handsOut supply ht)
  | optionsSet options key value =>
      simp only [Session.call, performCall, opendalOperatorOptionsSet]
      refine refines_value fun map hmap => ?_
      obtain ⟨a, inner, rfl, hr, hp⟩ := value_eq_ok hmap
      rw [inner_of_root hr, ok_bind, map_bind]
      refine refines_bind fun k _ => ?_
      rw [map_bind]
      refine refines_bind fun v _ => ?_
      rw [load_of_part hp, ok_bind]
      obtain ⟨ht2, hs2⟩ := store_spec ht hr (AList.insert k v map)
      exact refines_returns ht2 hs2
  | operatorNew scheme options => exact operatorNew_refines supply ht scheme options
  | write op path arg =>
      simp only [Session.call, performCall]
      cases hcontent : w.session.content arg with
      | error f =>
          rw [content_error hcontent]
          exact .inl rfl
      | ok bs =>
          obtain ⟨b, heval, hslice⟩ := slice_of_content hcontent
          rw [heval, ok_bind, ok_bind, opendalOperatorWrite_eq supply hslice]
          exact onPathUnit_refines supply (fun op path => C.write op path bs) ht op path
  | onPath f op path => exact pathOp_refines supply ht f op path
  | onPaths f op src dest => exact pathsOp_refines supply ht f op src dest
  | listerNext lister => exact listerNext_refines supply ht lister
  | readerRead reader buf len => exact readerRead_refines supply ht reader buf len
  | metadata f p => exact metadataOp_refines ht f p
  | string f p => exact stringOp_refines supply ht f p
  | infoNew op =>
      simp only [Session.call, performCall, opendalOperatorInfoNew]
      refine refines_value fun o ho => ?_
      rw [deref_of_value ho, ok_bind]
      exact refines_hands (newHandle_handsOut supply ht)
  | free f p => exact free_refines ht f p
  | malloc bytes => exact refines_hands (box_handsOut supply ht rfl rfl)
  | loadBytes p =>
      refine look_refines ht ?_
      intro a root obj reply hp hroot hbuilt hread
      subst hp
      cases hbuilt <;> cases hread
      rename_i b bs hb
      simp only [performCall, loadBytes, rootAt_of_root hroot, ok_bind, slice_of_holds hb]
      rfl
  | loadError p =>
      refine look_refines ht ?_
      intro a root obj reply hp hroot hbuilt hread
      subst hp
      cases hbuilt <;> cases hread
      rename_i code b bs hb
      simp only [performCall, loadError, rootAt_of_root hroot, ok_bind, slice_of_holds hb]
      rfl
  | loadString p =>
      refine look_refines ht ?_
      intro a root obj reply hp hroot hbuilt hread
      subst hp
      cases hbuilt <;> cases hread
      simp only [performCall, loadString, rootAt_of_root hroot, ok_bind]
      rfl
  | loadMemory p =>
      refine look_refines ht ?_
      intro a root obj reply hp hroot hbuilt hread
      subst hp
      cases hbuilt <;> cases hread
      simp only [performCall, loadMemory, rootAt_of_root hroot, ok_bind]
      rfl

end LlgoExamples.Opendal
