import LlgoExamples.Model.Sled.Demo

/-! # Settings

However the configuration calls are ordered and repeated, by a caller that hands its paths
over, the database is opened with what the last call of each kind set, and with sled's
default where there was none. -/

namespace LlgoExamples.Sled

variable {config config' : ℕ} {h h' : Heap} {calls : List Builder}

/-! ## What the calls ask for -/

def Builder.path? : Builder → Option Bytes
  | .setPath path => some path
  | _ => none

def Builder.capacity? : Builder → Option ℕ
  | .setCacheCapacity capacity => some capacity
  | _ => none

def Builder.flag? : Builder → Option UInt8
  | .useCompression flag => some flag
  | _ => none

def Builder.interval? : Builder → Option ℤ
  | .flushEveryMs flushEvery => some flushEvery
  | _ => none

/-- What the last call of a kind asked for. -/
def lastOf {α : Type} (ask : Builder → Option α) (calls : List Builder) : Option α :=
  (calls.filterMap ask).getLast?

/-- The settings that the calls leave: only 1 asks for compression, and a negative interval
turns the flushing off. -/
structure LastSet (calls : List Builder) (c : Config) : Prop where
  path : c.path = (lastOf Builder.path? calls).bind intoString
  cacheCapacity : c.cacheCapacity = lastOf Builder.capacity? calls
  useCompression : c.useCompression = (lastOf Builder.flag? calls).map (· == 1)
  flushEveryMs : c.flushEveryMs = (lastOf Builder.interval? calls).map fun flushEvery =>
    if flushEvery < 0 then none else some flushEvery.toNat

/-- A path that is no UTF-8 is refused. -/
def Builder.Accepted (b : Builder) : Prop :=
  ∀ path, b.path? = some path → (intoString path).isSome

theorem lastOf_concat {α : Type} (ask : Builder → Option α) (b : Builder) :
    lastOf ask (calls ++ [b]) = (ask b).or (lastOf ask calls) := by
  rw [lastOf, lastOf, List.filterMap_append]
  cases hb : ask b with
  | none =>
      rw [List.filterMap_cons_none hb, List.filterMap_nil, List.append_nil]
      rfl
  | some x =>
      rw [List.filterMap_cons_some hb, List.filterMap_nil, List.getLast?_concat]
      rfl

/-! ## One call -/

/-- What a call makes of the settings. -/
def Builder.set (c : Config) : Builder → Config
  | .setPath path => { c with path := intoString path }
  | .setCacheCapacity capacity => { c with cacheCapacity := some capacity }
  | .useCompression flag => { c with useCompression := some (flag == 1) }
  | .flushEveryMs flushEvery =>
      { c with flushEveryMs := some (if flushEvery < 0 then none else some flushEvery.toNat) }

/-- The settings after another call are those before it but for its own. -/
theorem LastSet.concat {c : Config} (hset : LastSet calls c) (b : Builder) :
    LastSet (calls ++ [b]) (b.set c) := by
  constructor
  · rw [lastOf_concat]
    cases b with
    | setPath path => rfl
    | _ => exact hset.path
  · rw [lastOf_concat]
    cases b with
    | setCacheCapacity capacity => rfl
    | _ => exact hset.cacheCapacity
  · rw [lastOf_concat]
    cases b with
    | useCompression flag => rfl
    | _ => exact hset.useCompression
  · rw [lastOf_concat]
    cases b with
    | flushEveryMs flushEvery => rfl
    | _ => exact hset.flushEveryMs

theorem configs_rebox (f : Config → Config) (config : ℕ) (h : Heap) :
    (rebox f config h).2.configs (rebox f config h).1 = f (h.configs config) :=
  Function.update_self h.next _ _

/-- A call that is accepted boxes the configuration that it makes of the one before. -/
theorem chained_of_accepted {b : Builder} (hb : b.Accepted) (config : ℕ) (h : Heap) :
    ∃ config' h', b.chained config h = .ok (config', h') ∧
      h'.configs config' = b.set (h.configs config) := by
  cases b with
  | setPath path =>
      obtain ⟨value, hvalue⟩ := Option.isSome_iff_exists.1 (hb path rfl)
      let consumed := ((h.strdup path).2.log (.use (.path h.next))).log (.release (.path h.next))
      let r := rebox (fun c => { c with path := some value }) config consumed
      refine ⟨r.1, r.2, ?_, ?_⟩
      · simp [Builder.chained, sledConfigSetPath, Heap.strdup, Heap.log, hvalue, r, consumed]
      · rw [Builder.set, hvalue]
        exact configs_rebox _ config consumed
  | setCacheCapacity capacity => exact ⟨_, _, rfl, Function.update_self h.next _ _⟩
  | useCompression flag => exact ⟨_, _, rfl, Function.update_self h.next _ _⟩
  | flushEveryMs flushEvery => exact ⟨_, _, rfl, Function.update_self h.next _ _⟩

theorem exists_of_not_accepted {b : Builder} (hb : ¬ b.Accepted) :
    ∃ path, b = .setPath path ∧ intoString path = none := by
  cases b with
  | setPath path =>
      refine ⟨path, rfl, ?_⟩
      by_contra hsome
      refine hb ?_
      rintro path' ⟨⟩
      exact Option.isSome_iff_ne_none.2 hsome
  | setCacheCapacity capacity => exact absurd (fun _ h => by cases h) hb
  | useCompression flag => exact absurd (fun _ h => by cases h) hb
  | flushEveryMs flushEvery => exact absurd (fun _ h => by cases h) hb

theorem chained_of_not_accepted {b : Builder} (hb : ¬ b.Accepted) (config : ℕ) (h : Heap) :
    ∃ h', b.chained config h = .error h' := by
  obtain ⟨path, rfl, hnone⟩ := exists_of_not_accepted hb
  refine ⟨(h.strdup path).2.log (.use (.path h.next)), ?_⟩
  simp [Builder.chained, sledConfigSetPath, Heap.strdup, Heap.log, hnone]

/-! ## Many calls -/

/-- The calls go through where each is accepted, and leave what the last of each kind set. -/
theorem chain_settings (calls : List Builder) {before : List Builder}
    (hset : LastSet before (h.configs config)) :
    ((∀ b ∈ calls, b.Accepted) → ∃ config' h', chain calls config h = .ok (config', h') ∧
        LastSet (before ++ calls) (h'.configs config')) ∧
      (¬ (∀ b ∈ calls, b.Accepted) → ∃ h', chain calls config h = .error h') := by
  induction calls generalizing config h before with
  | nil =>
      refine ⟨fun _ => ⟨config, h, rfl, ?_⟩, fun hnot => absurd (fun _ hb => by cases hb) hnot⟩
      rw [List.append_nil]
      exact hset
  | cons b calls ih =>
      by_cases hb : b.Accepted
      · obtain ⟨config₁, h₁, hcall, hconfig⟩ := chained_of_accepted hb config h
        have hset₁ : LastSet (before ++ [b]) (h₁.configs config₁) := by
          rw [hconfig]
          exact hset.concat b
        obtain ⟨hok, herror⟩ := ih hset₁
        rw [List.append_assoc, List.singleton_append] at hok
        rw [chain, hcall]
        refine ⟨fun hall => hok fun b' hb' => hall b' (List.mem_cons_of_mem b hb'), ?_⟩
        intro hnot
        refine herror fun hall => hnot ?_
        intro b' hb'
        rcases List.mem_cons.1 hb' with rfl | hb'
        · exact hb
        · exact hall b' hb'
      · obtain ⟨h₁, hcall⟩ := chained_of_not_accepted hb config h
        rw [chain, hcall]
        exact ⟨fun hall => absurd (hall b List.mem_cons_self) hb, fun _ => ⟨h₁, rfl⟩⟩

/-- The calls on a new configuration, each path handed over, and then opening it. -/
def openWith (calls : List Builder) (opened : Bool) : Except Heap (Config × Heap) :=
  let (config, h) := sledCreateConfig .empty
  (chain calls config h).bind fun (config, h) => sledOpenDb config opened h

/-- The database is opened exactly where every path is UTF-8 and sled can open it, and then
with what the last call of each kind set. -/
theorem openWith_lastSet (calls : List Builder) (opened : Bool) :
    ((∃ c h, openWith calls opened = .ok (c, h)) ↔
        opened = true ∧ ∀ b ∈ calls, b.Accepted) ∧
      ∀ c h, openWith calls opened = .ok (c, h) → LastSet calls c := by
  have hnew : LastSet [] ((sledCreateConfig .empty).2.configs (sledCreateConfig .empty).1) :=
    ⟨rfl, rfl, rfl, rfl⟩
  obtain ⟨hok, herror⟩ := chain_settings calls hnew
  by_cases hall : ∀ b ∈ calls, b.Accepted
  · obtain ⟨config, h, hcalls, hset⟩ := hok hall
    have hopen : openWith calls opened = sledOpenDb config opened h := by
      simp only [openWith, hcalls, Except.bind]
    cases opened with
    | true =>
        have hopened : openWith calls true = .ok (h.configs config,
          (h.log (.use (.config config))).log (.release (.config config))) := hopen
        refine ⟨⟨fun _ => ⟨rfl, hall⟩, fun _ => ⟨_, _, hopened⟩⟩, ?_⟩
        intro c h' hc
        rw [hopened] at hc
        cases hc
        exact hset
    | false =>
        have hrefused : openWith calls false = .error
          ((h.log (.use (.config config))).log (.release (.config config))) := hopen
        rw [hrefused]
        simp
  · obtain ⟨h, hcalls⟩ := herror hall
    have hpanic : openWith calls opened = .error h := by
      simp only [openWith, hcalls, Except.bind]
    rw [hpanic]
    simp only [reduceCtorEq, exists_false, false_iff, false_implies, implies_true, and_true]
    exact fun hboth => hall hboth.2

end LlgoExamples.Sled
