import LlgoExamples.Model.Sled.Config

/-! # Ownership of configurations and path strings

The doc comment of `sled_config_set_path` leaves the path string with the caller, but the
function deallocates it. Every run that sets a path therefore releases it twice, or stops
before the configuration is released; every other run is linear. -/

namespace LlgoExamples.Sled

open Machine Ledger

def Builder.SetsPath : Builder → Prop
  | .setPath _ => True
  | _ => False

variable {config : ℕ} {h : Heap}

/-! ## Runs without a path -/

/-- In the ledger nothing but the current configuration is live, and no allocation number
was handed out twice. -/
structure Sole (config : ℕ) (h : Heap) : Prop where
  live : run post [] h.ledger = some [.config config]
  unique : ∀ r, h.ledger.count (.acquire r) ≤ 1
  unused : ∀ addr, h.next ≤ addr → Entry.acquire (.config addr) ∉ h.ledger

theorem sole_create : Sole (sledCreateConfig .empty).1 (sledCreateConfig .empty).2 where
  live := rfl
  unique := by
    intro r
    simp only [sledCreateConfig, Heap.boxConfig, Heap.empty, List.nil_append,
      List.count_singleton]
    split <;> simp
  unused := by
    intro addr haddr
    simp only [sledCreateConfig, Heap.boxConfig, Heap.empty] at haddr ⊢
    simp
    omega

theorem rebox_ledger (f : Config → Config) :
    (rebox f config h).2.ledger = h.ledger ++
      [.use (.config config), .acquire (.config h.next), .release (.config config)] := by
  simp [rebox, Heap.boxConfig, Heap.log]

/-- Replacing the boxed configuration releases the old box and leaves the new one live. -/
theorem Sole.rebox (hs : Sole config h) (f : Config → Config) :
    Sole (rebox f config h).1 (rebox f config h).2 where
  live := by
    rw [rebox_ledger]
    refine run_append_eq_some.mpr ⟨_, hs.live, ?_⟩
    by_cases hnext : h.next = config <;> simp [post, Sled.rebox, Heap.boxConfig, Heap.log, hnext]
  unique := by
    intro r
    rw [rebox_ledger, List.count_append]
    have hr := hs.unique r
    by_cases hnext : r = .config h.next
    · have hzero : h.ledger.count (.acquire r) = 0 :=
        List.count_eq_zero.mpr (hnext ▸ hs.unused h.next le_rfl)
      rw [hzero]
      simp [hnext]
    · simpa [List.count_cons, Ne.symm hnext] using hr
  unused := by
    intro addr haddr
    have hnext : h.next + 1 ≤ addr := haddr
    rw [rebox_ledger]
    have hold := hs.unused addr (by omega)
    simp [hold]
    omega

/-- A call that sets no path only replaces the boxed configuration. -/
theorem call_eq_rebox {b : Builder} (hb : ¬ b.SetsPath) (config : ℕ) (h : Heap) :
    ∃ f, b.call config h = .ok (rebox f config h) := by
  cases b with
  | setPath path => exact absurd trivial hb
  | setCacheCapacity capacity => exact ⟨_, rfl⟩
  | useCompression flag => exact ⟨_, rfl⟩
  | flushEveryMs flushEvery =>
      exact ⟨fun c => { c with
        flushEveryMs := some (if flushEvery < 0 then none else some flushEvery.toNat) }, rfl⟩

theorem Sole.callBuilders (hs : Sole config h) {bs : List Builder}
    (hbs : ∀ b ∈ bs, ¬ b.SetsPath) :
    ∃ config' h', callBuilders bs config h = .ok (config', h') ∧ Sole config' h' := by
  induction bs generalizing config h with
  | nil => exact ⟨config, h, rfl, hs⟩
  | cons b bs ih =>
      obtain ⟨f, hcall⟩ := call_eq_rebox (hbs b (by simp)) config h
      obtain ⟨config', h', hrest, hs'⟩ := ih (hs.rebox f) fun b' hb' => hbs b' (by simp [hb'])
      refine ⟨config', h', ?_, hs'⟩
      rw [Sled.callBuilders, hcall]
      exact hrest

/-- Opening and freeing both release the configuration, and nothing else is left. -/
theorem Sole.ending (hs : Sole config h) (ending : Ending) :
    Linear (ending.call config h).ledger := by
  have hrelease : ∀ mid, (∀ r, mid.count (Entry.acquire r) = 0) →
      run post [.config config] mid = some [] → Linear (h.ledger ++ mid) := by
    intro mid hmid hrun
    apply Settles.linear
    · exact run_append_eq_some.mpr ⟨_, hs.live, hrun⟩
    · intro r
      rw [List.count_append, hmid r]
      exact hs.unique r
  cases ending with
  | openDb opened =>
      have hledger : (Ending.call config h (.openDb opened)).ledger = h.ledger ++
          [.use (.config config), .release (.config config)] := by
        cases opened <;> simp [Ending.call, sledOpenDb, Heap.log]
      rw [hledger]
      exact hrelease _ (by simp) (by simp [post])
  | freeConfig => exact hrelease _ (by simp) (by simp [post])

/-! ## Runs with a path -/

/-- The current configuration is live, and no later allocation has been released. -/
structure Live (config : ℕ) (h : Heap) : Prop where
  acquired : Entry.acquire (.config config) ∈ h.ledger
  unreleased : Entry.release (.config config) ∉ h.ledger
  lt_next : config < h.next
  fresh : ∀ addr, h.next ≤ addr → Entry.release (.config addr) ∉ h.ledger

theorem live_create : Live (sledCreateConfig .empty).1 (sledCreateConfig .empty).2 where
  acquired := by simp [sledCreateConfig, Heap.boxConfig]
  unreleased := by simp [sledCreateConfig, Heap.boxConfig, Heap.empty]
  lt_next := Nat.zero_lt_one
  fresh := by simp [sledCreateConfig, Heap.boxConfig, Heap.empty]

theorem Live.rebox (hl : Live config h) (f : Config → Config) :
    Live (rebox f config h).1 (rebox f config h).2 where
  acquired := by simp [Sled.rebox, Heap.boxConfig, Heap.log]
  unreleased := by
    have hfresh := hl.fresh h.next le_rfl
    have hlt := hl.lt_next
    have hnext : (Sled.rebox f config h).1 = h.next := rfl
    rw [rebox_ledger, hnext]
    simp [hfresh]
    omega
  lt_next := Nat.lt_succ_self h.next
  fresh := by
    intro addr haddr
    have hnext : h.next + 1 ≤ addr := haddr
    have hfresh := hl.fresh addr (by omega)
    have hlt := hl.lt_next
    rw [rebox_ledger]
    simp [hfresh]
    omega

/-- Setting a path either panics with the configuration live, or releases the path before
the caller releases it. -/
theorem call_setPath (path : Bytes) (config : ℕ) (h : Heap) :
    (∃ h', Builder.call config h (.setPath path) = .error h' ∧
      h'.ledger = h.ledger ++ [.acquire (.path h.next), .use (.path h.next)]) ∨
    (∃ config' h' between, Builder.call config h (.setPath path) = .ok (config', h') ∧
      h'.ledger = (h.ledger ++ [.acquire (.path h.next), .use (.path h.next)]) ++
        .release (.path h.next) :: (between ++ [.release (.path h.next)])) := by
  cases hvalue : intoString path with
  | none =>
      left
      refine ⟨(h.strdup path).2.log (.use (.path h.next)), ?_, ?_⟩
      · simp [Builder.call, sledConfigSetPath, Heap.strdup, Heap.log, hvalue, Except.map]
      · simp [Heap.strdup, Heap.log]
  | some value =>
      right
      let consumed := ((h.strdup path).2.log (.use (.path h.next))).log (.release (.path h.next))
      let r := rebox (fun c => { c with path := some value }) config consumed
      refine ⟨r.1, r.2.freePath h.next, [.use (.config config), .acquire (.config (h.next + 1)),
        .release (.config config)], ?_, ?_⟩
      · simp [Builder.call, sledConfigSetPath, Heap.strdup, Heap.log, hvalue, Except.map, r,
          consumed]
      · simp [Heap.freePath, Heap.log, Heap.strdup, rebox_ledger, r, consumed]

theorem call_prefix (b : Builder) (config : ℕ) (h : Heap) :
    (∀ config' h', b.call config h = .ok (config', h') → h.ledger <+: h'.ledger) ∧
      ∀ h', b.call config h = .error h' → h.ledger <+: h'.ledger := by
  by_cases hb : b.SetsPath
  · cases b with
    | setPath path =>
        rcases call_setPath path config h with ⟨h', hcall, hledger⟩ | ⟨c', h', _, hcall, hledger⟩
        · rw [hcall]
          refine ⟨by simp, ?_⟩
          rintro _ ⟨⟩
          rw [hledger]
          exact List.prefix_append _ _
        · rw [hcall]
          refine ⟨?_, by simp⟩
          rintro _ _ ⟨⟩
          rw [hledger, List.append_assoc]
          exact List.prefix_append _ _
    | setCacheCapacity capacity => exact absurd hb id
    | useCompression flag => exact absurd hb id
    | flushEveryMs flushEvery => exact absurd hb id
  · obtain ⟨f, hcall⟩ := call_eq_rebox hb config h
    rw [hcall]
    refine ⟨?_, by simp⟩
    intro config' h' hok
    have hh' : (rebox f config h).2 = h' := congrArg Prod.snd (Except.ok.inj hok)
    rw [← hh', rebox_ledger]
    exact List.prefix_append _ _

/-- A run only adds to the ledger. -/
theorem runFrom_prefix (bs : List Builder) (ending : Ending) (config : ℕ) (h : Heap) :
    h.ledger <+: (runFrom bs ending config h).ledger := by
  induction bs generalizing config h with
  | nil =>
      cases ending with
      | openDb opened =>
          cases opened <;> simp [runFrom, callBuilders, Ending.call, sledOpenDb, Heap.log]
      | freeConfig => simp [runFrom, callBuilders, Ending.call, sledFreeConfig, Heap.log]
  | cons b bs ih =>
      obtain ⟨hok, herror⟩ := call_prefix b config h
      cases hcall : b.call config h with
      | ok r =>
          have hrest := ih r.1 r.2
          simp only [runFrom, callBuilders, hcall] at hrest ⊢
          exact (hok r.1 r.2 hcall).trans hrest
      | error h' =>
          simp only [runFrom, callBuilders, hcall]
          exact herror h' hcall

theorem not_linear_runFrom {bs : List Builder} (ending : Ending) (hl : Live config h)
    (hbs : ∃ b ∈ bs, b.SetsPath) : ¬ Linear (runFrom bs ending config h).ledger := by
  induction bs generalizing config h with
  | nil => simp at hbs
  | cons b bs ih =>
      by_cases hb : b.SetsPath
      · cases b with
        | setPath path =>
            intro hlinear
            rcases call_setPath path config h with
              ⟨h', hcall, hledger⟩ | ⟨c', h', between, hcall, hledger⟩
            · -- the panic leaves the configuration unreleased
              have hrun : runFrom (.setPath path :: bs) ending config h = h' := by
                simp only [runFrom, callBuilders, hcall]
                rfl
              rw [hrun, hledger] at hlinear
              have honce := hlinear.released_once (.config config) (by simp [hl.acquired])
              rw [List.count_append, List.count_eq_zero.mpr hl.unreleased] at honce
              simp at honce
            · -- the caller releases the path a second time
              have hrun : runFrom (.setPath path :: bs) ending config h =
                  runFrom bs ending c' h' := by
                simp only [runFrom, callBuilders, hcall]
                rfl
              obtain ⟨suffix, hsuffix⟩ := runFrom_prefix bs ending c' h'
              rw [hrun, ← hsuffix, hledger, List.append_assoc, List.cons_append] at hlinear
              have hafter := (hlinear.untouched_after _ _ _ rfl).2
              simp at hafter
        | setCacheCapacity capacity => exact absurd hb id
        | useCompression flag => exact absurd hb id
        | flushEveryMs flushEvery => exact absurd hb id
      · obtain ⟨f, hcall⟩ := call_eq_rebox hb config h
        have hrun : runFrom (b :: bs) ending config h =
            runFrom bs ending (rebox f config h).1 (rebox f config h).2 := by
          simp only [runFrom, callBuilders, hcall]
          rfl
        rw [hrun]
        refine ih (hl.rebox f) ?_
        simpa [hb] using hbs

/-! ## Whole runs -/

/-- By a caller that follows the doc comments, every configuration and every path string is
released exactly once and untouched afterwards if and only if no path is ever set. -/
theorem linear_session_iff (calls : List Builder) (ending : Ending) :
    Linear (session calls ending).ledger ↔ ∀ b ∈ calls, ¬ b.SetsPath := by
  constructor
  · intro hlinear b hb hsets
    exact not_linear_runFrom ending live_create ⟨b, hb, hsets⟩ hlinear
  · intro hcalls
    obtain ⟨config, h, hrun, hs⟩ := sole_create.callBuilders hcalls
    have hsession : session calls ending = ending.call config h := by
      simp only [session, runFrom, hrun]
    rw [hsession]
    exact hs.ending ending

/-- Setting the path "db" and opening the database releases the string twice. -/
theorem not_linear_session_setPath :
    (session [.setPath [100, 98]] (.openDb true)).ledger =
        [.acquire (.config 0), .acquire (.path 1), .use (.path 1), .release (.path 1),
          .use (.config 0), .acquire (.config 2), .release (.config 0), .release (.path 1),
          .use (.config 2), .release (.config 2)] ∧
      ¬ Linear (session [.setPath [100, 98]] (.openDb true)).ledger := by
  refine ⟨by decide, ?_⟩
  exact not_linear_runFrom (.openDb true) live_create
    ⟨.setPath [100, 98], List.mem_singleton_self _, trivial⟩

end LlgoExamples.Sled
