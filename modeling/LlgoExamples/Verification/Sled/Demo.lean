import LlgoExamples.Model.Sled.Demo
import LlgoExamples.Verification.Sled.Equations
import LlgoExamples.Verification.Sled.Ownership
import LlgoExamples.Verification.Sled.Settings

/-! # Freeing what was opened

`sled_open_db` consumes the configuration, so that the `Free` that the demo defers releases
it again. Only where the database cannot be opened is it released once. -/

namespace LlgoExamples.Sled

open Machine Ledger

variable {config config' : ℕ} {h h' : Heap}

/-! ## One setter -/

/-- Only the current configuration is live, and the numbers to come were not used for a path
either. -/
structure Given (config : ℕ) (h : Heap) : Prop extends Sole config h where
  paths : ∀ addr, h.next ≤ addr → Entry.acquire (.path addr) ∉ h.ledger

theorem given_create : Given (sledCreateConfig .empty).1 (sledCreateConfig .empty).2 where
  toSole := sole_create
  paths addr _ := by simp [sledCreateConfig, Heap.boxConfig, Heap.empty]

theorem Given.rebox (hg : Given config h) (f : Config → Config) :
    Given (rebox f config h).1 (rebox f config h).2 where
  toSole := hg.toSole.rebox f
  paths := by
    intro addr haddr
    have hnext : h.next + 1 ≤ addr := haddr
    have hold := hg.paths addr (by omega)
    rw [rebox_ledger]
    simp [hold]

/-- The path that the library took over: copied, read and deallocated. -/
def Heap.consumed (path : Bytes) (h : Heap) : Heap :=
  ((h.strdup path).2.log (.use (.path h.next))).log (.release (.path h.next))

theorem consumed_ledger (path : Bytes) (h : Heap) : (h.consumed path).ledger =
    h.ledger ++ [.acquire (.path h.next), .use (.path h.next), .release (.path h.next)] := by
  simp [Heap.consumed, Heap.strdup, Heap.log]

theorem Given.consumed (hg : Given config h) (path : Bytes) : Given config (h.consumed path) where
  live := by
    rw [consumed_ledger]
    exact run_append_eq_some.2 ⟨_, hg.live, by simp [post]⟩
  unique := by
    intro r
    have hr := hg.unique r
    rw [consumed_ledger, List.count_append]
    by_cases hpath : r = .path h.next
    · have hzero : h.ledger.count (.acquire r) = 0 :=
        List.count_eq_zero.2 (hpath ▸ hg.paths h.next le_rfl)
      rw [hzero]
      simp [hpath]
    · simpa [List.count_cons, Ne.symm hpath] using hr
  unused := by
    intro addr haddr
    have hnext : h.next + 1 ≤ addr := haddr
    have hold := hg.unused addr (by omega)
    rw [consumed_ledger]
    simp [hold]
  paths := by
    intro addr haddr
    have hnext : h.next + 1 ≤ addr := haddr
    have hold := hg.paths addr (by omega)
    rw [consumed_ledger]
    simp [hold]
    omega

/-- A setter that is accepted leaves nothing but the configuration that it returns. -/
theorem Given.chained (hg : Given config h) {b : Builder} (hb : b.Accepted) :
    ∃ config' h', b.chained config h = .ok (config', h') ∧ Given config' h' := by
  cases b with
  | setPath path =>
      obtain ⟨value, hvalue⟩ := Option.isSome_iff_exists.1 (hb path rfl)
      refine ⟨_, _, ?_, (hg.consumed path).rebox fun c => { c with path := some value }⟩
      simp [Builder.chained, sledConfigSetPath, Heap.strdup, Heap.log, hvalue, Heap.consumed]
  | setCacheCapacity capacity =>
      exact ⟨_, _, rfl, hg.rebox fun c => { c with cacheCapacity := some capacity }⟩
  | useCompression flag =>
      exact ⟨_, _, rfl, hg.rebox fun c => { c with useCompression := some (flag == 1) }⟩
  | flushEveryMs flushEvery =>
      exact ⟨_, _, rfl, hg.rebox fun c => { c with
        flushEveryMs := some (if flushEvery < 0 then none else some flushEvery.toNat) }⟩

/-- A setter that panics leaves its configuration unreleased. -/
theorem Given.refused (hg : Given config h) {b : Builder} (hb : ¬ b.Accepted) :
    ∃ h', b.chained config h = .error h' ∧ ¬ Linear h'.ledger := by
  obtain ⟨path, rfl, hnone⟩ := exists_of_not_accepted hb
  refine ⟨(h.strdup path).2.log (.use (.path h.next)), ?_, ?_⟩
  · simp [Builder.chained, sledConfigSetPath, Heap.strdup, Heap.log, hnone]
  · intro hlinear
    have hcount := run_count (r := .config config) hg.live
    have hunique := hg.unique (.config config)
    rw [List.count_cons_self, List.count_nil] at hcount
    have hmem : Entry.acquire (.config config) ∈ h.ledger := List.count_pos_iff.1 (by omega)
    have honce := hlinear.released_once (.config config) (by simp [Heap.strdup, Heap.log, hmem])
    simp only [Heap.strdup, Heap.log, List.append_assoc, List.count_append] at honce
    simp at honce
    omega

/-! ## Many setters -/

theorem Given.chain (hg : Given config h) (setters : List Builder) :
    ((∀ b ∈ setters, b.Accepted) →
        ∃ config' h', chain setters config h = .ok (config', h') ∧ Given config' h') ∧
      (¬ (∀ b ∈ setters, b.Accepted) →
        ∃ h', chain setters config h = .error h' ∧ ¬ Linear h'.ledger) := by
  induction setters generalizing config h with
  | nil => exact ⟨fun _ => ⟨config, h, rfl, hg⟩, fun hnot => absurd (fun _ hb => by cases hb) hnot⟩
  | cons b setters ih =>
      by_cases hb : b.Accepted
      · obtain ⟨config₁, h₁, hcall, hg₁⟩ := hg.chained hb
        obtain ⟨hok, herror⟩ := ih hg₁
        rw [Sled.chain, hcall]
        refine ⟨fun hall => hok fun b' hb' => hall b' (List.mem_cons_of_mem b hb'), ?_⟩
        intro hnot
        refine herror fun hall => hnot ?_
        intro b' hb'
        rcases List.mem_cons.1 hb' with rfl | hb'
        · exact hb
        · exact hall b' hb'
      · obtain ⟨h₁, hcall, hlinear⟩ := hg.refused hb
        rw [Sled.chain, hcall]
        exact ⟨fun hall => absurd (hall b List.mem_cons_self) hb, fun _ => ⟨h₁, rfl, hlinear⟩⟩

/-- Whatever is set, deferring the `Free` of a configuration that is opened releases each
configuration and each path once if and only if the database cannot be opened, with every
path accepted. -/
theorem deferredFree_linear_iff (setters : List Builder) (opened : Bool) :
    Linear (deferredFree setters opened).ledger ↔
      opened = false ∧ ∀ b ∈ setters, b.Accepted := by
  obtain ⟨hok, herror⟩ := given_create.chain setters
  by_cases hall : ∀ b ∈ setters, b.Accepted
  · obtain ⟨config, h, hchain, hg⟩ := hok hall
    have hend : deferredFree setters opened =
        if opened then sledFreeConfig config (Ending.call config h (.openDb true))
        else Ending.call config h (.openDb false) := by
      rw [deferredFree, configureAndOpen]
      simp only [hchain]
      cases opened <;> rfl
    rw [hend]
    cases opened with
    | false => exact iff_of_true (hg.toSole.ending (.openDb false)) ⟨rfl, hall⟩
    | true =>
        refine iff_of_false ?_ fun hboth => Bool.noConfusion hboth.1
        intro hlinear
        -- `Open` has released it
        have hledger : (sledFreeConfig config (Ending.call config h (.openDb true))).ledger =
            (h.ledger ++ [.use (.config config)]) ++
              .release (.config config) :: [.release (.config config)] := by
          simp [sledFreeConfig, Ending.call, sledOpenDb, Heap.log]
        have hafter := (hlinear.untouched_after _ _ _ hledger).2
        simp at hafter
  · obtain ⟨h, hchain, hlinear⟩ := herror hall
    have hend : deferredFree setters opened = h := by
      rw [deferredFree, configureAndOpen]
      simp only [hchain]
      rfl
    rw [hend]
    exact iff_of_false hlinear fun hboth => hall hboth.2

/-! ## The demo -/

/-- A value that was just obtained can be freed, and nothing of it is left. -/
theorem free_getValue {alloc : Supply} {key v : Bytes} {w : World} (h : w.tree key = some v) :
    ∃ w', (getValue alloc key w).1.free (getValue alloc key w).2 = some w' ∧
      w'.tree = w.tree ∧ w'.bufs = w.bufs := by
  rw [getValue_of_some alloc key w h]
  refine ⟨{ (leakBuf alloc v w).2 with bufs := w.bufs }, ?_, rfl, rfl⟩
  simp [Value.free, sledFreeBuf, leakBuf]

/-- Whatever the database held, the demo prints the value it has set, frees it, and frees its
configuration a second time. -/
theorem demoMain_found (alloc : Supply) (tree : Tree) : ∃ r db,
    demoMain alloc (some tree) = some r ∧ r.printed = bytesOf "value: value\n" ∧
      r.world = some db ∧ db.tree = tree.insert (bytesOf "key") (bytesOf "value") ∧
      db.bufs = [] ∧ ¬ Linear r.heap.ledger := by
  have hnot : ¬ Linear (deferredFree [.setPath (bytesOf "./db")] true).ledger := by
    rw [deferredFree_linear_iff]
    exact fun hboth => Bool.noConfusion hboth.1
  obtain ⟨conf, h, hopen⟩ : ∃ conf h,
      configureAndOpen [.setPath (bytesOf "./db")] true = .ok (conf, h) := ⟨_, _, rfl⟩
  let db := setString (bytesOf "key") (bytesOf "value") (.start tree)
  have hset : db.tree (bytesOf "key") = some (bytesOf "value") :=
    Function.update_self (bytesOf "key") _ tree
  have hprinted : bytesOf "value: " ++ bytesOf "value" ++ bytesOf "\n" =
      bytesOf "value: value\n" := by decide
  have hstr : (getString alloc (bytesOf "key") db).1.str = bytesOf "value" := by
    rw [getString, getValue_of_some alloc _ _ hset]
  obtain ⟨db', hfree, htree, hbufs⟩ := free_getValue hset
  have hmain : demoMain alloc (some tree) = some ⟨sledFreeConfig conf h, some db',
      bytesOf "value: " ++ bytesOf "value" ++ bytesOf "\n"⟩ := by
    have hfreed : (getString alloc (bytesOf "key") db).1.free
        (getString alloc (bytesOf "key") db).2 = some db' := hfree
    simp only [demoMain, Option.isSome_some, hopen]
    simp only [db] at hstr hfreed
    simp only [hstr, hfreed, Option.map_some]
  refine ⟨_, db', hmain, hprinted, rfl, htree, hbufs, ?_⟩
  rw [deferredFree, hopen] at hnot
  exact hnot

end LlgoExamples.Sled
