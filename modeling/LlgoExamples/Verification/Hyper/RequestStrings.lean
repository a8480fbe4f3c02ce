import Mathlib.Data.List.TakeWhile
import LlgoExamples.Model.Hyper.Get
import LlgoExamples.Verification.Hyper.AddressLoop

/-! # The strings of a request

The length of each string is measured on a C copy, which ends at its first NUL. A string
is therefore passed whole exactly when it has none, and the empty string is refused. -/

namespace LlgoExamples.Hyper

variable {host path : Bytes}

/-! ## One string -/

theorem allocaCStr_eq_iff (s : Bytes) : allocaCStr s = s ↔ 0 ∉ s := by
  rw [allocaCStr, List.takeWhile_eq_self_iff]
  constructor
  · intro h hmem
    simpa using h 0 hmem
  · intro h x hx
    have hne : x ≠ 0 := by
      rintro rfl
      exact h hx
    simpa using hne

/-- What goes to hyper is what C reads of the copy. -/
theorem passed_eq_ok {s bytes : Bytes} (h : passed s = .ok bytes) :
    s ≠ [] ∧ bytes = allocaCStr s := by
  cases s with
  | nil => cases h
  | cons x s =>
      cases h
      refine ⟨List.cons_ne_nil x s, ?_⟩
      exact (List.prefix_iff_eq_take.1 (List.takeWhile_prefix _)).symm

theorem passed_of_ne_nil {s : Bytes} (h : s ≠ []) : passed s = .ok (allocaCStr s) := by
  cases hs : passed s with
  | ok bytes => rw [(passed_eq_ok hs).2]
  | error p =>
      cases s with
      | nil => exact absurd rfl h
      | cons x s => cases hs

/-! ## The set-up of a request -/

/-- The request as it is set up when nothing is refused. -/
def requestFor (host path : Bytes) : List RequestEvent :=
  [.setMethod (literal "GET"), .setURI path, .setHeader (literal "Host") host]

theorem prepareRequest_ok {answers : RequestAnswers} {log : List RequestEvent}
    (h : prepareRequest host path answers = (.ok (), log)) :
    host ≠ [] ∧ path ≠ [] ∧ log = requestFor (allocaCStr host) (allocaCStr path) := by
  have hget : passed (literal "GET") = .ok (literal "GET") := by decide
  have hname : passed (literal "Host") = .ok (literal "Host") := by decide
  simp only [prepareRequest, hget, hname] at h
  split at h
  · cases h
  · cases hpath : passed path with
    | error p =>
        simp only [hpath] at h
        cases h
    | ok uri =>
        simp only [hpath] at h
        split at h
        · cases h
        · cases hhost : passed host with
          | error p =>
              simp only [hhost] at h
              cases h
          | ok value =>
              simp only [hhost] at h
              split at h
              · cases h
              · cases h
                obtain ⟨hne, rfl⟩ := passed_eq_ok hpath
                obtain ⟨hne', rfl⟩ := passed_eq_ok hhost
                exact ⟨hne', hne, rfl⟩

/-- However the setters answer, what they are given is the start of that request. -/
theorem prepareRequest_begins (host path : Bytes) (answers : RequestAnswers) :
    (prepareRequest host path answers).2 <+:
      requestFor (allocaCStr host) (allocaCStr path) := by
  have hget : passed (literal "GET") = .ok (literal "GET") := by decide
  have hname : passed (literal "Host") = .ok (literal "Host") := by decide
  have hmethod : [RequestEvent.setMethod (literal "GET")] <+:
      requestFor (allocaCStr host) (allocaCStr path) := ⟨_, rfl⟩
  have huri : [RequestEvent.setMethod (literal "GET"), .setURI (allocaCStr path)] <+:
      requestFor (allocaCStr host) (allocaCStr path) := ⟨_, rfl⟩
  simp only [prepareRequest, hget, hname]
  split
  · exact hmethod
  · cases hpath : passed path with
    | error p => exact hmethod
    | ok uri =>
        obtain ⟨-, rfl⟩ := passed_eq_ok hpath
        dsimp only
        split
        · exact huri
        · cases hhost : passed host with
          | error p => exact huri
          | ok value =>
              obtain ⟨-, rfl⟩ := passed_eq_ok hhost
              dsimp only
              split <;> exact List.prefix_rfl

/-- With an empty path only the method is set. -/
theorem prepareRequest_nil (host : Bytes) (answers : RequestAnswers) :
    (prepareRequest host [] answers).2 = [.setMethod (literal "GET")] := by
  have hget : passed (literal "GET") = .ok (literal "GET") := by decide
  simp only [prepareRequest, hget]
  split <;> rfl

def accepting : RequestAnswers :=
  { setMethod := .ok, setURI := .ok, setHeader := .ok }

theorem prepareRequest_accepting (hhost : host ≠ []) (hpath : path ≠ []) :
    prepareRequest host path accepting =
      (.ok (), requestFor (allocaCStr host) (allocaCStr path)) := by
  have hget : passed (literal "GET") = .ok (literal "GET") := by decide
  have hname : passed (literal "Host") = .ok (literal "Host") := by decide
  simp only [prepareRequest, hget, hname, passed_of_ne_nil hhost, passed_of_ne_nil hpath]
  rfl

/-- The URI is set before the host is looked at. -/
theorem setURI_mem_prepareRequest (host : Bytes) (hpath : path ≠ []) :
    .setURI (allocaCStr path) ∈ (prepareRequest host path accepting).2 := by
  have hget : passed (literal "GET") = .ok (literal "GET") := by decide
  have hname : passed (literal "Host") = .ok (literal "Host") := by decide
  simp only [prepareRequest, hget, hname, passed_of_ne_nil hpath]
  cases passed host with
  | error p => simp [accepting]
  | ok value => simp [accepting]

/-! ## What a request asks for -/

/-- The request and the resolver were given the whole host, the request the whole path. -/
structure AsksFor (host path : Bytes) (k : Kernel) (r : GetRun) : Prop where
  request : r.request = requestFor host path
  resolved : ∃ service family sockType calls,
    r.kernel.log = k.log ++ .getaddrinfo host service family sockType :: calls

/-- What the setters were given is the whole path and the whole host. -/
structure Whole (host path : Bytes) (request : List RequestEvent) : Prop where
  uri : ∀ uri, .setURI uri ∈ request → uri = path
  host : ∀ value, .setHeader (literal "Host") value ∈ request → value = host

/-- Whatever `Get` meets, no setter is given less than its caller named, and `Get` panics
before any system call or asks for exactly that. -/
def NeverShortens (host path : Bytes) : Prop :=
  ∀ alloc port env k r, get alloc host port path env k = some r →
    Whole host path r.request ∧
      ((∃ p, r.outcome = .error p ∧ r.kernel = k) ∨ AsksFor host path k r)

theorem get_request {alloc : Sockets} {port : Bytes} {env : Surroundings} {k : Kernel}
    {r : GetRun} (h : get alloc host port path env k = some r) :
    r.request = (prepareRequest host path env.request).2 := by
  rw [get.eq_def] at h
  split at h
  · rename_i p request hprepare
    cases h
    rw [hprepare]
  · rename_i request hprepare
    split at h
    · cases h
      rw [hprepare]
    · obtain ⟨s, -, rfl⟩ := Option.map_eq_some_iff.1 h
      rw [hprepare]

/-- As far as `ConnectTo`, `Get` has asked for what C reads of the two strings. -/
theorem get_asks {alloc : Sockets} {port : Bytes} {env : Surroundings} {k : Kernel} {r : GetRun}
    (h : get alloc host port path env k = some r) :
    (∃ p, r.outcome = .error p ∧ r.kernel = k) ∨
      host ≠ [] ∧ path ≠ [] ∧ AsksFor (allocaCStr host) (allocaCStr path) k r := by
  rw [get.eq_def] at h
  split at h
  · rename_i p request hprepare
    cases h
    exact Or.inl ⟨p, rfl, rfl⟩
  · rename_i request hprepare
    obtain ⟨hhost, hpath, hrequest⟩ := prepareRequest_ok hprepare
    obtain ⟨calls, hcalls⟩ := connectTo_lookup alloc host port env.network k
    refine Or.inr ⟨hhost, hpath, ?_⟩
    split at h
    · rename_i p k' hconnect
      cases h
      rw [hconnect] at hcalls
      exact ⟨hrequest, _, _, _, calls, hcalls⟩
    · rename_i fd k' hconnect
      obtain ⟨s, -, rfl⟩ := Option.map_eq_some_iff.1 h
      rw [hconnect] at hcalls
      exact ⟨hrequest, _, _, _, calls, hcalls⟩

/-- Surroundings in which the set-up is accepted and the host is not found. -/
def notFound : Surroundings :=
  { request := accepting
    network := { getaddrinfoRet := -2, result := [], fcntlRet := 0 }
    handshakeTask := 0
    handshakeRes := .ok
    inputs := [] }

/-- There `Get` ends with what it has set up by then. -/
theorem get_notFound (host path : Bytes) (alloc : Sockets) (port : Bytes) (k : Kernel) :
    ∃ r, get alloc host port path notFound k = some r ∧
      r.request = (prepareRequest host path accepting).2 := by
  obtain ⟨r, hget⟩ : ∃ r, get alloc host port path notFound k = some r := by
    rw [get.eq_def]
    split
    · exact ⟨_, rfl⟩
    · exact ⟨_, rfl⟩
  exact ⟨r, hget, get_request hget⟩

theorem whole_of_begins {request : List RequestEvent}
    (hbegins : request <+: requestFor host path) : Whole host path request where
  uri uri hmem := by simpa [requestFor] using hbegins.subset hmem
  host value hmem := by simpa [requestFor] using hbegins.subset hmem

/-- No string is shortened exactly when there is no path to set, or when neither string has
a NUL. -/
theorem neverShortens_iff (host path : Bytes) :
    NeverShortens host path ↔ path = [] ∨ 0 ∉ path ∧ 0 ∉ host := by
  constructor
  · intro h
    by_cases hpath : path = []
    · exact Or.inl hpath
    right
    obtain ⟨r, hget, hrequest⟩ := get_notFound host path .lowest [] { fds := ∅, log := [] }
    obtain ⟨huri, hhost⟩ := (h _ _ _ _ _ hget).1
    rw [hrequest] at huri hhost
    refine ⟨(allocaCStr_eq_iff path).1 (huri _ (setURI_mem_prepareRequest host hpath)), ?_⟩
    by_cases hempty : host = []
    · rw [hempty]
      exact List.not_mem_nil
    · refine (allocaCStr_eq_iff host).1 (hhost _ ?_)
      rw [prepareRequest_accepting hempty hpath]
      simp [requestFor]
  · intro h alloc port env k r hget
    have hrequest := get_request hget
    rcases h with rfl | ⟨hpath, hhost⟩
    · rw [prepareRequest_nil] at hrequest
      refine ⟨?_, (get_asks hget).imp_right fun hasks => absurd rfl hasks.2.1⟩
      rw [hrequest]
      constructor <;> simp
    · have hbegins := prepareRequest_begins host path env.request
      have hasks := get_asks hget
      rw [(allocaCStr_eq_iff host).2 hhost, (allocaCStr_eq_iff path).2 hpath] at hbegins hasks
      rw [← hrequest] at hbegins
      exact ⟨whole_of_begins hbegins, hasks.imp_right fun hasks => hasks.2.2⟩

/-- The path "/a", a NUL, "b": the request asks for "/a". -/
theorem not_neverShortens_nulPath :
    (get .lowest [104] [56, 48] [47, 97, 0, 98] notFound { fds := ∅, log := [] }).map
        GetRun.request = some (requestFor [104] [47, 97]) ∧
      ¬ NeverShortens [104] [47, 97, 0, 98] := by
  refine ⟨rfl, ?_⟩
  intro h
  have hwhole := (h .lowest [56, 48] notFound { fds := ∅, log := [] } _ rfl).1
  exact absurd (hwhole.uri [47, 97] (by decide)) (by decide)

end LlgoExamples.Hyper
