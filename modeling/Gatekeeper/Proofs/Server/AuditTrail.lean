import Mathlib.Data.List.Forall2
import Gatekeeper.Operation.Counter
import Gatekeeper.Proofs.Server.AuditLog
import Gatekeeper.Proofs.Server.Lookups

namespace Gatekeeper

open Bytes

namespace Http

variable {limit : Nat} {brokenOff : Bool} {chunks : List Bytes} {body : Bytes}

/-- A body is read if it is complete and within the limit, however it is cut in pieces. -/
theorem readBody_eq_ok_iff : readBody limit brokenOff chunks = .ok body ↔
    brokenOff = false ∧ chunks.flatten.length ≤ limit ∧ chunks.flatten = body := by
  induction chunks generalizing limit body with
  | nil => cases brokenOff <;> simp [readBody]
  | cons chunk chunks ih =>
    rw [readBody, List.flatten_cons, List.length_append]
    split
    next hlarge =>
      constructor
      · nofun
      · intro ⟨_, hle, _⟩
        omega
    next hfits =>
      cases hrest : readBody (limit - chunk.length) brokenOff chunks with
      | error fault =>
        constructor
        · nofun
        · intro ⟨hwhole, hle, _⟩
          rw [ih.2 ⟨hwhole, by omega, rfl⟩] at hrest
          cases hrest
      | ok rest =>
        obtain ⟨hwhole, hle, hflat⟩ := ih.1 hrest
        rw [hflat] at hle ⊢
        constructor
        · intro h
          cases h
          exact ⟨hwhole, by omega, rfl⟩
        · intro ⟨_, _, h⟩
          rw [← h]
          rfl

theorem readBody_of_tooLarge (h : limit < chunks.flatten.length) :
    readBody limit brokenOff chunks = .error .tooLarge := by
  induction chunks generalizing limit with
  | nil => exact absurd h (Nat.not_lt_zero limit)
  | cons chunk chunks ih =>
    rw [List.flatten_cons, List.length_append] at h
    rw [readBody]
    split
    · rfl
    next hfits =>
      rw [ih (by omega)]
      rfl

def Request.PostsCapability (r : Request) : Prop := r.path = "/process_capability" ∧ r.method = "POST"

instance (r : Request) : Decidable r.PostsCapability := inferInstanceAs (Decidable (_ ∧ _))

end Http

variable {σ : Type} {s : Server σ} {d d' : Disk} {n : Nat} {b : Bytes} {state : σ}

namespace Server

structure Exchange (σ : Type) where
  now : Nat
  request : Http.Request
  reply : Reply σ

/-- Whether a request posts a body that is complete and not too large. -/
def Reads (s : Server σ) (r : Http.Request) : Prop :=
  r.PostsCapability ∧ r.brokenOff = false ∧ r.chunks.flatten.length ≤ s.maxBodyBytes

instance (r : Http.Request) : Decidable (s.Reads r) := inferInstanceAs (Decidable (_ ∧ _))

def exchanges (s : Server σ) : σ → Disk → List (Nat × Http.Request) → List (Exchange σ)
  | _, _, [] => []
  | state, d, (now, r) :: rest =>
    let reply := s.answer now r state d
    ⟨now, r, reply⟩ :: exchanges s reply.state reply.disk rest

def diskAfter (d : Disk) (xs : List (Exchange σ)) : Disk := xs.foldl (fun _ x ↦ x.reply.disk) d

/-- Whether nobody but the server is at its store, and its audit log is kept apart. -/
def IsAtRest (s : Server σ) (d : Disk) : Prop :=
  match s.store with
  | .memory _ => True
  | .database c => ∃ T r, c.IsUndisturbed s.audit T r d

theorem contents_afterLookup (h : s.IsAtRest d) (i : Identity) :
    (s.store.afterLookup d i).contents = d.contents := by
  unfold IsAtRest at h
  cases hstore : s.store with
  | memory keys => rfl
  | database c =>
    rw [hstore] at h
    obtain ⟨T, r, hrests, -⟩ := h
    rcases (Connection.lookup_rests hrests i).2.2 with hd' | ⟨q, hd'⟩
    · exact congrArg Disk.contents hd'
    · exact (congrArg Disk.contents hd').trans (Disk.contents_unlink d q)

theorem IsAtRest.process (h : s.IsAtRest d) (now : Nat) (body : Bytes) (state : σ) :
    s.IsAtRest (s.process now body state d).disk := by
  unfold IsAtRest at h ⊢
  cases hstore : s.store with
  | memory keys => trivial
  | database c =>
    rw [hstore] at h
    obtain ⟨T, r, h⟩ := h
    exact ⟨T, r, process_undisturbed hstore h now body state⟩

theorem process_logs (h : s.IsAtRest d) (hfile : s.audit = .file n) (hb : d.content? n = some (.bytes b))
    (now : Nat) (body : Bytes) (state : σ) :
    ∃ e : RequestEvent, (s.process now body state d).disk.content? n =
        some (.bytes (b ++ AuditEvent.log [(now, .request e)])) ∧
      e.requestBytes = body.length ∧ e.responseBytes = (s.process now body state d).response.body.length := by
  let done := (s.dispatcher.handle (s.store.lookup d) (fun k e ↦ e.unpack k) body state).1
  have hsize : done.response.body.length = (frame done.response).body.length := by
    cases done.response <;> rfl
  rw [process_eq]
  refine ⟨Dispatcher.eventOf done.response done.trace body.length, ?_, rfl, hsize⟩
  have hlogged {d' : Disk} (hd' : d'.contents = d.contents) (e : AuditEvent) :
      (s.audit.record now e d').2.content? n = some (.bytes (b ++ AuditEvent.log [(now, e)])) := by
    have hb' : d'.content? n = some (.bytes b) := by rw [Disk.content?, hd', ← Disk.content?, hb]
    rw [hfile]
    exact AuditSink.content?_recordAll [(now, e)] hb'
  refine hlogged ?_ _
  unfold Ask.after
  split
  next i _ => exact contents_afterLookup h i
  · rfl

section

variable {τ : Type} {process : Bytes → τ → Disk → Reply τ} {r : Http.Request} {t : τ}

theorem answerWith_of_body {body : Bytes} (hposts : r.PostsCapability)
    (h : Http.readBody s.maxBodyBytes r.brokenOff r.chunks = .ok body) :
    s.answerWith process r t d = process body t d := by
  rw [answerWith, if_pos hposts.1, if_pos hposts.2, h]

theorem answerWith_of_fault {fault : Http.BodyFault} (hposts : r.PostsCapability)
    (h : Http.readBody s.maxBodyBytes r.brokenOff r.chunks = .error fault) :
    s.answerWith process r t d = { response := refuseBody fault, state := t, disk := d } := by
  rw [answerWith, if_pos hposts.1, if_pos hposts.2, h]

theorem answerWith_of_reads (h : s.Reads r) : s.answerWith process r t d = process r.chunks.flatten t d := by
  obtain ⟨hposts, hwhole, hle⟩ := h
  exact answerWith_of_body hposts (Http.readBody_eq_ok_iff.2 ⟨hwhole, hle, rfl⟩)

theorem answerWith_of_not_reads (h : ¬ s.Reads r) : ∃ response, ∀ (τ : Type)
    (process : Bytes → τ → Disk → Reply τ) (t : τ) (d : Disk),
      s.answerWith process r t d = { response, state := t, disk := d } := by
  by_cases hposts : r.PostsCapability
  · cases hread : Http.readBody s.maxBodyBytes r.brokenOff r.chunks with
    | error fault => exact ⟨_, fun _ _ _ _ ↦ answerWith_of_fault hposts hread⟩
    | ok body =>
      obtain ⟨hwhole, hle, -⟩ := Http.readBody_eq_ok_iff.1 hread
      exact absurd ⟨hposts, hwhole, hle⟩ h
  · unfold answerWith
    by_cases hpath : r.path = "/process_capability"
    · have hmethod : r.method ≠ "POST" := fun hmethod ↦ hposts ⟨hpath, hmethod⟩
      exact ⟨_, fun _ _ _ _ ↦ by rw [if_pos hpath, if_neg hmethod]⟩
    · simp only [if_neg hpath]
      repeat' split
      all_goals exact ⟨_, fun _ _ _ _ ↦ rfl⟩

end

theorem answer_cases (s : Server σ) (now : Nat) (r : Http.Request) (state : σ) (d : Disk) :
    s.Reads r ∧ s.answer now r state d = s.process now r.chunks.flatten state d ∨
      ¬ s.Reads r ∧ (s.answer now r state d).disk = d := by
  by_cases hreads : s.Reads r
  · exact .inl ⟨hreads, answerWith_of_reads hreads⟩
  · obtain ⟨response, hquiet⟩ := answerWith_of_not_reads hreads
    exact .inr ⟨hreads, congrArg Reply.disk (hquiet σ (s.process now) state d)⟩

theorem IsAtRest.answer (h : s.IsAtRest d) (now : Nat) (r : Http.Request) (state : σ) :
    s.IsAtRest (s.answer now r state d).disk := by
  rcases answer_cases s now r state d with ⟨-, hanswer⟩ | ⟨-, hdisk⟩
  · rw [hanswer]
    exact h.process now _ state
  · rwa [hdisk]

/-- Whether an event tells when a request came in, how long its body was and how long the answer was. -/
def Exchange.IsToldBy (x : Exchange σ) (e : Nat × RequestEvent) : Prop :=
  e.1 = x.now ∧ e.2.requestBytes = x.request.chunks.flatten.length ∧
    e.2.responseBytes = x.reply.response.body.length

def requestLog (events : List (Nat × RequestEvent)) : Bytes :=
  AuditEvent.log (events.map fun (now, e) ↦ (now, .request e))

theorem requestLog_cons (e : Nat × RequestEvent) (events : List (Nat × RequestEvent)) :
    requestLog (e :: events) = AuditEvent.log [(e.1, .request e.2)] ++ requestLog events := by
  simp [requestLog, AuditEvent.log]

theorem exchanges_logged (h : s.IsAtRest d) (hfile : s.audit = .file n) (hb : d.content? n = some (.bytes b))
    (state : σ) (requests : List (Nat × Http.Request)) :
    ∃ events, (diskAfter d (s.exchanges state d requests)).content? n =
        some (.bytes (b ++ requestLog events)) ∧
      List.Forall₂ Exchange.IsToldBy ((s.exchanges state d requests).filter (s.Reads ·.request)) events := by
  induction requests generalizing state d b with
  | nil => exact ⟨[], by simpa [exchanges, diskAfter, requestLog, AuditEvent.log] using hb, .nil⟩
  | cons r requests ih =>
    obtain ⟨now, r⟩ := r
    have hrest := h.answer now r state
    rcases answer_cases s now r state d with ⟨hreads, hanswer⟩ | ⟨hreads, hdisk⟩
    · obtain ⟨e, hline, hrequest, hresponse⟩ := process_logs h hfile hb now r.chunks.flatten state
      rw [← hanswer] at hline hresponse
      obtain ⟨events, hlog, htold⟩ := ih hrest hline (s.answer now r state d).state
      refine ⟨(now, e) :: events, ?_, ?_⟩
      · rwa [requestLog_cons, ← List.append_assoc]
      · rw [exchanges, List.filter_cons_of_pos (by simpa using hreads)]
        exact .cons ⟨rfl, hrequest, hresponse⟩ htold
    · rw [← hdisk] at hb
      obtain ⟨events, hlog, htold⟩ := ih hrest hb (s.answer now r state d).state
      refine ⟨events, hlog, ?_⟩
      rw [exchanges, List.filter_cons_of_neg (by simpa using hreads)]
      exact htold

theorem map_request_exchanges (s : Server σ) (state : σ) (d : Disk) (requests : List (Nat × Http.Request)) :
    (s.exchanges state d requests).map (fun x ↦ (x.now, x.request)) = requests := by
  induction requests generalizing state d with
  | nil => rfl
  | cons r requests ih =>
    rw [exchanges, List.map_cons, ih]

theorem reply_of_mem {x : Exchange σ} {requests : List (Nat × Http.Request)}
    (h : x ∈ s.exchanges state d requests) : ∃ state d, x.reply = s.answer x.now x.request state d := by
  induction requests generalizing state d with
  | nil => cases h
  | cons r requests ih =>
    rcases List.mem_cons.1 h with rfl | h
    · exact ⟨state, d, rfl⟩
    · exact ih h

/-- A body over the limit is refused, be it broken off or not. -/
theorem answer_of_tooLarge {r : Http.Request} (hposts : r.PostsCapability)
    (hlarge : s.maxBodyBytes < r.chunks.flatten.length) (now : Nat) (state : σ) (d : Disk) :
    (s.answer now r state d).response = .plain 413 "request body too large" := by
  rw [answer, answerWith_of_fault hposts (Http.readBody_of_tooLarge hlarge)]
  rfl

theorem isAtRest_of_start {now : Nat} {configuration : Configuration} {modules : ModuleRegistry σ}
    {started : Started σ} (hd : d.WellFormed) (h : start now configuration modules d = (.ok started, d'))
    (hapart : started.server.KeepsApart d') : started.server.IsAtRest d' := by
  unfold IsAtRest
  cases hstore : started.server.store with
  | memory keys => trivial
  | database c =>
    rw [KeepsApart, hstore] at hapart
    exact undisturbed_of_start hd h hstore hapart

/-- The log of a server that was just started tells of every request whose body was read, in the order in
which they came, and of no other: not of one whose body was too large. -/
theorem audit_trail {now : Nat} {configuration : Configuration} {modules : ModuleRegistry σ}
    {started : Started σ} (hd : d.WellFormed) (hstart : start now configuration modules d = (.ok started, d'))
    (hfile : started.server.audit = .file n) (hb : d'.content? n = some (.bytes b))
    (hapart : started.server.KeepsApart d') (state : σ) (requests : List (Nat × Http.Request)) :
    let xs := started.server.exchanges state d' requests
    xs.map (fun x ↦ (x.now, x.request)) = requests ∧
    (∀ x ∈ xs, x.request.PostsCapability → started.server.maxBodyBytes < x.request.chunks.flatten.length →
      x.reply.response = .plain 413 "request body too large") ∧
    ∃ events, (diskAfter d' xs).content? n = some (.bytes (b ++ requestLog events)) ∧
      List.Forall₂ Exchange.IsToldBy (xs.filter (started.server.Reads ·.request)) events ∧
      events.length = requests.countP (started.server.Reads ·.2) ∧
      (events.length = requests.length ↔ ∀ r ∈ requests, started.server.Reads r.2) := by
  intro xs
  have hxs := map_request_exchanges started.server state d' requests
  obtain ⟨events, hlog, htold⟩ := exchanges_logged (isAtRest_of_start hd hstart hapart) hfile hb state requests
  have hlength : events.length = requests.countP (started.server.Reads ·.2) := by
    have hcount := congrArg (List.countP (started.server.Reads ·.2)) hxs
    rw [List.countP_map] at hcount
    rw [← htold.length_eq, ← List.countP_eq_length_filter, ← hcount]
    rfl
  refine ⟨hxs, fun x hx hposts hlarge ↦ ?_, events, hlog, htold, hlength, ?_⟩
  · obtain ⟨state, e, hreply⟩ := reply_of_mem hx
    rw [hreply]
    exact answer_of_tooLarge hposts hlarge _ state e
  · rw [hlength, List.countP_eq_length]
    simp

def fourBytes : Configuration where
  service := { operations := some "guardian.operations.basic" }
  server := { maxBodyBytes := 4, audit := { path := some "audit.jsonl" } }

set_option maxRecDepth 10000 in
theorem start_fourBytes : ∃ started d' keys b, start 0 fourBytes .builtin {} = (.ok started, d') ∧
    started.server.store = .memory keys ∧ started.server.audit = .file 0 ∧
    started.server.maxBodyBytes = 4 ∧ d'.content? 0 = some (.bytes b) :=
  ⟨_, _, _, _, by rfl, by rfl, by rfl, by rfl, by rfl⟩

def post (body : Bytes) : Http.Request := ⟨"POST", "/process_capability", [body], false⟩

/-- Of two bodies the one that is too large by a byte is refused, and the log does not tell of it. -/
theorem audit_trail_fourBytes : ∃ started d' b, start 0 fourBytes .builtin {} = (.ok started, d') ∧
    started.server.audit = .file 0 ∧ d'.content? 0 = some (.bytes b) ∧
    let xs := started.server.exchanges {} d' [(1, post [1, 2, 3, 4, 5]), (2, post [1, 2, 3, 4])]
    ∃ e, (diskAfter d' xs).content? 0 = some (.bytes (b ++ requestLog [(2, e)])) ∧ e.requestBytes = 4 := by
  obtain ⟨started, d', keys, b, hstart, hstore, hfile, hlimit, hb⟩ := start_fourBytes
  refine ⟨started, d', b, hstart, hfile, hb, ?_⟩
  obtain ⟨-, -, events, hlog, htold, -, -⟩ := audit_trail Disk.wellFormed_empty hstart hfile hb
    (keepsApart_memory hstore d') {} [(1, post [1, 2, 3, 4, 5]), (2, post [1, 2, 3, 4])]
  have hlarge : ¬ started.server.Reads (post [1, 2, 3, 4, 5]) := by
    intro h
    have hle := h.2.2
    rw [hlimit] at hle
    exact absurd hle (by decide)
  have hfits : started.server.Reads (post [1, 2, 3, 4]) := by
    refine ⟨by decide +kernel, rfl, ?_⟩
    rw [hlimit]
    decide
  rw [exchanges, exchanges, exchanges, List.filter_cons_of_neg (by simpa using hlarge),
    List.filter_cons_of_pos (by simpa using hfits)] at htold
  obtain ⟨⟨now, e⟩, rest, ⟨hnow, hrequest, -⟩, hrest, rfl⟩ := List.forall₂_cons_left_iff.1 htold
  obtain rfl := List.forall₂_nil_left_iff.1 hrest
  obtain rfl : now = 2 := hnow
  exact ⟨e, hlog, hrequest⟩

end Server

end Gatekeeper
