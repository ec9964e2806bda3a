import Gatekeeper.Proofs.Dispatch.Asking
import Gatekeeper.Proofs.Dispatch.Audited
import Gatekeeper.Proofs.Dispatch.Sealed
import Gatekeeper.Proofs.Server.AuditTrail

namespace Gatekeeper

variable {σ τ : Type}

namespace Dispatcher

theorem calls_recorded (d : Dispatcher σ) (lookup : Lookup) (channel : Channel) (body : Bytes) (s : σ)
    (calls : List Call) : (d.recorded.dispatch lookup channel body (s, calls)).state.2 =
      calls ++ (d.dispatch lookup channel body s).trace.invoked.toList := by
  rw [dispatch_eq, dispatch_eq]
  split
  · exact (List.append_nil calls).symm
  · dsimp only
    split
    · exact (List.append_nil calls).symm
    · split
      · exact (List.append_nil calls).symm
      next o _ =>
        simp only [perform, recorded, Catalog.get?_map]
        cases d.handlers.get? o.method with
        | none => exact (List.append_nil calls).symm
        | some h => rfl

end Dispatcher

namespace Http

theorem readBody_of_brokenOff {limit : Nat} {chunks : List Bytes} (h : chunks.flatten.length ≤ limit) :
    readBody limit true chunks = .error .unreadable := by
  induction chunks generalizing limit with
  | nil => rfl
  | cons chunk chunks ih =>
    rw [List.flatten_cons, List.length_append] at h
    rw [readBody, if_neg (by omega), ih (by omega)]
    rfl

end Http

namespace Http.Response

def text (status : Nat) (message : String) : Response where
  status
  headers := [("content-type", "text/plain; charset=utf-8"), ("content-length", toString message.utf8ByteSize)]
  body := Bytes.ofString message

/-- Whether the length that is announced, once, is that of the body. -/
def IsMeasured (r : Response) : Prop :=
  r.headers.filter (·.1 == "content-length") = [("content-length", toString r.body.length)]

theorem isMeasured_text (status : Nat) (message : String) : (text status message).IsMeasured := rfl

end Http.Response

structure Server.Sends (answer : Response) (sent : Http.Response) : Prop where
  success : ∀ bytes, answer = .success bytes → sent = ⟨200, [("content-type", "application/octet-stream"),
    ("content-transfer-encoding", "utf-8"), ("content-length", toString bytes.length)], bytes⟩
  failure : ∀ refusal, answer = .failure refusal → sent = .text 400 refusal.publicMessage
  unpack : ∀ detail, answer = .failure (.unpack detail) →
    sent = .text 400 "unknown exception while unpacking request"
  exception : ∀ detail, answer = .failure (.operationException detail) →
    sent = .text 400 "unknown exception while performing operation"
  unknown : ∀ name, answer = .failure (.unknownOperation name) → sent.headers.lookup "content-length" =
    some (toString (19 + name.utf8ByteSize)) ∧
      sent.body = Bytes.ofString "unknown operation: " ++ Bytes.ofString name

theorem Server.sends_frame (answer : Response) : Sends answer (frame answer) where
  success := by
    rintro bytes rfl
    rfl
  failure := by
    rintro refusal rfl
    rfl
  unpack := by
    rintro detail rfl
    rfl
  exception := by
    rintro detail rfl
    rfl
  unknown := by
    rintro name rfl
    refine ⟨?_, ?_⟩
    · change some (toString (("unknown operation: " ++ name).utf8ByteSize)) = _
      rw [String.utf8ByteSize_append]
      rfl
    · change Bytes.ofString ("unknown operation: " ++ name) = _
      simp only [Bytes.ofString_eq_flatMap, String.toList_append, List.flatMap_append]

theorem Server.isMeasured_frame (answer : Response) : (frame answer).IsMeasured := by
  cases answer with
  | success bytes => rfl
  | failure refusal => rfl

namespace Server

/-- The bodies that were handed to the dispatcher, the identities that the store was asked for, and the calls of
handlers. -/
structure Doings where
  handled : List Bytes := []
  asked : List Identity := []
  called : List Call := []

instance : Append Doings := ⟨fun x y ↦ ⟨x.handled ++ y.handled, x.asked ++ y.asked, x.called ++ y.called⟩⟩

/-- Processes a body and writes down that it does, each question to the store and each call of a handler. -/
def processRecorded (s : Server σ) (now : Nat) (body : Bytes) (state : σ × Doings) (d : Disk) :
    Reply (σ × Doings) :=
  let recorder : Server (σ × List Call) := { s with dispatcher := s.dispatcher.recorded }
  let (reply, _, asked) := recorder.processAsking (Ask.recorded s.store.ask) Prod.fst now body
    (state.1, state.2.called) (d, state.2.asked)
  { reply with state := (reply.state.1, ⟨state.2.handled ++ [body], asked, reply.state.2⟩) }

def answerRecorded (s : Server σ) (now : Nat) : Http.Request → σ × Doings → Disk → Reply (σ × Doings) :=
  s.answerWith (s.processRecorded now)

def Reply.bare (reply : Reply (σ × Doings)) : Reply σ := { reply with state := reply.state.1 }

def processed (s : Server σ) (body : Bytes) (state : σ) (d : Disk) : Doings :=
  let trace := (s.dispatcher.dispatch (s.store.lookup d) (fun k e ↦ e.unpack k) body state).trace
  ⟨[body], trace.consulted.toList, trace.invoked.toList⟩

theorem processRecorded_eq (s : Server σ) (now : Nat) (body : Bytes) (state : σ) (seen : Doings) (d : Disk) :
    s.processRecorded now body (state, seen) d =
      { s.process now body state d with
        state := ((s.process now body state d).state, seen ++ s.processed body state d) } := by
  let recorder : Server (σ × List Call) := { s with dispatcher := s.dispatcher.recorded }
  obtain ⟨hresponse, htrace, hstate⟩ :=
    s.dispatcher.dispatch_recorded (s.store.lookup d) (fun k e ↦ e.unpack k) body state seen.called
  have hcalls := s.dispatcher.calls_recorded (s.store.lookup d) (fun k e ↦ e.unpack k) body state seen.called
  have hasked := s.dispatcher.consulted_eq (s.store.lookup d) (fun k e ↦ e.unpack k) body state
  have hrecorder := recorder.processAsking_eq (Ask.recorded s.store.ask) Prod.fst now body (state, seen.called)
    (d, seen.asked)
  have hlookup : (fun i ↦ (Ask.recorded s.store.ask i (d, seen.asked)).1) = s.store.lookup d := rfl
  rw [hlookup, Ask.after_recorded, Request.identityIn?_eq, ← hasked] at hrecorder
  rw [processRecorded, hrecorder, process_eq]
  simp only [recorder, hresponse, htrace, hstate, hcalls]
  rfl

/-- The record changes nothing, and grows by what is done with the body if it is read. -/
theorem answerRecorded_eq (s : Server σ) (now : Nat) (r : Http.Request) (state : σ) (seen : Doings) (d : Disk) :
    s.answerRecorded now r (state, seen) d = { s.answer now r state d with
      state := ((s.answer now r state d).state,
        if s.Reads r then seen ++ s.processed r.chunks.flatten state d else seen) } := by
  rw [answer, answerRecorded]
  by_cases hreads : s.Reads r
  · obtain ⟨hposts, hwhole, hle⟩ := hreads
    have hread := Http.readBody_eq_ok_iff.2 ⟨hwhole, hle, rfl⟩
    rw [if_pos ⟨hposts, hwhole, hle⟩, answerWith_of_body hposts hread, answerWith_of_body hposts hread,
      processRecorded_eq]
  · obtain ⟨response, hquiet⟩ := answerWith_of_not_reads hreads
    rw [if_neg hreads, hquiet, hquiet]

/-- A body that is posted is refused for its length and nothing is touched, or it breaks off before it is there, or it
is handed to the dispatcher once and as it was cut, and what the dispatcher answers is sent. -/
theorem post_refines_dispatch (s : Server σ) (now : Nat) {r : Http.Request} (hposts : r.PostsCapability) (state : σ)
    (seen : Doings) (d : Disk) :
    let body := r.chunks.flatten
    let done := (s.dispatcher.handle (s.store.lookup d) (fun k e ↦ e.unpack k) body state).1
    let reply := s.answerRecorded now r (state, seen) d
    reply.bare = s.answer now r state d ∧ reply.response.IsMeasured ∧
    (s.maxBodyBytes < body.length →
      reply = { response := .text 413 "request body too large", state := (state, seen), disk := d }) ∧
    (body.length ≤ s.maxBodyBytes → r.brokenOff = true →
      reply = { response := .text 400 "failed to read request body", state := (state, seen), disk := d }) ∧
    (body.length ≤ s.maxBodyBytes → r.brokenOff = false → Sends done.response reply.response ∧
      reply.state = (done.state, ⟨seen.handled ++ [body], seen.asked ++ done.trace.consulted.toList,
        seen.called ++ done.trace.invoked.toList⟩)) := by
  intro body done reply
  have hbare : reply.bare = s.answer now r state d := by
    change (s.answerRecorded now r (state, seen) d).bare = _
    rw [answerRecorded_eq]
    rfl
  have hlarge (h : s.maxBodyBytes < body.length) :
      reply = { response := .text 413 "request body too large", state := (state, seen), disk := d } :=
    answerWith_of_fault hposts (Http.readBody_of_tooLarge h)
  have hbroken (h : body.length ≤ s.maxBodyBytes) (hoff : r.brokenOff = true) :
      reply = { response := .text 400 "failed to read request body", state := (state, seen), disk := d } := by
    have hread : Http.readBody s.maxBodyBytes r.brokenOff r.chunks = .error .unreadable := by
      rw [hoff]
      exact Http.readBody_of_brokenOff h
    exact answerWith_of_fault hposts hread
  have hread (h : body.length ≤ s.maxBodyBytes) (hwhole : r.brokenOff = false) :
      reply.response = frame done.response ∧
      reply.state = (done.state, seen ++ s.processed body state d) := by
    have hreply : reply = s.processRecorded now body (state, seen) d :=
      answerWith_of_body hposts (Http.readBody_eq_ok_iff.2 ⟨hwhole, h, rfl⟩)
    rw [hreply, processRecorded_eq, process_eq]
    exact ⟨rfl, rfl⟩
  refine ⟨hbare, ?_, hlarge, hbroken, fun h hwhole ↦ ⟨?_, (hread h hwhole).2⟩⟩
  · rcases Nat.lt_or_ge s.maxBodyBytes body.length with h | h
    · rw [hlarge h]
      exact Http.Response.isMeasured_text _ _
    · cases hwhole : r.brokenOff with
      | true =>
        rw [hbroken h hwhole]
        exact Http.Response.isMeasured_text _ _
      | false =>
        rw [(hread h hwhole).1]
        exact isMeasured_frame _
  · rw [(hread h hwhole).1]
    exact sends_frame _

theorem postsCapability_post (b : Bytes) : (post b).PostsCapability := by
  have hpath : (post []).path = "/process_capability" := by decide +kernel
  refine ⟨?_, rfl⟩
  dsimp only [Http.Request.path, post] at hpath ⊢
  exact hpath

/-- A body with an operation that there is none of, whose name takes more bytes than characters, is as long as the
limit; with a blank behind it, it is too long. -/
theorem post_refines_dispatch_unknown : ∃ (s : Server Unit) (body : Bytes), s.maxBodyBytes = body.length ∧
    s.answerRecorded 0 (post (body ++ [0x20])) ((), {}) {} =
      { response := .text 413 "request body too large", state := ((), {}), disk := {} } ∧
    (s.answerRecorded 0 (post body) ((), {}) {}).response = .text 400 "unknown operation: größe" ∧
    (s.answerRecorded 0 (post body) ((), {}) {}).response.headers =
      [("content-type", "text/plain; charset=utf-8"), ("content-length", "26")] ∧
    (s.answerRecorded 0 (post body) ((), {}) {}).state = ((), ⟨[body], [⟨"a"⟩], []⟩) := by
  let k : Key := ⟨List.replicate 32 7, rfl⟩
  let f : Freshness := ⟨k, List.replicate 12 1, List.replicate 12 2, rfl, rfl⟩
  let o : Operation := ⟨none, "größe", []⟩
  let document : Json := .object [("method_name", .string o.method), ("parameters", .object [])]
  have hdocument : document.Portable := by
    refine ⟨by simp [document, Json.All, Json.AllFields, Json.IsExact], ?_, by decide⟩
    simp only [document, Json.All, Json.AllFields, Json.isOrdered_object, List.map]
    simp only [Json.IsOrdered, true_and, and_true]
    decide
  have ho : o.WrittenIn document := ⟨rfl, rfl, rfl⟩
  obtain ⟨e, he⟩ : ∃ e, Envelope.pack k f document = .ok e := Envelope.exists_pack k f (by decide +kernel)
  let body : Bytes := (Request.toSortedJson ⟨⟨"a"⟩, e⟩).renderBytes
  let s : Server Unit := ⟨⟨.v4 127 0 0 1, 0⟩, body.length, ⟨"basic", ∅, .empty⟩,
    .memory ⟨KeyStore.empty.keys.insert "a" k⟩, .none⟩
  have hdispatch : s.dispatcher.dispatch (s.store.lookup {}) (fun k e ↦ e.unpack k) body () =
      ⟨.failure (.unknownOperation "größe"), { consulted := some ⟨"a"⟩, method := some "größe" }, ()⟩ := by
    have hmade : (⟨⟨"a"⟩, e⟩ : Request).MadeBy body := Request.madeBy_of_isTextOf (.inr rfl)
    rw [s.dispatcher.dispatch_of_sealed () hmade rfl he hdocument ho]
    rfl
  have hone (b : Bytes) : (post b).chunks.flatten = b := List.append_nil b
  obtain ⟨-, -, hlarge, -, -⟩ := post_refines_dispatch s 0 (postsCapability_post (body ++ [0x20])) () {} {}
  obtain ⟨-, -, -, -, hread⟩ := post_refines_dispatch s 0 (postsCapability_post body) () {} {}
  rw [hone] at hlarge hread
  obtain ⟨hsends, hstate⟩ := hread (Nat.le_refl body.length) rfl
  simp only [Dispatcher.handle_eq, hdispatch] at hsends hstate
  have hresponse := hsends.failure _ rfl
  refine ⟨s, body, rfl, hlarge ?_, hresponse, ?_, hstate⟩
  · rw [List.length_append]
    exact Nat.lt_succ_self _
  · rw [hresponse]
    rfl

def runRecorded (s : Server σ) : List (Nat × Http.Request) → σ × Doings → Disk → (σ × Doings) × Disk
  | [], t, d => (t, d)
  | (now, r) :: rest, t, d =>
    let reply := s.answerRecorded now r t d
    s.runRecorded rest reply.state reply.disk

def bodiesRead (s : Server σ) (requests : List (Nat × Http.Request)) : List Bytes :=
  (requests.filter (s.Reads ·.2)).map (·.2.chunks.flatten)

theorem asked_processed (s : Server σ) (body : Bytes) (state : σ) (d : Disk) :
    (s.processed body state d).asked = (Request.identityIn? body).toList := by
  rw [Request.identityIn?_eq, ← s.dispatcher.consulted_eq (s.store.lookup d) (fun k e ↦ e.unpack k) body state]
  rfl

theorem length_called_processed (s : Server σ) (body : Bytes) (state : σ) (d : Disk) :
    (s.processed body state d).called.length ≤ 1 := by
  change (Option.toList _).length ≤ 1
  cases (s.dispatcher.dispatch (s.store.lookup d) (fun k e ↦ e.unpack k) body state).trace.invoked <;> simp

/-- Over any run the dispatcher is handed the bodies that are read and no others, each once, and the store is asked
for the identities in them; there is no call of a handler without a body. -/
theorem run_hands_over (s : Server σ) (requests : List (Nat × Http.Request)) (state : σ) (seen : Doings) (d : Disk) :
    (s.runRecorded requests (state, seen) d).2 = diskAfter d (s.exchanges state d requests) ∧
    (s.runRecorded requests (state, seen) d).1.2.handled = seen.handled ++ s.bodiesRead requests ∧
    (s.runRecorded requests (state, seen) d).1.2.asked =
      seen.asked ++ (s.bodiesRead requests).filterMap Request.identityIn? ∧
    (s.runRecorded requests (state, seen) d).1.2.called.length ≤
      seen.called.length + (s.bodiesRead requests).length := by
  induction requests generalizing state seen d with
  | nil => simp [runRecorded, bodiesRead, exchanges, diskAfter]
  | cons request requests ih =>
    obtain ⟨now, r⟩ := request
    have hstep := s.answerRecorded_eq now r state seen d
    simp only [runRecorded, hstep]
    by_cases hreads : s.Reads r
    · have hbodies : s.bodiesRead ((now, r) :: requests) = r.chunks.flatten :: s.bodiesRead requests := by
        rw [bodiesRead, List.filter_cons_of_pos (by simpa using hreads)]
        rfl
      obtain ⟨hdisk, hhandled, hasked, hcalled⟩ := ih (s.answer now r state d).state
        (seen ++ s.processed r.chunks.flatten state d) (s.answer now r state d).disk
      rw [if_pos hreads, hbodies]
      refine ⟨hdisk, ?_, ?_, ?_⟩
      · rw [hhandled]
        exact List.append_assoc _ _ _
      · rw [hasked]
        change (seen.asked ++ (s.processed _ state d).asked) ++ _ = _
        rw [asked_processed, List.append_assoc, List.filterMap_cons]
        cases Request.identityIn? r.chunks.flatten <;> rfl
      · have hone := s.length_called_processed r.chunks.flatten state d
        have hlength : (seen ++ s.processed r.chunks.flatten state d).called.length =
          seen.called.length + (s.processed r.chunks.flatten state d).called.length := List.length_append
        rw [List.length_cons]
        omega
    · have hbodies : s.bodiesRead ((now, r) :: requests) = s.bodiesRead requests := by
        rw [bodiesRead, List.filter_cons_of_neg (by simpa using hreads)]
        rfl
      rw [if_neg hreads, hbodies]
      exact ih _ _ _

end Server

end Gatekeeper
