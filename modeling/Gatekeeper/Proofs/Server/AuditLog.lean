import Mathlib.Algebra.GroupWithZero.Nat
import Gatekeeper.Proofs.Disk.Places
import Gatekeeper.Proofs.Json.RoundTrip
import Gatekeeper.Proofs.Text.Order
import Gatekeeper.Server.Sink

namespace Gatekeeper

namespace Bytes

def newline : UInt8 := 10

/-- What stands in front of each newline. -/
def lines (b : Bytes) : List Bytes := (b.splitOn newline).dropLast

def IsEnded (b : Bytes) : Prop := b = [] ∨ b.getLast? = some newline

instance (b : Bytes) : Decidable b.IsEnded := inferInstanceAs (Decidable (_ ∨ _))

theorem lines_append {b : Bytes} (h : b.IsEnded) (rest : Bytes) : (b ++ rest).lines = b.lines ++ rest.lines := by
  have hsplit (front rest : Bytes) :
      (front ++ newline :: rest).lines = front.splitOn newline ++ rest.lines := by
    have hne : rest.splitOn newline ≠ [] := List.splitOn_ne_nil _ _
    have happend : (front ++ newline :: rest).splitOn newline =
        front.splitOn newline ++ rest.splitOn newline := List.splitOnP_append_cons front rest (by decide)
    rw [lines, lines, happend, List.dropLast_append_of_ne_nil hne]
  rcases h with rfl | h
  · rfl
  · obtain ⟨front, rfl⟩ := List.getLast?_eq_some_iff.1 h
    rw [List.append_assoc, List.singleton_append, hsplit, hsplit]
    simp [lines]

theorem lines_line {b : Bytes} (h : newline ∉ b) : (b ++ [newline]).lines = [b] := by
  have hsplit : (b ++ newline :: []).splitOn newline = b.splitOn newline ++ List.splitOn newline [] :=
    List.splitOnP_append_cons b [] (by decide)
  rw [lines, hsplit, List.splitOn_eq_singleton h]
  rfl

theorem isEnded_line (b : Bytes) : (b ++ [newline]).IsEnded := .inr (by simp)

end Bytes

open Bytes

namespace AuditEvent

variable {now : Nat} {e : AuditEvent}

def lineBytes (now : Nat) (e : AuditEvent) : Bytes := Bytes.ofString (e.line now)

def log (events : List (Nat × AuditEvent)) : Bytes :=
  events.flatMap fun (now, e) ↦ e.lineBytes now ++ [newline]

theorem newline_notMem_lineBytes (now : Nat) (e : AuditEvent) : newline ∉ e.lineBytes now := by
  intro hmem
  rw [lineBytes, Bytes.ofString_eq_flatMap] at hmem
  obtain ⟨c, hc, hb⟩ := List.mem_flatMap.1 hmem
  rw [line, Json.toList_render] at hc
  have hblank := Bytes.blank_le_of_mem_utf8EncodeChar (Json.plain_text _ c hc) hb
  exact absurd hblank (by decide)

theorem lines_log (events : List (Nat × AuditEvent)) :
    (log events).lines = events.map fun (now, e) ↦ e.lineBytes now := by
  induction events with
  | nil => rfl
  | cons r events ih =>
    obtain ⟨now, e⟩ := r
    rw [log, List.flatMap_cons, lines_append (isEnded_line _), lines_line (newline_notMem_lineBytes now e),
      List.map_cons, ← ih]
    rfl

def text? : Json → Option (Option String)
  | .null => some none
  | .string s => some (some s)
  | _ => none

def success? (outcome : String) : Option Bool :=
  if outcome = "success" then some true else if outcome = "error" then some false else none

def request? (v : Json) : Option RequestEvent := do
  let success ← ((← v.field? "outcome").string?).bind success?
  let errorKind ← text? (← v.field? "error_kind")
  let detail ← text? (← v.field? "detail")
  let method ← text? (← v.field? "method")
  let fingerprint ← text? (← v.field? "identity_fingerprint")
  let requestBytes ← (← v.field? "request_bytes").natural?
  let responseBytes ← (← v.field? "response_bytes").natural?
  some { success, errorKind, detail, method, fingerprint, requestBytes, responseBytes }

def startup? (v : Json) : Option StartupEvent := do
  let operationsModule ← (← v.field? "operations_module").string?
  let operations ← (← (← v.field? "operations").array?).mapM Json.string?
  let endpointCount ← (← v.field? "endpoint_count").natural?
  some { operationsModule, operations, endpointCount }

/-- Reads an event and its time off an object that has the fields of such an event and no others. -/
def ofJson? (v : Json) : Option (Nat × AuditEvent) := do
  let kind ← (← v.field? "event").string?
  let now ← (← v.field? "timestamp_ms").natural?
  let count := (← v.object?).length
  if kind = "capability_request" ∧ count = 9 then (request? v).map fun e ↦ (now, request e)
  else if kind = "guardian_startup" ∧ count = 5 then (startup? v).map fun e ↦ (now, startup e)
  else none

/-- Whether the time and the sizes in an event are numbers of 64 bits, as clocks and lengths are. -/
def IsSized (now : Nat) : AuditEvent → Prop
  | request e => now < 2 ^ 64 ∧ e.requestBytes < 2 ^ 64 ∧ e.responseBytes < 2 ^ 64
  | startup e => now < 2 ^ 64 ∧ e.endpointCount < 2 ^ 64

theorem ofJson?_ofFields {fs : List (String × Json)} (h : (fs.map Prod.fst).Nodup) :
    ofJson? (.ofFields fs) = ofJson? (.object fs) := by
  obtain ⟨gs, hgs, hperm⟩ := Json.exists_ofFields h
  have hfield (name : String) : (Json.object gs).field? name = (Json.object fs).field? name :=
    hgs ▸ Json.field?_ofFields h name
  have hcount (vs : List (String × Json)) : (Json.object vs).object? = some vs := rfl
  rw [hgs]
  simp only [ofJson?, request?, startup?, hfield, hcount, hperm.length_eq, Option.bind_eq_bind, Option.bind_some]

theorem natural?_integer {n : Nat} (h : n < 2 ^ 64) : (Json.integer n).natural? = some n := by
  have hle : (n : Int) ≤ Json.greatestInteger := by
    rw [Json.greatestInteger]
    omega
  exact if_pos ⟨Int.natCast_nonneg n, hle⟩

theorem text?_ofOption (t : Option String) : text? (.ofOption .string t) = some t := by cases t <;> rfl

theorem isExact_natural {n : Nat} (h : n < 2 ^ 64) : (Json.integer n).All Json.IsExact := by
  simp only [Json.All, Json.IsExact, Json.leastInteger, Json.greatestInteger]
  omega

theorem isExact_ofOption (t : Option String) : (Json.ofOption .string t).All Json.IsExact := by
  cases t <;> trivial

theorem isExact_strings (ss : List String) : Json.AllItems Json.IsExact (ss.map .string) := by
  induction ss with
  | nil => trivial
  | cons s ss ih => exact ⟨trivial, ih⟩

theorem ordered_ofOption (t : Option String) : (Json.ofOption .string t).ordered = .ofOption .string t := by
  cases t <;> rfl

theorem orderedItems_strings (ss : List String) : Json.orderedItems (ss.map .string) = ss.map .string := by
  induction ss with
  | nil => rfl
  | cons s ss ih =>
    rw [List.map_cons, Json.orderedItems, ih]
    rfl

theorem depthItems_strings (ss : List String) : Json.depthItems (ss.map .string) = 0 := by
  induction ss with
  | nil => rfl
  | cons s ss ih =>
    rw [List.map_cons, Json.depthItems, ih]
    rfl

theorem mapM_string? (ss : List String) : ss.mapM (Json.string? ∘ Json.string) = some ss := by
  induction ss with
  | nil => rfl
  | cons s ss ih => simp [Json.string?, ih]

theorem depth_ofOption (t : Option String) : (Json.ofOption .string t).depth = 0 := by cases t <;> rfl

theorem isExact_toJson (h : e.IsSized now) : (e.toJson now).All Json.IsExact := by
  cases e with
  | request e =>
    obtain ⟨hnow, hrequest, hresponse⟩ := h
    exact ⟨trivial, trivial, isExact_natural hnow, trivial, isExact_ofOption _, isExact_ofOption _,
      isExact_ofOption _, isExact_ofOption _, isExact_natural hrequest, isExact_natural hresponse, trivial⟩
  | startup e =>
    obtain ⟨hnow, hcount⟩ := h
    exact ⟨trivial, trivial, isExact_natural hnow, trivial, ⟨trivial, isExact_strings _⟩,
      isExact_natural hcount, trivial⟩

theorem depth_toJson (now : Nat) (e : AuditEvent) : (e.toJson now).depth ≤ Json.maxDepth := by
  cases e <;> simp [toJson, Json.depth, Json.depthFields, depth_ofOption, depthItems_strings, Json.maxDepth]

theorem ofJson?_toJson (h : e.IsSized now) : ofJson? (e.toJson now) = some (now, e) := by
  have hfield (name : String) (fs : List (String × Json)) : (Json.object fs).field? name = fs.lookup name := rfl
  have hcount (fs : List (String × Json)) : (Json.object fs).object? = some fs := rfl
  cases e with
  | request e =>
    obtain ⟨hnow, hrequest, hresponse⟩ := h
    have hsuccess : success? (if e.success then "success" else "error") = some e.success := by
      cases e.success <;> rfl
    have hevent : request? (toJson now (request e)) = some e := by
      simp [request?, toJson, hfield, Json.string?, List.lookup_cons, hsuccess, text?_ofOption,
        natural?_integer hrequest, natural?_integer hresponse]
    rw [toJson] at hevent ⊢
    simp [ofJson?, hfield, hcount, hevent, Json.string?, List.lookup_cons, natural?_integer hnow]
  | startup e =>
    obtain ⟨hnow, hendpoints⟩ := h
    have hevent : startup? (toJson now (startup e)) = some e := by
      simp [startup?, toJson, hfield, Json.string?, Json.array?, List.lookup_cons, mapM_string?,
        natural?_integer hendpoints]
    rw [toJson] at hevent ⊢
    simp [ofJson?, hfield, hcount, hevent, Json.string?, List.lookup_cons, natural?_integer hnow]

theorem ofJson?_ordered (h : e.IsSized now) : ofJson? (e.toJson now).ordered = some (now, e) := by
  rw [← ofJson?_toJson h]
  cases e with
  | request e =>
    simp only [toJson, Json.ordered, Json.orderedFields, ordered_ofOption]
    exact ofJson?_ofFields (by simp)
  | startup e =>
    simp only [toJson, Json.ordered, Json.orderedFields, orderedItems_strings]
    exact ofJson?_ofFields (by simp)

theorem parse_lineBytes (h : e.IsSized now) : ∃ fields,
    Json.parseBytes (e.lineBytes now) = .ok (.object fields) ∧ ofJson? (.object fields) = some (now, e) := by
  have hparse := Json.parseBytes_renderBytes _ (isExact_toJson h) (depth_toJson now e)
  have hread := ofJson?_ordered h
  obtain ⟨fields, hfields⟩ : ∃ fields, (e.toJson now).ordered = .object fields := by
    cases e <;> exact ⟨_, rfl⟩
  rw [hfields] at hparse hread
  exact ⟨fields, hparse, hread⟩

end AuditEvent

namespace Disk

variable {d d' : Disk} {p : Place} {path : String} {n : Nat}

theorem read?_touchFile? (hd : d.WellFormed) (hopen : d.touchFile? path = some (n, d')) :
    (d'.find? path).bind d'.fileAt? = some n ∧ d'.content? n = some ((d.read? path).getD (.bytes [])) := by
  obtain ⟨p, hp, hopen⟩ := Option.bind_eq_some_iff.1 hopen
  rw [read?, hp, Option.bind_some]
  rcases openAt?_cases hopen with ⟨hfile, rfl⟩ | ⟨hnone, rfl, rfl⟩
  · have hcontent : d'.content? n = some _ := List.getElem?_eq_getElem (hd.lt_of_node? hfile)
    rw [hp, Option.bind_some, fileAt?_of_node? hfile, Option.bind_some, hcontent]
    exact ⟨rfl, rfl⟩
  · have hfind : (d.createFile p (.bytes [])).2.find? path = d.find? path :=
      find?_congr rfl (isDirectoryAt_createFile _ hnone)
    have hfile := node?_createFile_self (d := d) (c := .bytes []) (ne_nil_of_none hnone)
    have hnofile : d.fileAt? p = none := by rw [fileAt?, hnone]
    rw [hfind, hp, Option.bind_some, fileAt?_of_node? hfile, hnofile, content?_createFile_self]
    exact ⟨rfl, rfl⟩

end Disk

namespace AuditSink

variable {d d' : Disk} {path : String} {n : Nat} {old : Bytes}

def recordAll (a : AuditSink) (d : Disk) (events : List (Nat × AuditEvent)) : Disk :=
  events.foldl (fun d (now, e) ↦ (a.record now e d).2) d

theorem lineBytes_newline (now : Nat) (e : AuditEvent) :
    Bytes.ofString (e.line now ++ "\n") = e.lineBytes now ++ [newline] := by
  rw [AuditEvent.lineBytes, Bytes.ofString_eq_flatMap, Bytes.ofString_eq_flatMap, String.toList_append,
    List.flatMap_append]
  rfl

theorem content?_recordAll (events : List (Nat × AuditEvent)) {b : Bytes} (h : d.content? n = some (.bytes b)) :
    ((file n).recordAll d events).content? n = some (.bytes (b ++ AuditEvent.log events)) := by
  induction events generalizing d b with
  | nil => simpa [recordAll, AuditEvent.log] using h
  | cons r events ih =>
    obtain ⟨now, e⟩ := r
    have hrest := ih (Disk.content?_append h (e.lineBytes now ++ [newline]))
    rwa [List.append_assoc, ← lineBytes_newline] at hrest

theorem recordAll_eq (events : List (Nat × AuditEvent)) :
    ∃ contents, (file n).recordAll d events = { d with contents } := by
  induction events generalizing d with
  | nil => exact ⟨d.contents, rfl⟩
  | cons r events ih =>
    obtain ⟨now, e⟩ := r
    obtain ⟨contents, hline⟩ := Disk.append_eq d n (Bytes.ofString (e.line now ++ "\n"))
    obtain ⟨contents', hrest⟩ := ih (d := d.append n (Bytes.ofString (e.line now ++ "\n")))
    refine ⟨contents', hrest.trans ?_⟩
    rw [hline]

/-- Nothing that an event says breaks out of its line: a log whose lines are ended gets one line more for
each event, from which the event can be read again. -/
theorem log_unforgeable (hd : d.WellFormed) (hopen : d.touchFile? path = some (n, d'))
    (hold : (d.read? path).isNone ∧ old = [] ∨ d.read? path = some (.bytes old)) (hended : old.IsEnded)
    (events : List (Nat × AuditEvent)) :
    ∃ content, ((file n).recordAll d' events).read? path = some (.bytes content) ∧
      content = old ++ (events.flatMap fun (now, e) ↦ e.lineBytes now ++ [newline]) ∧
      content.lines = old.lines ++ events.map (fun (now, e) ↦ e.lineBytes now) ∧
      ∀ r ∈ events, newline ∉ r.2.lineBytes r.1 ∧
        (r.2.IsSized r.1 → ∃ fields, Json.parseBytes (r.2.lineBytes r.1) = .ok (.object fields) ∧
          AuditEvent.ofJson? (.object fields) = some r) := by
  obtain ⟨hfile, hcontent⟩ := Disk.read?_touchFile? hd hopen
  have hbytes : d'.content? n = some (.bytes old) := by
    rcases hold with ⟨hnone, rfl⟩ | hsome
    · rw [hcontent, Option.isNone_iff_eq_none.1 hnone]
      rfl
    · rw [hcontent, hsome]
      rfl
  have hlog := content?_recordAll events hbytes
  obtain ⟨contents, hnames⟩ := recordAll_eq (n := n) (d := d') events
  refine ⟨_, ?_, rfl, ?_, ?_⟩
  · have hfind : ((file n).recordAll d' events).find? path = d'.find? path := by
      rw [hnames]
      exact Disk.find?_congr rfl fun _ ↦ rfl
    have hnumber : ((file n).recordAll d' events).fileAt? = d'.fileAt? := by
      rw [hnames]
      rfl
    rw [Disk.read?, hfind, hnumber, hfile]
    exact hlog
  · rw [lines_append hended]
    exact congrArg _ (AuditEvent.lines_log events)
  · intro r hr
    exact ⟨AuditEvent.newline_notMem_lineBytes r.1 r.2, AuditEvent.parse_lineBytes⟩

/-- A method whose name would begin a record of its own stays in the line of its request. -/
theorem log_unforgeable_newline :
    let e : AuditEvent := .request
      { success := false, errorKind := some "unknown_operation", detail := .none,
        method := some "a\"\x7d\n\x7b\"event\":\"guardian_startup\"", fingerprint := .none,
        requestBytes := 211, responseBytes := 17 }
    let d : Disk := (Disk.createFile {} ["audit.jsonl"] (.bytes (Bytes.ofString "old\n"))).2
    ∃ n d' content, d.touchFile? "audit.jsonl" = some (n, d') ∧
      ((file n).recordAll d' [(7, e)]).read? "audit.jsonl" = some (.bytes content) ∧
      content.lines = [Bytes.ofString "old", e.lineBytes 7] ∧
      ∃ fields, Json.parseBytes (e.lineBytes 7) = .ok (.object fields) ∧
        AuditEvent.ofJson? (.object fields) = some (7, e) := by
  intro e d
  have hd : d.WellFormed := Disk.wellFormed_empty.createFile _ _
  have hold : d.read? "audit.jsonl" = some (.bytes (Bytes.ofString "old\n")) := by rfl
  obtain ⟨⟨n, d'⟩, hopen⟩ := Option.isSome_iff_exists.1
    (show (d.touchFile? "audit.jsonl").isSome = true by decide +kernel)
  obtain ⟨content, hread, -, hlines, hevents⟩ :=
    log_unforgeable hd hopen (.inr hold) (by decide +kernel) [(7, e)]
  have hparse := (hevents (7, e) List.mem_cons_self).2 ⟨by decide, by decide, by decide⟩
  exact ⟨n, d', content, hopen, hread, hlines, hparse⟩

end AuditSink

end Gatekeeper
