import Mathlib.Algebra.GroupWithZero.Nat
import Gatekeeper.Proofs.Dispatch.Sealed
import Gatekeeper.Proofs.Server.Lookups

namespace Gatekeeper

namespace Operation.Counter

variable {settings : HandlerSettings} {p : Parameters} {c : Counter} {limit n : Nat}

/-- The parameters ask for a step: one if they give none, or a positive integer of 64 bits. -/
def StepOf (p : Parameters) (n : Nat) : Prop :=
  (p.lookup "by" = none ∧ n = 1) ∨
    (p.lookup "by" = some (.integer n) ∧ 1 ≤ n ∧ n ≤ 18446744073709551615)

/-- The settings set a limit: the greatest integer of 64 bits, or an integer that they give. -/
def LimitOf (settings : HandlerSettings) (limit : Nat) : Prop :=
  (settings.lookup "counter_limit" = none ∧ limit = 18446744073709551615) ∨
    (settings.lookup "counter_limit" = some (.integer limit) ∧ limit ≤ 18446744073709551615)

def valueText (n : Nat) : Bytes := Bytes.ofString ("\x7b\"value\":" ++ toString n ++ "\x7d")

theorem renderBytes_valueOf (n : Nat) : (valueOf n).renderBytes = valueText n := by
  have hrender : (valueOf n).render.toList = ("\x7b\"value\":" ++ toString n ++ "\x7d").toList := by
    simp [Json.toList_render, valueOf, Json.text, Json.fieldsText, Json.integerText, Json.quoted,
      Json.escapeChar, Nat.repr]
  exact congrArg Bytes.ofString (String.toList_inj.1 hrender)

theorem natural?_eq_some_iff {v : Json} :
    v.natural? = some n ↔ v = .integer n ∧ n ≤ 18446744073709551615 := by
  cases v with
  | integer m =>
    have hgreatest : Json.greatestInteger = 18446744073709551615 := rfl
    by_cases h : 0 ≤ m ∧ m ≤ Json.greatestInteger
    · rw [Json.natural?, if_pos h, Option.some.injEq, Json.integer.injEq]
      omega
    · rw [Json.natural?, if_neg h, Json.integer.injEq]
      simp only [reduceCtorEq, false_iff]
      omega
  | _ => simp [Json.natural?]

theorem step?_eq_some_iff : step? p = some n ↔ StepOf p n := by
  unfold step? StepOf
  cases p.lookup "by" with
  | none => simp [eq_comm]
  | some v =>
    simp only [Option.filter_eq_some_iff, natural?_eq_some_iff, decide_eq_true_eq, reduceCtorEq, false_and,
      false_or, Option.some.injEq]
    constructor
    · rintro ⟨⟨hv, hle⟩, hpos⟩
      exact ⟨hv, hpos, hle⟩
    · rintro ⟨hv, hpos, hle⟩
      exact ⟨⟨hv, hle⟩, hpos⟩

theorem limitOf_of_limit? {limit? : Option Nat} (h : Counter.limit? settings = .ok limit?) :
    LimitOf settings (limit?.getD greatest) := by
  unfold Counter.limit? at h
  unfold LimitOf
  split at h
  next hnone =>
    cases h
    exact .inl ⟨hnone, rfl⟩
  next v hsome =>
    split at h
    next m hm =>
      cases h
      obtain ⟨rfl, hle⟩ := natural?_eq_some_iff.1 hm
      exact .inr ⟨hsome, hle⟩
    · cases h

theorem LimitOf.le (h : LimitOf settings limit) : limit ≤ 18446744073709551615 := by
  rcases h with ⟨-, rfl⟩ | ⟨-, h⟩
  · exact Nat.le_refl _
  · exact h

theorem increment_of_le {limit? : Option Nat} (hn : StepOf p n)
    (h : c.value + n ≤ min greatest (limit?.getD greatest)) :
    increment limit? p c = (.value (valueOf (c.value + n)), ⟨c.value + n⟩) := by
  simp only [increment, step?_eq_some_iff.2 hn, if_pos h]

theorem increment_of_lt {limit? : Option Nat}
    (h : ∀ n, StepOf p n → min greatest (limit?.getD greatest) < c.value + n) :
    ∃ e, increment limit? p c = (.error e, c) := by
  unfold increment
  cases hs : step? p with
  | none => exact ⟨_, rfl⟩
  | some n =>
    have hlt := h n (step?_eq_some_iff.1 hs)
    exact ⟨_, if_neg (Nat.not_le.2 hlt)⟩

theorem get?_builtin : ModuleRegistry.builtin.get? moduleName = some operationModule := by
  simp [ModuleRegistry.builtin, ModuleRegistry.get?, ModuleRegistry.ofModules, Catalog.ofList,
    Catalog.get?_insert, operationModule, OperationModule.withOperation]

def stepOf (p : Parameters) : Nat :=
  match p.lookup "by" with
  | some (.integer n) => n.toNat
  | _ => 1

theorem stepOf_eq (h : StepOf p n) : stepOf p = n := by
  rcases h with ⟨hnone, rfl⟩ | ⟨hsome, -⟩
  · rw [stepOf, hnone]
  · rw [stepOf, hsome]
    rfl

def Increments (v : Visit Counter) : Prop :=
  ∃ o, v.arrival.Asks o ∧ o.method = "inc_value" ∧ ¬ v.Fails

/-- What a visit adds to the counter: its step, if it asks for an increment and does not fail. -/
def counted (v : Visit Counter) : Nat :=
  match v.arrival.operation? with
  | none => 0
  | some o => if o.method = "inc_value" ∧ v.response.isSuccess then stepOf o.parameters else 0

variable {v : Visit Counter} {o : Operation}

theorem counted_of_fails (h : v.Fails) : counted v = 0 := by
  have hfails : v.response.isSuccess = false := h
  unfold counted
  split
  · rfl
  · simp [hfails]

inductive Entry (limit : Nat) (v : Visit Counter) : Prop
  | stepped (o : Operation) (n : Nat) (hasks : v.arrival.Asks o) (hmethod : o.method = "inc_value")
      (hstep : StepOf o.parameters n) (hle : v.before.value + n ≤ limit)
      (hresponse : v.response = .success (valueText (v.before.value + n)))
      (hafter : v.after = ⟨v.before.value + n⟩)
  | told (o : Operation) (hasks : v.arrival.Asks o) (hmethod : o.method = "get_value")
      (hresponse : v.response = .success (valueText v.before.value)) (hafter : v.after = v.before)
  | failed (hfails : v.Fails) (hafter : v.after = v.before)
      (hasks : ∀ o, v.arrival.Asks o → o.method = "inc_value" →
        ∀ n, StepOf o.parameters n → limit < v.before.value + n)

theorem Entry.after_value {limit : Nat} (h : Entry limit v) :
    v.after.value = v.before.value + counted v := by
  cases h with
  | stepped o n hasks hmethod hstep hle hresponse hafter =>
    have hcounted : counted v = n := by
      rw [counted, Arrival.operation?_eq_some_iff.2 hasks]
      simp [hmethod, hresponse, Response.isSuccess, stepOf_eq hstep]
    rw [hafter, hcounted]
  | told o hasks hmethod hresponse hafter =>
    have hcounted : counted v = 0 := by
      rw [counted, Arrival.operation?_eq_some_iff.2 hasks]
      simp [hmethod]
    rw [hafter, hcounted, Nat.add_zero]
  | failed hfails hafter hasks => rw [hafter, counted_of_fails hfails, Nat.add_zero]

theorem Entry.after_le {limit : Nat} (h : Entry limit v) (hbefore : v.before.value ≤ limit) :
    v.after.value ≤ limit := by
  cases h with
  | stepped o n hasks hmethod hstep hle hresponse hafter =>
    rw [hafter]
    exact hle
  | told o hasks hmethod hresponse hafter => exact hafter ▸ hbefore
  | failed hfails hafter hasks => exact hafter ▸ hbefore

theorem Entry.after_of_fails {limit : Nat} (h : Entry limit v) (hfails : v.Fails) : v.after = v.before := by
  cases h with
  | stepped o n hasks hmethod hstep hle hresponse hafter =>
    simp [Visit.Fails, hresponse, Response.isSuccess] at hfails
  | told o hasks hmethod hresponse hafter => exact hafter
  | failed hfails' hafter hasks => exact hafter

theorem Entry.of_increments {limit : Nat} (h : Entry limit v) (hv : Increments v) :
    v.response = .success (valueText v.after.value) ∧ v.before.value < v.after.value := by
  obtain ⟨o, hasks, hmethod, hsuccess⟩ := hv
  cases h with
  | stepped o' n hasks' hmethod' hstep hle hresponse hafter =>
    have hpos : 1 ≤ n := by
      rcases hstep with ⟨-, hone⟩ | ⟨-, hpos, -⟩
      · exact Nat.le_of_eq hone.symm
      · exact hpos
    rw [hafter]
    exact ⟨hresponse, Nat.lt_add_of_pos_right hpos⟩
  | told o' hasks' hmethod' hresponse hafter =>
    rw [hasks.unique hasks', hmethod'] at hmethod
    exact absurd hmethod (by decide)
  | failed hfails hafter hasks' => exact absurd hfails hsuccess

theorem Entry.not_fails_iff {limit : Nat} (h : Entry limit v) (hasks : v.arrival.Asks o)
    (hmethod : o.method = "inc_value") :
    ¬ v.Fails ↔ ∃ n, StepOf o.parameters n ∧ v.before.value + n ≤ limit := by
  cases h with
  | stepped o' n hasks' hmethod' hstep hle hresponse hafter =>
    obtain rfl := hasks.unique hasks'
    have hsuccess : ¬ v.Fails := by simp [Visit.Fails, hresponse, Response.isSuccess]
    exact ⟨fun _ ↦ ⟨n, hstep, hle⟩, fun _ ↦ hsuccess⟩
  | told o' hasks' hmethod' hresponse hafter =>
    rw [hasks.unique hasks', hmethod'] at hmethod
    exact absurd hmethod (by decide)
  | failed hfails hafter hasks' =>
    refine ⟨fun hsuccess ↦ absurd hfails hsuccess, ?_⟩
    rintro ⟨n, hn, hle⟩
    exact absurd hle (Nat.not_le.2 (hasks' o hasks hmethod n hn))

section

variable {d : Dispatcher Counter} {trace : Trace} {a : Arrival}

theorem entry_of_query (hasks : a.Asks o) (hmethod : o.method = "get_value")
    (hget : d.handlers.get? o.method = some current) : Entry limit (d.visit c a) := by
  obtain ⟨trace, hdone⟩ := d.visit_of_asks c hasks
  rw [d.perform_of_some trace c hget] at hdone
  have hresponse := congrArg Dispatched.response hdone
  refine .told o hasks hmethod ?_ (congrArg Dispatched.state hdone)
  rw [← renderBytes_valueOf]
  exact hresponse

theorem entry_of_increment {limit? : Option Nat} (hasks : a.Asks o) (hmethod : o.method = "inc_value")
    (hget : d.handlers.get? o.method = some (increment limit?)) :
    Entry (min greatest (limit?.getD greatest)) (d.visit c a) := by
  obtain ⟨trace, hdone⟩ := d.visit_of_asks c hasks
  rw [d.perform_of_some trace c hget] at hdone
  -- No step at all and a step too far are both errors of the handler, which the dispatcher passes on.
  by_cases hle : ∃ n, StepOf o.parameters n ∧ c.value + n ≤ min greatest (limit?.getD greatest)
  · obtain ⟨n, hn, hle⟩ := hle
    rw [increment_of_le hn hle] at hdone
    have hresponse := congrArg Dispatched.response hdone
    refine .stepped o n hasks hmethod hn hle ?_ (congrArg Dispatched.state hdone)
    rw [← renderBytes_valueOf]
    exact hresponse
  · have hlt : ∀ n, StepOf o.parameters n → min greatest (limit?.getD greatest) < c.value + n := by
      intro n hn
      exact Nat.not_le.1 fun h ↦ hle ⟨n, hn, h⟩
    obtain ⟨e, he⟩ := increment_of_lt hlt
    rw [he] at hdone
    have hfails := congrArg (fun x : Dispatched Counter ↦ x.response.isSuccess) hdone
    refine .failed hfails (congrArg Dispatched.state hdone) fun o' hasks' _ ↦ ?_
    rw [hasks'.unique hasks]
    exact hlt

theorem entry_of_unknown (hasks : a.Asks o) (hmethod : o.method ≠ "inc_value")
    (hget : d.handlers.get? o.method = none) : Entry limit (d.visit c a) := by
  obtain ⟨trace, hdone⟩ := d.visit_of_asks c hasks
  rw [d.perform_of_none trace c hget] at hdone
  have hfails := congrArg (fun x : Dispatched Counter ↦ x.response.isSuccess) hdone
  refine .failed hfails (congrArg Dispatched.state hdone) fun o' hasks' hmethod' ↦ ?_
  rw [hasks'.unique hasks] at hmethod'
  exact absurd hmethod' hmethod

theorem entry_visit {limit? : Option Nat} (htable : ∀ name, d.handlers.get? name =
      if name = "get_value" then some current
      else if name = "inc_value" then some (increment limit?) else none)
    (c : Counter) (a : Arrival) : Entry (min greatest (limit?.getD greatest)) (d.visit c a) := by
  by_cases hasks : ∃ o, a.Asks o
  · obtain ⟨o, hasks⟩ := hasks
    have hget := htable o.method
    by_cases hquery : o.method = "get_value"
    · rw [if_pos hquery] at hget
      exact entry_of_query hasks hquery hget
    · rw [if_neg hquery] at hget
      by_cases hstep : o.method = "inc_value"
      · rw [if_pos hstep] at hget
        exact entry_of_increment hasks hstep hget
      · rw [if_neg hstep] at hget
        exact entry_of_unknown hasks hstep hget
  · have hnone : ∀ o, ¬ a.Asks o := fun o ho ↦ hasks ⟨o, ho⟩
    obtain ⟨hfails, hafter⟩ := d.visit_of_not_asks c hnone
    exact .failed hfails hafter fun o ho ↦ absurd ho (hnone o)

end

structure Accounted (limit : Nat) (vs : List (Visit Counter)) : Prop where
  /-- After every part of the run the counter is the sum of the steps that were taken. -/
  tally : ∀ past v future, vs = past ++ v :: future →
    v.before.value = (past.map counted).sum ∧ v.after.value = ((past ++ [v]).map counted).sum ∧
      v.after.value ≤ limit
  stepped : ∀ v ∈ vs, Increments v → v.response = .success (valueText v.after.value)
  increasing : ∀ past u between v future, vs = past ++ u :: (between ++ v :: future) →
    Increments u → Increments v →
    ∃ m n, u.response = .success (valueText m) ∧ v.response = .success (valueText n) ∧ m < n
  told : ∀ v ∈ vs, ∀ o, v.arrival.Asks o → o.method = "get_value" → ¬ v.Fails →
    v.response = .success (valueText v.before.value) ∧ v.after = v.before
  decided : ∀ v ∈ vs, ∀ o, v.arrival.Asks o → o.method = "inc_value" →
    (¬ v.Fails ↔ ∃ n, StepOf o.parameters n ∧ v.before.value + n ≤ limit)
  failed : ∀ v ∈ vs, v.Fails → v.after = v.before

section

variable {d : Dispatcher Counter} {as : List Arrival} {past future : List (Visit Counter)}

theorem before_value (hentry : ∀ c a, Entry limit (d.visit c a)) (h : d.visits c as = past ++ v :: future) :
    v.before.value = c.value + (past.map counted).sum := by
  -- The rest of a run is a run from where its first visit has come to.
  induction past generalizing c as with
  | nil =>
    cases as with
    | nil => cases h
    | cons a as =>
      obtain ⟨rfl, -⟩ := List.cons.inj h
      rfl
  | cons u past ih =>
    cases as with
    | nil => cases h
    | cons a as =>
      obtain ⟨rfl, hrest⟩ := List.cons.inj h
      have hafter := (hentry c a).after_value
      have hbefore := ih hrest
      change (d.visit c a).after.value = c.value + counted (d.visit c a) at hafter
      rw [hbefore, hafter, List.map_cons, List.sum_cons, Nat.add_assoc]

theorem entry_of_mem (hentry : ∀ c a, Entry limit (d.visit c a)) (hv : v ∈ d.visits {} as) :
    Entry limit v ∧ v.before.value ≤ limit := by
  have hzero : ({} : Counter).value ≤ limit := Nat.zero_le limit
  obtain ⟨hbefore, heq⟩ := Dispatcher.visits_invariant (I := fun c ↦ c.value ≤ limit)
    (fun c a hc ↦ (hentry c a).after_le hc) hzero hv
  exact ⟨heq ▸ hentry _ _, hbefore⟩

theorem accounted_visits (hentry : ∀ c a, Entry limit (d.visit c a)) (as : List Arrival) :
    Accounted limit (d.visits {} as) where
  tally past v future h := by
    obtain ⟨hv, hle⟩ := entry_of_mem hentry (h ▸ List.mem_append_right past List.mem_cons_self)
    have hbefore := before_value hentry h
    have hafter := hv.after_value
    rw [Nat.zero_add] at hbefore
    refine ⟨hbefore, ?_, hv.after_le hle⟩
    rw [hafter, hbefore, List.map_append, List.sum_append]
    rfl
  stepped v hv hincrements := ((entry_of_mem hentry hv).1.of_increments hincrements).1
  increasing past u between v future h hu hv := by
    have humem : u ∈ d.visits {} as := h ▸ List.mem_append_right past List.mem_cons_self
    have hvmem : v ∈ d.visits {} as := by
      rw [h]
      simp
    obtain ⟨huresponse, -⟩ := (entry_of_mem hentry humem).1.of_increments hu
    obtain ⟨hvresponse, hvstep⟩ := (entry_of_mem hentry hvmem).1.of_increments hv
    -- The later of the two starts where the earlier has come to, or further up.
    obtain ⟨as', hrest⟩ := Dispatcher.visits_split h
    have hbefore := before_value hentry hrest.symm
    exact ⟨_, _, huresponse, hvresponse, by omega⟩
  told v hv o hasks hmethod hsuccess := by
    cases (entry_of_mem hentry hv).1 with
    | stepped o' n hasks' hmethod' hstep hle hresponse hafter =>
      rw [hasks.unique hasks', hmethod'] at hmethod
      exact absurd hmethod (by decide)
    | told o' hasks' hmethod' hresponse hafter => exact ⟨hresponse, hafter⟩
    | failed hfails hafter hasks' => exact absurd hfails hsuccess
  decided v hv o hasks hmethod := (entry_of_mem hentry hv).1.not_fails_iff hasks hmethod
  failed v hv hfails := (entry_of_mem hentry hv).1.after_of_fails hfails

theorem failsCleanly (hentry : ∀ c a, Entry limit (d.visit c a)) : d.FailsCleanly :=
  fun c a hfails ↦ (hentry c a).after_of_fails hfails

end

/-- The counter of a server that was just started keeps its books in every run: it is the sum of the steps
that were taken, within the limit. Requests that failed can be left out without a trace, given what the
store answers to the others; and it answers them as before, if the audit log is kept apart from it. -/
theorem counter_accounted (now : Nat) (configuration : Configuration) (disk disk' : Disk)
    (started : Server.Started Counter)
    (hstart : Server.start now configuration .builtin disk = (.ok started, disk'))
    (hmodule : configuration.service.operationsModule = some moduleName) :
    ∃ limit, LimitOf configuration.service.settings limit ∧ ∀ requests : List (Nat × Bytes),
      let vs := started.server.serve {} disk' requests
      vs.map Visit.request = requests ∧ Accounted limit vs ∧ ∀ kept, Thinned vs kept →
        started.server.dispatcher.visits {} (kept.map Visit.arrival) = kept ∧
        (disk.WellFormed → started.server.KeepsApart disk' →
          started.server.serve {} disk' (kept.map Visit.request) = kept) := by
  obtain ⟨_, _, _, _, endpoints, _, _, _, hsetUp, _, _, rfl, _⟩ := Server.start_eq_ok hstart
  have htable := Dispatcher.instantiate_of_setUp hsetUp hmodule get?_builtin
  obtain ⟨limit?, hlimit?, hget⟩ := get?_of_instantiate htable
  have hlimit := limitOf_of_limit? hlimit?
  have hmin : min greatest (limit?.getD greatest) = limit?.getD greatest := Nat.min_eq_right hlimit.le
  have hentry (c : Counter) (a : Arrival) :
      Entry (limit?.getD greatest) (started.server.dispatcher.visit c a) := hmin ▸ entry_visit hget c a
  have hclean := failsCleanly hentry
  refine ⟨_, hlimit, fun requests ↦ ⟨Server.map_request_serve _ _ _ _, ?_, fun kept hkept ↦ ⟨?_, ?_⟩⟩⟩
  · rw [Server.serve_eq_visits]
    exact accounted_visits hentry _
  · rw [Server.serve_eq_visits] at hkept
    exact Dispatcher.visits_of_thinned hclean hkept
  · intro hdisk hapart
    exact Server.serve_of_thinned hclean (Server.storeStays_of_start hdisk hstart hapart {}) hkept

def toFive : Configuration where
  service := { operations := some moduleName, settings := [("counter_limit", .integer 5)] }
  store := { keys := [{ identity := "a", key := "BwcHBwcHBwcHBwcHBwcHBwcHBwcHBwcHBwcHBwcHBwc=" }] }

set_option maxRecDepth 10000 in
theorem start_toFive : ∃ started keys, Server.start 0 toFive .builtin {} = (.ok started, {}) ∧
    started.server.store = .memory keys ∧ keys.lookup ⟨"a"⟩ = .ok ⟨List.replicate 32 7, rfl⟩ :=
  ⟨_, _, by rfl, by rfl, by rfl⟩

theorem exists_increment : ∃ r : Request, r.identity = ⟨"a"⟩ ∧ ∃ v,
    r.envelope.unpack ⟨List.replicate 32 7, rfl⟩ = .ok v ∧
      (⟨none, "inc_value", []⟩ : Operation).WrittenIn v := by
  let k : Key := ⟨List.replicate 32 7, rfl⟩
  let f : Freshness := ⟨k, List.replicate 12 1, List.replicate 12 2, rfl, rfl⟩
  let payload : Json := .object [("method_name", .string "inc_value"), ("parameters", .object [])]
  have hordered : payload.All Json.IsOrdered := by
    simp only [payload, Json.All, Json.AllFields, Json.isOrdered_object, List.map]
    simp only [Json.IsOrdered, true_and, and_true]
    decide
  obtain ⟨e, he⟩ := Envelope.exists_pack k f (show Cipher.Aead.fitsCounter payload.renderBytes.length by decide)
  have hopen := Envelope.unpack_of_pack he (by simp [payload, Json.All, Json.AllFields, Json.IsExact])
    (by decide)
  rw [Json.ordered_eq_self payload hordered] at hopen
  exact ⟨⟨⟨"a"⟩, e⟩, rfl, payload, hopen, rfl, rfl, rfl⟩

theorem not_asks_nil {now : Nat} {lookup : Lookup} {o : Operation} :
    ¬ (⟨now, [], lookup⟩ : Arrival).Asks o := by
  rintro ⟨r, k, v, ⟨document, hread, -⟩, -⟩
  have hempty : Json.parseBytes (Bytes.ofString "") = .error .cutShort := by
    rw [Json.parseBytes, Bytes.toString?_ofString]
    simp [Json.parse, Json.readAll, Json.stepsFor, Json.readShape, Json.skipSpace]
  cases hempty.symm.trans hread

/-- An empty body, which fails, and an increment, whether or not the empty body is left out. -/
theorem counter_accounted_toFive : ∃ (started : Server.Started Counter) (body : Bytes) (u v : Visit Counter),
    Server.start 0 toFive .builtin {} = (.ok started, {}) ∧
    started.server.serve {} {} [(0, []), (1, body)] = [u, v] ∧ u.Fails ∧
    v.response = .success (valueText 1) ∧ started.server.serve {} {} [(1, body)] = [v] := by
  obtain ⟨started, keys, hstart, hstore, hkey⟩ := start_toFive
  obtain ⟨r, hidentity, plaintext, hopen, hwritten⟩ := exists_increment
  obtain ⟨limit, hlimit, hall⟩ := counter_accounted 0 toFive {} {} started hstart rfl
  obtain ⟨u, v, hvs⟩ : ∃ u v, started.server.serve {} {} [(0, []), (1, r.toSortedJson.renderBytes)] = [u, v] :=
    ⟨_, _, rfl⟩
  obtain ⟨hrequests, haccounted, hthinned⟩ := hall [(0, []), (1, r.toSortedJson.renderBytes)]
  have hstays := Server.storeStays_memory hstore ({} : Counter) {}
  have harrival {w : Visit Counter} (hw : w ∈ [u, v]) := Server.arrival_eq_of_mem hstays (hvs ▸ hw)
  rw [hvs] at hrequests haccounted hthinned
  obtain ⟨hurequest, hvrequest, -⟩ : u.request = _ ∧ v.request = _ ∧ True := by simpa using hrequests
  have huarrival := harrival List.mem_cons_self
  have hvarrival := harrival (List.mem_cons_of_mem u List.mem_cons_self)
  rw [hurequest] at huarrival
  rw [hvrequest] at hvarrival
  have hfails : u.Fails := by
    have hnone : ∀ o, ¬ u.arrival.Asks o := by
      rw [huarrival]
      exact fun o ↦ not_asks_nil
    have hmem : u ∈ started.server.serve {} {} [(0, []), (1, r.toSortedJson.renderBytes)] :=
      hvs ▸ List.mem_cons_self
    rw [Server.serve_eq_visits] at hmem
    rw [Dispatcher.eq_visit_of_mem hmem]
    exact (Dispatcher.visit_of_not_asks _ _ hnone).1
  have hasks : v.arrival.Asks ⟨none, "inc_value", []⟩ := by
    rw [hvarrival]
    refine ⟨r, _, plaintext, r.madeBy_toSortedJson, ?_, hopen, hwritten⟩
    rw [hstore, hidentity]
    exact hkey
  obtain ⟨hbefore, hafter, -⟩ := haccounted.tally [u] v [] rfl
  have hstep : StepOf [] 1 := .inl ⟨rfl, rfl⟩
  have hlimit : limit = 5 := by
    rcases hlimit with ⟨hnone, -⟩ | ⟨hsome, -⟩
    · cases hnone
    · have hfive : (limit : Int) = 5 := by simpa [toFive] using hsome.symm
      exact Int.ofNat.inj hfive
  have hsuccess : ¬ v.Fails := by
    refine (haccounted.decided v (List.mem_cons_of_mem u List.mem_cons_self) _ hasks rfl).2 ⟨1, hstep, ?_⟩
    rw [hbefore, hlimit, List.map_singleton, List.sum_singleton, counted_of_fails hfails]
    decide
  have hcounted : counted v = 1 := by
    rw [counted, Arrival.operation?_eq_some_iff.2 hasks]
    have htrue : v.response.isSuccess = true := by simpa [Visit.Fails] using hsuccess
    simp [htrue, stepOf_eq hstep]
  have hvalue : v.after.value = 1 := by simp [hafter, counted_of_fails hfails, hcounted]
  have hresponse := haccounted.stepped v (List.mem_cons_of_mem u List.mem_cons_self) ⟨_, hasks, rfl, hsuccess⟩
  have hkept := (hthinned [v] (.drop u hfails (.keep v .nil))).2 Disk.wellFormed_empty
    (Server.keepsApart_memory hstore {})
  rw [List.map_singleton, hvrequest] at hkept
  exact ⟨started, _, u, v, hstart, hvs, hfails, hvalue ▸ hresponse, hkept⟩

end Operation.Counter

end Gatekeeper
