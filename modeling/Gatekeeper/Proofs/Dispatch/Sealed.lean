import Gatekeeper.Command.Draft
import Gatekeeper.Proofs.Dispatch.Pipeline
import Gatekeeper.Proofs.Envelope.RoundTrip
import Gatekeeper.Proofs.Operation.Instantiation

namespace Gatekeeper

open Cipher

variable {σ : Type}

namespace Request

theorem writtenIn_toSortedJson (r : Request) : r.WrittenIn r.toSortedJson := by
  refine ⟨rfl, _, rfl, ?_, ?_, ?_⟩
  all_goals rfl

theorem portable_toSortedJson (r : Request) : r.toSortedJson.Portable where
  exact := by simp [toSortedJson, Identity.toJson, Json.All, Json.AllFields, Json.IsExact]
  ordered := by
    simp only [toSortedJson, Identity.toJson, Json.All, Json.AllFields, Json.isOrdered_object, List.map]
    simp only [Json.IsOrdered, true_and, and_true]
    decide
  shallow := (by decide : 2 ≤ 127)

theorem madeBy_toSortedJson (r : Request) : r.MadeBy r.toSortedJson.renderBytes :=
  ⟨_, r.portable_toSortedJson.parseBytes_renderBytes, r.writtenIn_toSortedJson⟩

/-- The compact text of a request, with its fields as they are declared or in the order of their names. -/
def IsTextOf (body : Bytes) (r : Request) : Prop :=
  body = r.toJson.renderBytes ∨ body = r.toSortedJson.renderBytes

theorem madeBy_of_isTextOf {body : Bytes} {r : Request} (h : IsTextOf body r) : r.MadeBy body := by
  rcases h with rfl | rfl
  · exact r.madeBy_toJson
  · exact r.madeBy_toSortedJson

end Request

namespace Response

def Refuses (response : Response) (sentence : String) : Prop :=
  response.isSuccess = false ∧ response.body = Bytes.ofString sentence

/-- What the caller is told of an outcome: the text of a value that is not null, and of all others no more
than that there is none, or that something went wrong. -/
def Tells (response : Response) : Outcome → Prop
  | .value v => (v ≠ .null → response = .success v.renderBytes) ∧
    (v = .null → response.Refuses "operation failed")
  | .nothing => response.Refuses "operation failed"
  | .error _ | .breakdown => response.Refuses "unknown exception while performing operation"

theorem refuses_failure (refusal : Refusal) : (failure refusal).Refuses refusal.message :=
  ⟨rfl, congrArg Bytes.ofString refusal.publicMessage_eq_message⟩

theorem tells_responseTo (outcome : Outcome) : (Dispatcher.responseTo outcome).Tells outcome := by
  cases outcome with
  | value v =>
    cases v with
    | null => exact ⟨fun h ↦ absurd rfl h, fun _ ↦ refuses_failure _⟩
    | _ => exact ⟨fun _ ↦ rfl, nofun⟩
  | nothing | error | breakdown => exact refuses_failure _

theorem Tells.echo {response : Response} {p : Parameters} {s : σ} (hp : p ≠ [])
    (h : response.Tells (Operation.Basic.echo p s).1) :
    response = .success (Json.object p).renderBytes := by
  rw [Operation.Basic.echo, if_neg (by simpa using hp)] at h
  exact h.1 nofun

end Response

namespace Dispatcher

variable {lookup : Lookup} {body : Bytes} {r : Request} {k : Key} {f : Freshness} {document : Json}
  {o : Operation}

theorem dispatch_of_sealed (d : Dispatcher σ) (s : σ) (hr : r.MadeBy body)
    (hk : lookup r.identity = .ok k) (hpack : Envelope.pack k f document = .ok r.envelope)
    (hdocument : document.Portable) (ho : o.WrittenIn document) :
    d.dispatch lookup (fun k e ↦ e.unpack k) body s =
      d.perform o { consulted := some r.identity } s := by
  have hopen : r.envelope.unpack k = .ok document := by
    rw [Envelope.unpack_of_pack hpack hdocument.exact hdocument.shallow,
      Json.ordered_eq_self document hdocument.ordered]
  exact d.dispatch_of_operation s (requestOf_eq_ok_iff.2 hr) (plaintextOf_eq_ok_iff.2 ⟨k, hk, hopen⟩)
    (operationOf_eq_ok_iff.2 ho)

/-- A sealed request is executed as it was sealed. The handler of its method is called once, and with its
parameters; without a handler nothing is called. -/
theorem sealed_executed (d : Dispatcher σ) (lookup : Lookup) (i : Identity) (k : Key) (f : Freshness)
    (document : Json) (o : Operation) (s : σ) (calls : List Call) (hk : lookup i = .ok k)
    (hdocument : document.Portable) (ho : o.WrittenIn document)
    (hfits : Aead.fitsCounter document.renderBytes.length) :
    ∃ e, Envelope.pack k f document = .ok e ∧ ∀ body, Request.IsTextOf body ⟨i, e⟩ →
      let done := (d.handle lookup (fun k e ↦ e.unpack k) body s).1
      let recorded := (d.recorded.handle lookup (fun k e ↦ e.unpack k) body (s, calls)).1
      recorded.response = done.response ∧ recorded.state.1 = done.state ∧
      (d.handlers.get? o.method = none →
        done.response.Refuses s!"unknown operation: {o.method}" ∧ recorded.state = (s, calls)) ∧
      (∀ h, d.handlers.get? o.method = some h → done.response.Tells (h o.parameters s).1 ∧
        recorded.state = ((h o.parameters s).2, calls ++ [(o.method, o.parameters)])) ∧
      ∀ settings, Operation.Basic.operationModule.instantiate settings = .ok d.handlers →
        o.method = "echo" → o.parameters ≠ [] →
        ∃ text, done.response = .success text ∧ Json.parseBytes text = .ok (.object o.parameters) := by
  obtain ⟨e, he⟩ := Envelope.exists_pack k f hfits
  refine ⟨e, he, fun body hbody ↦ ?_⟩
  have hr : (⟨i, e⟩ : Request).MadeBy body := Request.madeBy_of_isTextOf hbody
  have hplain := d.dispatch_of_sealed s hr hk he hdocument ho
  have hrecorded := d.recorded.dispatch_of_sealed (s, calls) hr hk he hdocument ho
  obtain ⟨hresponse, -, hstate⟩ := d.dispatch_recorded lookup (fun k e ↦ e.unpack k) body s calls
  have htells (h : Handler σ) (hh : d.handlers.get? o.method = some h) :
      (d.dispatch lookup (fun k e ↦ e.unpack k) body s).response.Tells (h o.parameters s).1 := by
    rw [hplain, d.perform_of_some _ s hh]
    exact Response.tells_responseTo _
  refine ⟨hresponse, hstate, fun hh ↦ ?_, fun h hh ↦ ⟨htells h hh, ?_⟩, fun settings htable hmethod hp ↦ ?_⟩
  · have hnone : d.recorded.handlers.get? o.method = none := by rw [get?_recorded, hh]; rfl
    constructor
    · change (d.dispatch lookup (fun k e ↦ e.unpack k) body s).response.Refuses _
      rw [hplain, d.perform_of_none _ s hh]
      exact Response.refuses_failure _
    · change (d.recorded.dispatch lookup (fun k e ↦ e.unpack k) body (s, calls)).state = _
      rw [hrecorded, d.recorded.perform_of_none _ _ hnone]
  · have hsome : d.recorded.handlers.get? o.method = some (h.recorded o.method) := by
      rw [get?_recorded, hh]
      rfl
    change (d.recorded.dispatch lookup (fun k e ↦ e.unpack k) body (s, calls)).state = _
    rw [hrecorded, d.recorded.perform_of_some _ _ hsome]
    rfl
  · have hecho : d.handlers.get? o.method = some Operation.Basic.echo := by
      rw [hmethod]
      exact Operation.Basic.get?_echo htable
    have hportable : (Json.object o.parameters).Portable := hdocument.field? ho.parameters
    exact ⟨_, (htells _ hecho).echo hp, hportable.parseBytes_renderBytes⟩

/-- An echo of one parameter, in a document that has a field too many. -/
theorem sealed_executed_echo : ∃ (d : Dispatcher Unit) (k : Key) (f : Freshness) (e : Envelope)
    (document : Json) (text : Bytes),
    Operation.Basic.operationModule.instantiate [] = .ok d.handlers ∧
    document = .object [("comment", .null), ("method_name", .string "echo"), ("nonce", .string "7"),
      ("parameters", .object [("a", .integer (-9223372036854775808))])] ∧
    Envelope.pack k f document = .ok e ∧
    (d.handle (fun _ ↦ .ok k) (fun k e ↦ e.unpack k)
      (Request.toSortedJson ⟨⟨"a"⟩, e⟩).renderBytes ()).1.response = .success text ∧
    Json.parseBytes text = .ok (.object [("a", .integer (-9223372036854775808))]) ∧
    (d.recorded.handle (fun _ ↦ .ok k) (fun k e ↦ e.unpack k)
      (Request.toSortedJson ⟨⟨"a"⟩, e⟩).renderBytes ((), [])).1.state =
      ((), [("echo", [("a", .integer (-9223372036854775808))])]) := by
  let k : Key := ⟨List.replicate 32 7, rfl⟩
  let f : Freshness := ⟨k, List.replicate 12 1, List.replicate 12 2, rfl, rfl⟩
  let o : Operation := ⟨some "7", "echo", [("a", .integer (-9223372036854775808))]⟩
  let document : Json := .object [("comment", .null), ("method_name", .string "echo"),
    ("nonce", .string "7"), ("parameters", .object o.parameters)]
  obtain ⟨table, htable⟩ : ∃ table : HandlerTable Unit,
    Operation.Basic.operationModule.instantiate [] = .ok table := ⟨_, rfl⟩
  have hdocument : document.Portable := by
    refine ⟨?_, ?_, by decide⟩
    · simp [document, o, Json.All, Json.AllFields, Json.IsExact, Json.leastInteger, Json.greatestInteger]
    · simp only [document, o, Json.All, Json.AllFields, Json.isOrdered_object, List.map]
      simp only [Json.IsOrdered, true_and, and_true]
      decide
  have ho : o.WrittenIn document := ⟨rfl, rfl, rfl⟩
  obtain ⟨e, he, hall⟩ := sealed_executed ⟨"basic", table, .empty⟩ (fun _ ↦ .ok k) ⟨"a"⟩ k f document o ()
    [] rfl hdocument ho (by decide +kernel)
  obtain ⟨-, -, -, hcalled, hecho⟩ := hall _ (.inr rfl)
  obtain ⟨text, hresponse, htext⟩ := hecho [] htable rfl (by simp [o])
  exact ⟨_, k, f, e, document, text, htable, rfl, he, hresponse, htext,
    (hcalled _ (Operation.Basic.get?_echo htable)).2⟩

end Dispatcher

end Gatekeeper
