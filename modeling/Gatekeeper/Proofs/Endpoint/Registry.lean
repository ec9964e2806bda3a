import Gatekeeper.Endpoint
import Gatekeeper.Proofs.Catalog
import Gatekeeper.Proofs.Results
import Gatekeeper.Proofs.Text.Order
import Mathlib.Data.List.Induction
import Mathlib.Data.List.Nodup

namespace Gatekeeper

theorem exists_first_repeated {α β : Type} {f : α → β} {xs : List α} (h : ¬ (xs.map f).Nodup) :
    ∃ front x rest, xs = front ++ x :: rest ∧ (front.map f).Nodup ∧ f x ∈ front.map f := by
  induction xs using List.reverseRecOn with
  | nil => exact absurd .nil h
  | append_singleton xs x ih =>
    by_cases hxs : (xs.map f).Nodup
    · refine ⟨xs, x, [], rfl, hxs, ?_⟩
      by_contra hx
      rw [List.map_append, List.map_singleton] at h
      exact h (hxs.append (List.nodup_singleton _) (List.disjoint_singleton.2 hx))
    · obtain ⟨front, y, rest, rfl, hfront, hy⟩ := ih hxs
      exact ⟨front, y, rest ++ [x], by rw [List.append_assoc, List.cons_append], hfront, hy⟩

namespace EndpointRegistry

variable {r r' : EndpointRegistry} {e : Endpoint} {es calls accepted front rest : List Endpoint} {name : String}

theorem run_enter_of_contains (h : r.records.contains e.id = true) :
    (enter e).run r = (.error (.duplicate e.id), r) := by
  change (if r.records.contains e.id then throw (.duplicate e.id)
    else set (EndpointRegistry.mk (r.records.insert e.id e)) :
      ExceptT EndpointError (StateM EndpointRegistry) Unit).run r = _
  rw [if_pos h]
  rfl

theorem run_enter_of_not_contains (h : r.records.contains e.id = false) :
    (enter e).run r = (.ok (), ⟨r.records.insert e.id e⟩) := by
  change (if r.records.contains e.id then throw (.duplicate e.id)
    else set (EndpointRegistry.mk (r.records.insert e.id e)) :
      ExceptT EndpointError (StateM EndpointRegistry) Unit).run r = _
  rw [if_neg (by rw [h]; exact Bool.false_ne_true)]
  rfl

theorem register_of_contains (h : r.records.contains e.id = true) :
    r.register e = .error (.duplicate e.id) := by
  rw [register, run_enter_of_contains h]

theorem register_of_not_contains (h : r.records.contains e.id = false) :
    r.register e = .ok ⟨r.records.insert e.id e⟩ := by
  rw [register, run_enter_of_not_contains h]

theorem exists_ofList (h : (es.map Endpoint.id).Nodup) :
    ∃ r, ofList es = .ok r ∧ r.records.entries.Perm (es.map fun e ↦ (e.id, e)) := by
  have hentries : es.filterMap (fun e ↦ some (e.id, e)) = es.map fun e ↦ (e.id, e) :=
    congrFun List.filterMap_eq_map es
  have hstep (r : EndpointRegistry) (e : Endpoint) (entry : String × Endpoint)
      (he : some (e.id, e) = some entry) (hfree : r.records.contains entry.1 = false) :
      ∃ r', register r e = .ok r' ∧ r'.records = r.records.insert entry.1 entry.2 := by
    cases he
    exact ⟨_, register_of_not_contains hfree, rfl⟩
  obtain ⟨r, hr, hperm⟩ := Catalog.foldlM_insert (s := empty) hstep es (fun e _ ↦ ⟨_, rfl⟩)
    (by simpa [hentries, Function.comp_def] using h) (fun _ _ ↦ rfl)
  rw [hentries] at hperm
  exact ⟨r, hr, hperm.trans (.of_eq (List.append_nil _))⟩

theorem ofList_append (h : ofList es = .ok r) : ofList (es ++ rest) = rest.foldlM register r := by
  change List.foldlM register empty es = .ok r at h
  rw [ofList, List.foldlM_append, h, ok_bind]

theorem contains_iff (hperm : r.records.entries.Perm (es.map fun e ↦ (e.id, e))) :
    r.records.contains name = true ↔ name ∈ es.map Endpoint.id := by
  rw [Catalog.contains, ← Catalog.mem_keys_iff, Catalog.keys, (hperm.map Prod.fst).mem_iff, List.map_map]
  rfl

theorem ofList_of_repeated (hfront : (front.map Endpoint.id).Nodup) (he : e.id ∈ front.map Endpoint.id) :
    ofList (front ++ e :: rest) = .error (.duplicate e.id) := by
  obtain ⟨r, hr, hperm⟩ := exists_ofList hfront
  rw [ofList_append hr, List.foldlM_cons, register_of_contains ((contains_iff hperm).2 he), error_bind]

theorem ofList_of_not_nodup (h : ¬ (es.map Endpoint.id).Nodup) :
    ∃ front e rest, es = front ++ e :: rest ∧ (front.map Endpoint.id).Nodup ∧
      e.id ∈ front.map Endpoint.id ∧ ofList es = .error (.duplicate e.id) := by
  obtain ⟨front, e, rest, rfl, hfront, he⟩ := exists_first_repeated h
  exact ⟨front, e, rest, rfl, hfront, he, ofList_of_repeated hfront he⟩

theorem ofList_eq_error_iff {fault : EndpointError} : ofList es = .error fault ↔
    ∃ front e rest, es = front ++ e :: rest ∧ (front.map Endpoint.id).Nodup ∧
      e.id ∈ front.map Endpoint.id ∧ fault = .duplicate e.id := by
  constructor
  · intro h
    have hrepeated : ¬ (es.map Endpoint.id).Nodup := by
      intro hdistinct
      obtain ⟨r, hr, -⟩ := exists_ofList hdistinct
      rw [hr] at h
      cases h
    obtain ⟨front, e, rest, hes, hfront, he, herror⟩ := ofList_of_not_nodup hrepeated
    rw [herror] at h
    exact ⟨front, e, rest, hes, hfront, he, (Except.error.inj h).symm⟩
  · rintro ⟨front, e, rest, rfl, hfront, he, rfl⟩
    exact ofList_of_repeated hfront he

theorem nodup_of_ofList (h : ofList es = .ok r) : (es.map Endpoint.id).Nodup := by
  by_contra hrepeated
  obtain ⟨-, e, -, -, -, -, herror⟩ := ofList_of_not_nodup hrepeated
  rw [herror] at h
  cases h

theorem exists_ofList_iff : (∃ r, ofList es = .ok r) ↔ (es.map Endpoint.id).Nodup := by
  constructor
  · rintro ⟨r, hr⟩
    exact nodup_of_ofList hr
  · intro h
    obtain ⟨r, hr, -⟩ := exists_ofList h
    exact ⟨r, hr⟩

theorem perm_of_ofList (h : ofList es = .ok r) :
    r.records.entries.Perm (es.map fun e ↦ (e.id, e)) := by
  obtain ⟨r', hr', hperm⟩ := exists_ofList (nodup_of_ofList h)
  rw [h] at hr'
  cases hr'
  exact hperm

structure Shows (r : EndpointRegistry) (accepted : List Endpoint) : Prop where
  distinct : (accepted.map Endpoint.id).Nodup
  perm : r.toList.Perm accepted
  sorted : r.toList.Pairwise fun a b ↦ Bytes.ofString a.id < Bytes.ofString b.id
  get?_eq_some_iff (id : String) (e : Endpoint) : r.get? id = some e ↔ e ∈ accepted ∧ e.id = id
  size_eq : r.size = accepted.length

theorem shows_of_ofList (h : ofList es = .ok r) : r.Shows es := by
  have hperm := perm_of_ofList h
  -- Entries are kept under the identifiers of their endpoints, so the order of keys is theirs.
  have hmem (entry : String × Endpoint) : entry ∈ r.records.entries ↔ entry.2 ∈ es ∧ entry.2.id = entry.1 := by
    obtain ⟨key, e⟩ := entry
    rw [hperm.mem_iff, List.mem_map]
    constructor
    · rintro ⟨e, he, ⟨⟩⟩
      exact ⟨he, rfl⟩
    · rintro ⟨he, hkey⟩
      exact ⟨e, he, congrArg (·, e) hkey⟩
  refine ⟨nodup_of_ofList h, ?_, ?_, fun id e ↦ ?_, ?_⟩
  · have hvalues := hperm.map Prod.snd
    rw [List.map_map] at hvalues
    exact hvalues.trans (.of_eq (List.map_id es))
  · refine List.pairwise_map.2 (r.records.sorted.imp_of_mem fun {a b} ha hb hlt ↦ ?_)
    rw [← ((hmem a).1 ha).2, ← ((hmem b).1 hb).2] at hlt
    exact Bytes.ofString_lt_ofString hlt
  · exact Catalog.get?_eq_some_iff.trans (hmem (id, e))
  · exact hperm.length_eq.trans (List.length_map _)

theorem register_of_ofList (h : ofList es = .ok r) :
    (e.id ∈ es.map Endpoint.id → r.register e = .error (.duplicate e.id)) ∧
      (e.id ∉ es.map Endpoint.id → ∃ r', r.register e = .ok r' ∧ ofList (es ++ [e]) = .ok r') := by
  have hcontains : r.records.contains e.id = true ↔ e.id ∈ es.map Endpoint.id := contains_iff (perm_of_ofList h)
  constructor
  · exact fun he ↦ register_of_contains (hcontains.2 he)
  · intro he
    have hregister := register_of_not_contains (Bool.eq_false_iff.2 fun hc ↦ he (hcontains.1 hc))
    refine ⟨_, hregister, ?_⟩
    rw [ofList_append h, List.foldlM_cons, hregister, ok_bind, List.foldlM_nil]
    rfl

/-- Calls one after another, also behind one that fails. The answer lists the endpoints that were accepted. -/
def enterAll : List Endpoint → StateM EndpointRegistry (List Endpoint)
  | [] => return []
  | e :: calls => do
    match ← (enter e).run with
    | .ok () => return e :: (← enterAll calls)
    | .error _ => enterAll calls

theorem run_enter (e : Endpoint) (r : EndpointRegistry) : (enter e).run r =
    match r.register e with
    | .ok r' => (.ok (), r')
    | .error fault => (.error fault, r) := by
  cases h : r.records.contains e.id with
  | true => rw [register_of_contains h, run_enter_of_contains h]
  | false => rw [register_of_not_contains h, run_enter_of_not_contains h]

theorem enterAll_cons (e : Endpoint) (calls : List Endpoint) (r : EndpointRegistry) :
    enterAll (e :: calls) r =
      match (enter e).run r with
      | (.ok (), r') => (e :: (enterAll calls r').1, (enterAll calls r').2)
      | (.error _, r') => enterAll calls r' := by
  simp only [enterAll, bind, StateT.bind]
  rcases (enter e).run r with ⟨_ | ⟨⟩, r'⟩ <;> rfl

theorem ofList_accepted (h : ofList es = .ok r) (calls : List Endpoint) :
    ofList (es ++ (enterAll calls r).1) = .ok (enterAll calls r).2 := by
  induction calls generalizing es r with
  | nil =>
    change ofList (es ++ []) = .ok r
    rw [List.append_nil, h]
  | cons e calls ih =>
    -- Only an accepted call adds to the registry and to the list; a refused one leaves both for the rest.
    rw [enterAll_cons, run_enter]
    by_cases he : e.id ∈ es.map Endpoint.id
    · rw [(register_of_ofList h).1 he]
      exact ih h
    · obtain ⟨r', hregister, hr'⟩ := (register_of_ofList h).2 he
      rw [hregister]
      have hrest := ih hr'
      rwa [List.append_assoc] at hrest

/-- A list makes a registry exactly if its identifiers are distinct, and the first endpoint that repeats one is
named else. After any further calls the registry shows what was accepted so far, each endpoint under its
identifier; it refuses the identifiers that it has, stays as it is when it does, and accepts all others. -/
theorem registers_each_once (es : List Endpoint) :
    ((∃ r, ofList es = .ok r) ↔ (es.map Endpoint.id).Nodup) ∧
      (∀ fault, ofList es = .error fault ↔
        ∃ front e rest, es = front ++ e :: rest ∧ (front.map Endpoint.id).Nodup ∧
          e.id ∈ front.map Endpoint.id ∧ fault = .duplicate e.id) ∧
      ∀ r, ofList es = .ok r → ∀ calls accepted r', enterAll calls r = (accepted, r') →
        r'.Shows (es ++ accepted) ∧ ofList (es ++ accepted) = .ok r' ∧
          ∀ e : Endpoint,
            (e.id ∈ (es ++ accepted).map Endpoint.id → r'.register e = .error (.duplicate e.id) ∧
              (enter e).run r' = (.error (.duplicate e.id), r')) ∧
            (e.id ∉ (es ++ accepted).map Endpoint.id → ∃ r'', r'.register e = .ok r'' ∧
              (enter e).run r' = (.ok (), r'') ∧ r''.Shows (es ++ accepted ++ [e])) := by
  refine ⟨exists_ofList_iff, fun _ ↦ ofList_eq_error_iff, fun r hr calls accepted r' hcalls ↦ ?_⟩
  have hr' := ofList_accepted hr calls
  rw [hcalls] at hr'
  refine ⟨shows_of_ofList hr', hr', fun e ↦ ⟨fun he ↦ ?_, fun he ↦ ?_⟩⟩
  · have hrefused := (register_of_ofList hr').1 he
    exact ⟨hrefused, by rw [run_enter, hrefused]⟩
  · obtain ⟨r'', haccepted, hr''⟩ := (register_of_ofList hr').2 he
    exact ⟨r'', haccepted, by rw [run_enter, haccepted], shows_of_ofList hr''⟩

theorem registers_each_once_moved :
    ∃ r r', ofList [⟨"storage", "https://storage.local"⟩, ⟨"ledger", "https://ledger.local"⟩] = .ok r ∧
      enterAll [⟨"ledger", "https://moved.local"⟩, ⟨"audit", "https://audit.local"⟩] r =
        ([⟨"audit", "https://audit.local"⟩], r') ∧
      r'.Shows [⟨"storage", "https://storage.local"⟩, ⟨"ledger", "https://ledger.local"⟩,
        ⟨"audit", "https://audit.local"⟩] ∧
      (enter ⟨"ledger", "https://moved.local"⟩).run r' = (.error (.duplicate "ledger"), r') ∧
      r'.get? "ledger" = some ⟨"ledger", "https://ledger.local"⟩ := by
  obtain ⟨-, -, hcalls⟩ :=
    registers_each_once [⟨"storage", "https://storage.local"⟩, ⟨"ledger", "https://ledger.local"⟩]
  obtain ⟨hshows, -, hnext⟩ :=
    hcalls ⟨[("ledger", ⟨"ledger", "https://ledger.local"⟩),
        ("storage", ⟨"storage", "https://storage.local"⟩)], by decide⟩ rfl
      [⟨"ledger", "https://moved.local"⟩, ⟨"audit", "https://audit.local"⟩]
      [⟨"audit", "https://audit.local"⟩] _ rfl
  obtain ⟨-, hrefused⟩ := (hnext ⟨"ledger", "https://moved.local"⟩).1 (by decide)
  exact ⟨_, _, rfl, rfl, hshows, hrefused, (hshows.get?_eq_some_iff _ _).2 (by decide)⟩

end EndpointRegistry

end Gatekeeper
