import Gatekeeper.Proofs.Service.Run

namespace Gatekeeper

variable {σ : Type}

/-- Whether a body is JSON that bears the name of an identity. -/
def Names (body : Bytes) (i : Identity) : Prop :=
  ∃ d, Json.parseBytes body = .ok d ∧ d.field? "minted_identity" = some (.string i.name)

namespace Service.Moment

def Faithful (d : Dispatcher σ) (m : Moment σ) : Prop :=
  ∀ body, m.event = .request body →
    let done := (d.handle m.before.vault.lookup (fun k e ↦ e.unpack k) body m.before.state).1
    m.answer = .response done.response ∧ m.after.state = done.state

def Quiet (m : Moment σ) : Prop := m.after.calls = m.before.calls ∧ m.after.state = m.before.state

/-- One handler of the table is called once: for a request whose identity has a key by now, under which
its envelope opens, it is the handler of the method in the envelope and is given the parameters there. -/
def Authorized (handlers : HandlerTable σ) (m : Moment σ) : Prop :=
  ∃ (body : Bytes) (r : Request) (k : Key) (plaintext : Json) (method : String) (parameters : Parameters)
      (h : Handler σ), m.event = .request body ∧ r.MadeBy body ∧
    m.before.vault.lookup r.identity = .ok k ∧ r.envelope.unpack k = .ok plaintext ∧
    plaintext.field? "method_name" = some (.string method) ∧
    plaintext.field? "parameters" = some (.object parameters) ∧ handlers.get? method = some h ∧
    m.after.calls = m.before.calls ++ [(method, parameters)] ∧
    m.after.state = (h parameters m.before.state).2 ∧
    m.answer = .response (Dispatcher.responseTo (h parameters m.before.state).1)

/-- A key is taken from an identity; a database may also fail to do so. -/
def Revokes (m : Moment σ) (i : Identity) : Prop :=
  m.event = .revoke i ∧ (m.before.vault.InMemory ∨ ∃ b, m.answer = .revoked (.ok b))

def Grants (m : Moment σ) (i : Identity) : Prop :=
  (∃ k, m.event = .insert i k ∧ m.answer = .inserted (.ok ())) ∨
    ∃ fresh k, m.event = .mint i fresh ∧ m.answer = .minted (.ok k)

def Refused (m : Moment σ) : Prop :=
  ∃ response, m.answer = .response response ∧ response.isSuccess = false ∧
    response.body = Bytes.ofString "unknown exception while unpacking request"

end Service.Moment

namespace Service

variable {s : Service σ} {i : Identity}

theorem dispatcher_step (s : Service σ) (e : Event) : (s.step e).2.dispatcher = s.dispatcher := by
  cases e <;> rfl

theorem sound_step (s : Service σ) (e : Event) (h : s.vault.Sound) : (s.step e).2.vault.Sound := by
  cases e with
  | insert i k => exact Vault.insert_sound h i k
  | mint i k => exact Vault.mint_sound h i k
  | revoke i => exact Vault.revoke_sound h i
  | request body => exact Vault.consult_sound h _

theorem moment_quiet_or_authorized (s : Service σ) (e : Event) :
    (s.moment e).Quiet ∨ (s.moment e).Authorized s.dispatcher.handlers := by
  cases e with
  | insert | mint | revoke => exact .inl ⟨rfl, rfl⟩
  | request body =>
    rcases s.dispatcher.recorded.dispatch_cases s.vault.lookup (fun k e ↦ e.unpack k) body
      (s.state, s.calls) with hquiet | ⟨r, k, v, o, h, hr, hk, hv, ho, hh, hresponse, hstate⟩
    · exact .inl ⟨congrArg Prod.snd hquiet, congrArg Prod.fst hquiet⟩
    · have hr := Dispatcher.requestOf_eq_ok_iff.1 hr
      have ho := Dispatcher.operationOf_eq_ok_iff.1 ho
      rw [Dispatcher.recorded, Catalog.get?_map] at hh
      obtain ⟨h, hget, rfl⟩ := Option.map_eq_some_iff.1 hh
      exact .inr ⟨body, r, k, v, o.method, o.parameters, h, rfl, hr, hk, hv, ho.method,
        ho.parameters, hget, congrArg Prod.snd hstate, congrArg Prod.fst hstate,
        congrArg Answer.response hresponse⟩

theorem moment_faithful (s : Service σ) (e : Event) : (s.moment e).Faithful s.dispatcher := by
  intro body he
  obtain rfl : e = .request body := he
  obtain ⟨hanswer, hstate, -⟩ := s.step_request body
  exact ⟨hanswer, hstate⟩

theorem lacks_step {e : Event} (h : s.vault.Lacks i) (hg : ¬ (s.moment e).Grants i) :
    (s.step e).2.vault.Lacks i := by
  cases e with
  | insert j k =>
    refine Vault.Lacks.insert h fun hok ↦ ?_
    rintro rfl
    exact hg (.inl ⟨k, rfl, congrArg Answer.inserted hok⟩)
  | mint j k =>
    refine Vault.Lacks.mint h fun ⟨k', hok⟩ ↦ ?_
    rintro rfl
    exact hg (.inr ⟨k, k', rfl, congrArg Answer.minted hok⟩)
  | revoke j => exact Vault.Lacks.revoke h j
  | request body => exact Vault.Lacks.consult h _

theorem lacks_history {es : List Event} {between future : List (Moment σ)} {n : Moment σ}
    (h : s.vault.Lacks i) (hes : s.history es = between ++ n :: future)
    (hg : ∀ m ∈ between, ¬ m.Grants i) : n.before.vault.Lacks i ∧ n = n.before.moment n.event := by
  -- Every moment in between hands the missing key on to the next.
  induction between generalizing s es with
  | nil =>
    cases es with
    | nil => simp [history] at hes
    | cons e es =>
      obtain ⟨rfl, -⟩ := List.cons.inj hes
      exact ⟨h, rfl⟩
  | cons m between ih =>
    cases es with
    | nil => simp [history] at hes
    | cons e es =>
      obtain ⟨rfl, hrest⟩ := List.cons.inj hes
      refine ih (lacks_step h (hg _ List.mem_cons_self)) hrest fun m hm ↦ ?_
      exact hg m (List.mem_cons_of_mem _ hm)

theorem lacks_after {m : Moment σ} (hs : m.before.vault.Sound) (hm : m = m.before.moment m.event)
    (hrev : m.Revokes i) : m.after.vault.Lacks i := by
  obtain ⟨he, hok⟩ := hrev
  rw [he] at hm
  rw [hm] at hok ⊢
  refine Vault.lacks_of_revoke hs (hok.imp_right fun ⟨b, hb⟩ ↦ ⟨b, ?_⟩)
  exact Answer.revoked.inj hb

theorem identity_of_names {body : Bytes} {r : Request} (hn : Names body i) (hr : r.MadeBy body) :
    r.identity = i := by
  obtain ⟨d, hd, hname⟩ := hn
  obtain ⟨d', hd', hw⟩ := hr
  obtain rfl : d = d' := Except.ok.inj (hd.symm.trans hd')
  have hjson := Option.some.inj (hw.identity.symm.trans hname)
  exact congrArg Identity.mk (Json.string.inj hjson)

theorem not_lookup_of_lacks {body : Bytes} {r : Request} {k : Key} (h : s.vault.Lacks i)
    (hn : Names body i) (hr : r.MadeBy body) : s.vault.lookup r.identity ≠ .ok k := by
  obtain ⟨e, he⟩ := h.lookup
  rw [identity_of_names hn hr, he]
  exact nofun

theorem quiet_of_lacks {body : Bytes} (h : s.vault.Lacks i) (hn : Names body i) :
    (s.moment (.request body)).Quiet := by
  rcases s.moment_quiet_or_authorized (.request body) with hquiet | hauth
  · exact hquiet
  · obtain ⟨body', r, k, _, _, _, _, he, hr, hk, _⟩ := hauth
    obtain rfl : body = body' := Event.request.inj he
    exact absurd hk (not_lookup_of_lacks h hn hr)

theorem refused_of_lacks {body : Bytes} {r : Request} (h : s.vault.Lacks i) (hn : Names body i)
    (hr : r.MadeBy body) : (s.moment (.request body)).Refused := by
  have hreq : Dispatcher.requestOf body = .ok r := Dispatcher.requestOf_eq_ok_iff.2 hr
  have hclosed : ¬ Dispatcher.Opens s.vault.lookup (fun k e ↦ e.unpack k) body := by
    rintro ⟨r', k, v, hr', hk, -⟩
    exact not_lookup_of_lacks h hn (Dispatcher.requestOf_eq_ok_iff.1 hr') hk
  obtain ⟨detail, hdispatch⟩ := s.dispatcher.recorded.dispatch_of_not_opens (s.state, s.calls) hreq hclosed
  refine ⟨.failure (.unpack detail), ?_, rfl, rfl⟩
  exact congrArg (fun x : Dispatched (σ × List Call) ↦ Answer.response x.response) hdispatch

/-- The gate: at every moment of a run, handlers are left alone or called with authority, and a revoked
identity has none. -/
theorem calls_authorized (hs : s.vault.Open) (es : List Event) :
    (∀ m ∈ s.history es, m.Faithful s.dispatcher ∧ (m.Quiet ∨ m.Authorized s.dispatcher.handlers)) ∧
    ∀ past m between n future i body, s.history es = past ++ m :: between ++ n :: future →
      m.Revokes i → (∀ b ∈ between, ¬ b.Grants i) → n.event = .request body → Names body i →
      n.Quiet ∧ ∀ r : Request, r.MadeBy body → n.Refused := by
  constructor
  · intro m hm
    obtain ⟨t, e, ht, rfl⟩ := history_invariant (I := fun t ↦ t.dispatcher = s.dispatcher)
      (fun t e ht ↦ (dispatcher_step t e).trans ht) rfl es hm
    exact ht ▸ ⟨t.moment_faithful e, t.moment_quiet_or_authorized e⟩
  · intro past m between n future i body hes hrev hg hn hnames
    rw [List.append_assoc, List.cons_append] at hes
    -- The store is sound up to the revocation, and lacks the key from there to the request.
    obtain ⟨hm, es', hrest⟩ := history_split hes
    have hmem : m ∈ s.history es := by simp [hes]
    obtain ⟨t, e, ht, rfl⟩ := history_invariant (I := fun t ↦ t.vault.Sound)
      (fun t e ht ↦ sound_step t e ht) hs.sound es hmem
    have hlacks := lacks_after ht hm hrev
    obtain ⟨hlacks, hmoment⟩ := lacks_history hlacks hrest.symm hg
    rw [hn] at hmoment
    rw [hmoment]
    exact ⟨quiet_of_lacks hlacks hnames, fun r hr ↦ refused_of_lacks hlacks hnames hr⟩

def onNewDatabase : Service Unit where
  dispatcher := ⟨"basic", ∅, .empty⟩
  vault := ⟨.database ⟨0⟩, (Connection.openDatabase {} { path := "k.db" }).2⟩
  state := ()

theorem open_onNewDatabase : onNewDatabase.vault.Open := by
  have hopen : Connection.openDatabase {} { path := "k.db" } =
    (.opened ⟨0⟩, (Connection.openDatabase {} { path := "k.db" }).2) := rfl
  exact .database Disk.wellFormed_empty hopen

theorem revoke_onNewDatabase (k : Key) :
    ((onNewDatabase.vault.insert ⟨"a"⟩ k).2.revoke ⟨"a"⟩).1 = .ok true := rfl

/-- A key is put in and revoked, and then a request comes in its name. -/
theorem calls_authorized_revoked : ∃ (k : Key) (r : Request) (m n : Moment Unit),
    m.Revokes r.identity ∧ n.event = .request r.toJson.renderBytes ∧
      onNewDatabase.history [.insert r.identity k, .revoke r.identity, .request r.toJson.renderBytes] =
        [onNewDatabase.moment (.insert r.identity k), m, n] ∧
      n.Faithful onNewDatabase.dispatcher ∧ n.Quiet ∧ n.Refused := by
  let r : Request := ⟨⟨"a"⟩, ⟨"", "", ""⟩⟩
  let k : Key := ⟨List.replicate 32 7, rfl⟩
  let es : List Event := [.insert r.identity k, .revoke r.identity, .request r.toJson.renderBytes]
  let m := (onNewDatabase.step (.insert r.identity k)).2.moment (.revoke r.identity)
  let n := m.after.moment (.request r.toJson.renderBytes)
  have hm : m.Revokes r.identity := ⟨rfl, .inr ⟨true, congrArg Answer.revoked (revoke_onNewDatabase k)⟩⟩
  have hr := r.madeBy_toJson
  obtain ⟨hall, hrevoked⟩ := calls_authorized open_onNewDatabase es
  have hnames : Names r.toJson.renderBytes r.identity := by
    obtain ⟨d, hd, hw⟩ := hr
    exact ⟨d, hd, hw.identity⟩
  obtain ⟨hquiet, hrefused⟩ :=
    hrevoked [onNewDatabase.moment (.insert r.identity k)] m [] n [] _ _ rfl hm (by simp) rfl hnames
  have hn : n ∈ onNewDatabase.history es :=
    List.mem_cons_of_mem _ (List.mem_cons_of_mem _ List.mem_cons_self)
  exact ⟨k, r, m, n, hm, rfl, rfl, (hall n hn).1, hquiet, hrefused r hr⟩

end Service

end Gatekeeper
