import Gatekeeper.Proofs.Dispatch.Classification

namespace Gatekeeper

namespace Json

inductive Kind where
  | null
  | bool
  | number
  | string
  | array
  | object
deriving DecidableEq

def kind : Json → Kind
  | null => .null
  | bool _ => .bool
  | integer _ | double _ => .number
  | string _ => .string
  | array _ => .array
  | object _ => .object

theorem kind_eq_string_iff {v : Json} : v.kind = .string ↔ ∃ t, v = .string t := by cases v <;> simp [kind]

theorem kind_eq_object_iff {v : Json} : v.kind = .object ↔ ∃ fields, v = .object fields := by
  cases v <;> simp [kind]

end Json

namespace Schema

def kind : Schema → Json.Kind
  | text => .string
  | object _ => .object

/-- The type keyword at a place of a schema names the kind of the value at a place of a document. -/
inductive Demands : Schema → List String → List String → Json.Kind → Prop
  | here (s : Schema) : Demands s ["type"] [] s.kind
  | property {properties : List (String × Schema)} {name : String} {s : Schema}
      {schemaPath instancePath : List String} {kind : Json.Kind} : (name, s) ∈ properties →
    Demands s schemaPath instancePath kind →
    Demands (.object properties) ("properties" :: name :: schemaPath) (name :: instancePath) kind

def Fails (s : Schema) (d : Json) (m : Mismatch) : Prop :=
  ∃ kind v, s.Demands m.schemaPath m.instancePath kind ∧ d.at? m.instancePath = some v ∧ v.kind ≠ kind

mutual

def IsOrdered : Schema → Prop
  | text => True
  | object properties => (properties.map Prod.fst).Pairwise (· < ·) ∧ AreOrdered properties

def AreOrdered : List (String × Schema) → Prop
  | [] => True
  | (_, s) :: rest => IsOrdered s ∧ AreOrdered rest

end

def Mismatch.below (name : String) (m : Mismatch) : Mismatch :=
  ⟨"properties" :: name :: m.schemaPath, name :: m.instancePath⟩

def Mismatch.under (schemaPath instancePath : List String) (m : Mismatch) : Mismatch :=
  ⟨schemaPath ++ m.schemaPath, instancePath ++ m.instancePath⟩

theorem Mismatch.under_below (schemaPath instancePath : List String) (name : String) (m : Mismatch) :
    (m.below name).under schemaPath instancePath =
      m.under (schemaPath ++ ["properties", name]) (instancePath ++ [name]) := by
  simp [below, under]

mutual

/-- All mismatches, each level before those below it. -/
def mismatches : Schema → Json → List Mismatch
  | text, .string _ => []
  | text, _ => [⟨["type"], []⟩]
  | object properties, .object fields => mismatchesIn properties fields
  | object _, _ => [⟨["type"], []⟩]

def mismatchesIn : List (String × Schema) → List (String × Json) → List Mismatch
  | [], _ => []
  | (name, s) :: rest, fields =>
    (match fields.lookup name with
      | some v => (mismatches s v).map (Mismatch.below name)
      | none => []) ++ mismatchesIn rest fields

end

mutual

theorem mismatchAt_eq (schemaPath instancePath : List String) (s : Schema) (v : Json) :
    mismatchAt schemaPath instancePath s v =
      (mismatches s v).head?.map (Mismatch.under schemaPath instancePath) := by
  match s, v with
  | text, .string _ => rfl
  | text, .null | text, .bool _ | text, .integer _ | text, .double _ | text, .array _ | text, .object _ =>
    simp [mismatchAt, mismatches, Mismatch.under]
  | object properties, .object fields =>
    rw [mismatchAt, mismatches, mismatchIn_eq schemaPath instancePath properties fields]
  | object _, .null | object _, .bool _ | object _, .integer _ | object _, .double _ | object _, .string _
  | object _, .array _ => simp [mismatchAt, mismatches, Mismatch.under]

theorem mismatchIn_eq (schemaPath instancePath : List String) (properties : List (String × Schema))
    (fields : List (String × Json)) :
    mismatchIn schemaPath instancePath properties fields =
      (mismatchesIn properties fields).head?.map (Mismatch.under schemaPath instancePath) := by
  match properties with
  | [] => rfl
  | (name, s) :: rest =>
    rw [mismatchIn, mismatchesIn, mismatchIn_eq schemaPath instancePath rest fields, List.head?_append]
    cases fields.lookup name with
    | none => simp
    | some v =>
      simp only [mismatchAt_eq _ _ s v, List.head?_map, Option.map_or, Option.map_map]
      congr 2
      funext m
      exact (m.under_below schemaPath instancePath name).symm

end

theorem mismatch?_eq_head? (s : Schema) (d : Json) : s.mismatch? d = (s.mismatches d).head? := by
  rw [mismatch?, mismatchAt_eq]
  have hunder : Mismatch.under [] [] = id := rfl
  rw [hunder, Option.map_id, id]

variable {s : Schema} {properties : List (String × Schema)} {fields : List (String × Json)} {d e v : Json}
  {m : Mismatch}

theorem mismatches_of_kind_ne (h : v.kind ≠ s.kind) : mismatches s v = [⟨["type"], []⟩] := by
  cases s with
  | text =>
    cases v with
    | string t => exact absurd rfl h
    | _ => rfl
  | object properties =>
    cases v with
    | object fields => exact absurd rfl h
    | _ => rfl

theorem fails_of_kind_ne (h : v.kind ≠ s.kind) : s.Fails v m ↔ m = ⟨["type"], []⟩ := by
  constructor
  · rintro ⟨kind, w, hdemands, hw, -⟩
    obtain ⟨schemaPath, instancePath⟩ := m
    cases hdemands with
    | here => rfl
    | property hp =>
      -- There is nothing below a value that is no object.
      cases v with
      | object fields => exact absurd rfl h
      | _ => cases hw
  · rintro rfl
    exact ⟨s.kind, v, .here s, rfl, h⟩

theorem not_fails_text (t : String) : ¬ text.Fails (.string t) m := by
  rintro ⟨kind, w, hdemands, hw, hkind⟩
  obtain ⟨schemaPath, instancePath⟩ := m
  cases hdemands with
  | here =>
    obtain rfl := Option.some.inj hw
    exact hkind rfl

theorem fails_object_iff : (object properties).Fails (.object fields) m ↔
    ∃ name s v m', (name, s) ∈ properties ∧ fields.lookup name = some v ∧ s.Fails v m' ∧ m = m'.below name := by
  constructor
  · rintro ⟨kind, w, hdemands, hw, hkind⟩
    obtain ⟨schemaPath, instancePath⟩ := m
    cases hdemands with
    | here =>
      obtain rfl := Option.some.inj hw
      exact absurd rfl hkind
    | @property _ name s schemaPath instancePath _ hp hdemands =>
      obtain ⟨v, hv, hw⟩ := Option.bind_eq_some_iff.1 hw
      exact ⟨name, s, v, ⟨schemaPath, instancePath⟩, hp, hv, ⟨kind, w, hdemands, hw, hkind⟩, rfl⟩
  · rintro ⟨name, s, v, m', hp, hv, ⟨kind, w, hdemands, hw, hkind⟩, rfl⟩
    exact ⟨kind, w, .property hp hdemands, Option.bind_eq_some_iff.2 ⟨v, hv, hw⟩, hkind⟩

mutual

theorem mem_mismatches_iff (s : Schema) (v : Json) (m : Mismatch) : m ∈ mismatches s v ↔ s.Fails v m := by
  by_cases hkind : v.kind = s.kind
  · match s with
    | text =>
      obtain ⟨t, rfl⟩ := Json.kind_eq_string_iff.1 hkind
      simp [mismatches, not_fails_text t]
    | object properties =>
      obtain ⟨fields, rfl⟩ := Json.kind_eq_object_iff.1 hkind
      rw [mismatches, fails_object_iff, mem_mismatchesIn_iff properties fields m]
  · rw [mismatches_of_kind_ne hkind, List.mem_singleton, fails_of_kind_ne hkind]

theorem mem_mismatchesIn_iff (properties : List (String × Schema)) (fields : List (String × Json))
    (m : Mismatch) : m ∈ mismatchesIn properties fields ↔
      ∃ name s v m', (name, s) ∈ properties ∧ fields.lookup name = some v ∧ s.Fails v m' ∧ m = m'.below name := by
  match properties with
  | [] => simp [mismatchesIn]
  | (name, s) :: rest =>
    have hhead : (m ∈ match fields.lookup name with
        | some v => (mismatches s v).map (Mismatch.below name)
        | none => []) ↔ ∃ v m', fields.lookup name = some v ∧ s.Fails v m' ∧ m = m'.below name := by
      cases fields.lookup name with
      | none => simp
      | some v => simp [mem_mismatches_iff s v, eq_comm]
    rw [mismatchesIn, List.mem_append, mem_mismatchesIn_iff rest fields m, hhead]
    constructor
    · rintro (⟨v, m', hv, hfails, rfl⟩ | ⟨name', s', v, m', hp, hv, hfails, rfl⟩)
      · exact ⟨name, s, v, m', List.mem_cons_self, hv, hfails, rfl⟩
      · exact ⟨name', s', v, m', List.mem_cons_of_mem _ hp, hv, hfails, rfl⟩
    · rintro ⟨name', s', v, m', hp, hv, hfails, rfl⟩
      cases List.mem_cons.1 hp with
      | inl heq =>
        cases heq
        exact .inl ⟨v, m', hv, hfails, rfl⟩
      | inr hp => exact .inr ⟨name', s', v, m', hp, hv, hfails, rfl⟩

end

/-- One mismatch comes before another: further out, or below a property with a smaller name. -/
def Mismatch.Precedes (m n : Mismatch) : Prop := m.instancePath < n.instancePath

theorem precedes_below_of_lt {name name' : String} {n : Mismatch} (h : name < name') :
    (m.below name).Precedes (n.below name') := List.cons_lt_cons_iff.2 (.inl h)

theorem precedes_below {name : String} {n : Mismatch} (h : m.Precedes n) :
    (m.below name).Precedes (n.below name) := List.cons_lt_cons_iff.2 (.inr ⟨rfl, h⟩)

mutual

theorem pairwise_mismatches (s : Schema) (v : Json) (hs : s.IsOrdered) :
    (mismatches s v).Pairwise Mismatch.Precedes := by
  by_cases hkind : v.kind = s.kind
  · match s with
    | text =>
      obtain ⟨t, rfl⟩ := Json.kind_eq_string_iff.1 hkind
      exact .nil
    | object properties =>
      obtain ⟨fields, rfl⟩ := Json.kind_eq_object_iff.1 hkind
      rw [mismatches]
      exact pairwise_mismatchesIn properties fields hs.1 hs.2
  · rw [mismatches_of_kind_ne hkind]
    exact List.pairwise_singleton _ _

theorem pairwise_mismatchesIn (properties : List (String × Schema)) (fields : List (String × Json))
    (hnames : (properties.map Prod.fst).Pairwise (· < ·)) (hall : AreOrdered properties) :
    (mismatchesIn properties fields).Pairwise Mismatch.Precedes := by
  match properties with
  | [] => exact .nil
  | (name, s) :: rest =>
    obtain ⟨hname, hnames⟩ := List.pairwise_cons.1 hnames
    have hrest := pairwise_mismatchesIn rest fields hnames hall.2
    rw [mismatchesIn]
    cases hv : fields.lookup name with
    | none => exact hrest
    | some v =>
      have hs := pairwise_mismatches s v hall.1
      refine List.pairwise_append.2 ⟨List.pairwise_map.2 (hs.imp precedes_below), hrest, ?_⟩
      intro m hm n hn
      obtain ⟨m', -, rfl⟩ := List.mem_map.1 hm
      obtain ⟨name', s', v', n', hp, -, -, rfl⟩ := (mem_mismatchesIn_iff rest fields n).1 hn
      exact precedes_below_of_lt (hname name' (List.mem_map.2 ⟨_, hp, rfl⟩))

end

/-- What is told is a mismatch, and all others come behind it. -/
theorem mismatch?_eq_some_iff (hs : s.IsOrdered) : s.mismatch? d = some m ↔
    s.Fails d m ∧ ∀ n, s.Fails d n → n = m ∨ m.Precedes n := by
  have hpairwise := pairwise_mismatches s d hs
  simp only [mismatch?_eq_head?, ← mem_mismatches_iff]
  generalize mismatches s d = ms at hpairwise
  constructor
  · intro h
    obtain ⟨ns, rfl⟩ := List.head?_eq_some_iff.1 h
    refine ⟨List.mem_cons_self, fun n hn ↦ ?_⟩
    exact (List.mem_cons.1 hn).imp_right ((List.pairwise_cons.1 hpairwise).1 n)
  · rintro ⟨hm, hfirst⟩
    cases ms with
    | nil => cases hm
    | cons n ns =>
      rw [List.head?_cons, Option.some.injEq]
      rcases hfirst n List.mem_cons_self with rfl | hbefore
      · rfl
      · rcases List.mem_cons.1 hm with rfl | hm
        · rfl
        · exact absurd ((List.pairwise_cons.1 hpairwise).1 m hm) (List.lt_asymm hbefore)

/-- Two documents have values of the same kinds at all places that a schema looks at, or none. -/
def SameKinds (s : Schema) (d e : Json) : Prop :=
  ∀ schemaPath instancePath kind, s.Demands schemaPath instancePath kind →
    (d.at? instancePath).map Json.kind = (e.at? instancePath).map Json.kind

theorem SameKinds.symm (h : s.SameKinds d e) : s.SameKinds e d :=
  fun schemaPath instancePath kind hdemands ↦ (h schemaPath instancePath kind hdemands).symm

theorem SameKinds.fails (h : s.SameKinds d e) (hm : s.Fails d m) : s.Fails e m := by
  obtain ⟨kind, v, hdemands, hv, hkind⟩ := hm
  have hsame := h _ _ _ hdemands
  rw [hv, Option.map_some, eq_comm, Option.map_eq_some_iff] at hsame
  obtain ⟨w, hw, hsame⟩ := hsame
  exact ⟨kind, w, hdemands, hw, hsame ▸ hkind⟩

theorem SameKinds.mismatch?_eq (h : s.SameKinds d e) (hs : s.IsOrdered) : s.mismatch? d = s.mismatch? e := by
  have hfails (m : Mismatch) : s.Fails d m ↔ s.Fails e m := ⟨h.fails, h.symm.fails⟩
  ext m
  simp only [mismatch?_eq_some_iff hs, hfails]

def pointer (path : List String) : String := String.join (path.map ("/" ++ ·))

theorem slashed_eq_pointer (path : List String) : slashed path = pointer path := by
  rw [slashed, pointer, String.join, List.foldl_map]
  simp only [String.append_assoc]

theorem Mismatch.message_eq (m : Mismatch) : m.message =
    pointer m.schemaPath ++ " failed at " ++ if m.instancePath = [] then "/" else pointer m.instancePath := by
  simp [message, slashed_eq_pointer, toString]

def violation? (s : Schema) (d : Json) : Option String := (s.mismatch? d).map Mismatch.message

/-- A schema tells the first mismatch by its places, if there is one, and nothing else of the document. -/
structure Tells (s : Schema) : Prop where
  isSome_iff (d : Json) : (s.violation? d).isSome ↔ s.conforms d = false
  first {d : Json} {message : String} : s.violation? d = some message → ∃ m, s.Fails d m ∧
    (∀ n, s.Fails d n → n = m ∨ m.Precedes n) ∧ message =
      pointer m.schemaPath ++ " failed at " ++ if m.instancePath = [] then "/" else pointer m.instancePath
  discreet {d e : Json} : s.SameKinds d e → s.violation? d = s.violation? e

theorem tells (hs : s.IsOrdered) : s.Tells where
  isSome_iff d := by
    rw [violation?, Option.isSome_map, ← Bool.not_eq_true, ← mismatchAt_eq_none_iff [] [] s d]
    exact Option.isSome_iff_ne_none
  first h := by
    obtain ⟨m, hm, rfl⟩ := Option.map_eq_some_iff.1 h
    obtain ⟨hfails, hfirst⟩ := (mismatch?_eq_some_iff hs).1 hm
    exact ⟨m, hfails, hfirst, m.message_eq⟩
  discreet h := by rw [violation?, violation?, h.mismatch?_eq hs]

/-- What is told of requests and operations is the place of their first mismatch, and it depends on the kinds
of their values alone. -/
theorem violations_located : request.Tells ∧ operation.Tells := by
  constructor
  · apply tells
    simp only [request, IsOrdered, AreOrdered, and_true]
    decide
  · apply tells
    simp only [operation, IsOrdered, AreOrdered, and_true]
    decide

example : request.violation? (.object [("minted_identity", .string "a"),
    ("operation", .object [("session_key_iv", .null), ("nonce", .array [])])]) =
      some "/properties/operation/properties/session_key_iv/type failed at /operation/session_key_iv" := by
  decide

end Schema

end Gatekeeper
