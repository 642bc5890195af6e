import Mathlib.Data.List.Infix
import Mathlib.Data.List.Sort
import QueryFlux.Routing.Json

/-!
# A snapshot without credentials

`seal` of `worker_snapshot.rs`. A snapshot that is to carry no credentials has every credential-like
key removed from the JSON of its clusters, of its settings and of the top-level fields this version
does not know, and the headers that carry credentials from every `headers` map.

`strip_atPath` says what is left at any path into a value: nothing behind a removed key, and
otherwise the value that was there, itself stripped. From it follows what a stripped value is
(`StrippedOf`): no key in it names a credential, and nothing else was changed. The walk starts anew
at each unknown top-level field and does not see that field's own name, so a field that is itself a
`headers` map keeps its credential headers (`topLevel_headers_kept`); with such a field, and only
then, the sealed snapshot carries a credential (`seal_stripped`).
-/

/-! ## Credentials -/

namespace QueryFlux.Core.Json

inductive PathStep
  | member (k : String)
  | item (i : Nat)
  deriving DecidableEq

def atPath : Json → List PathStep → Option Json
  | v, [] => some v
  | v, .member k :: p => (v.get k).bind fun w => atPath w p
  | v, .item i :: p => (v.asArray.bind fun items => items[i]?).bind fun w => atPath w p

end QueryFlux.Core.Json

namespace QueryFlux.Workers

open Core Json

/-- A key that contains one of these is a credential. -/
def credentialNeedles : List String :=
  ["password", "passwd", "secret", "token", "privatekey", "private_key", "passphrase",
    "credential", "apikey", "api_key", "auth_key"]

def isCredentialKey (key : String) : Bool :=
  let k := (toAsciiLowercase key.toList).map fun c => if c = '-' then '_' else c
  (credentialNeedles.any fun needle => decide (needle.toList <:+: k)) &&
    !(k == "authtype".toList || k == "tokenexchange".toList)

def credentialHeaders : List String := ["authorization", "proxy-authorization", "cookie"]

def isCredentialHeader (key : String) : Bool :=
  credentialHeaders.any fun h => eqIgnoreAsciiCase key.toList h.toList

def isHeaders (key : String) : Bool := eqIgnoreAsciiCase key.toList "headers".toList

/-- The keys that are removed, inside a `headers` map or elsewhere. -/
def isRemoved (inHeaders : Bool) (key : String) : Bool :=
  isCredentialKey key || inHeaders && isCredentialHeader key

mutual

def stripCredentialsIn (inHeaders : Bool) : Json → Json
  | .object members => .object (stripMembers inHeaders members)
  | .array items => .array (stripItems inHeaders items)
  | .null => .null
  | .bool b => .bool b
  | .number text => .number text
  | .string s => .string s

def stripMembers (inHeaders : Bool) : List (String × Json) → List (String × Json)
  | [] => []
  | (k, v) :: members =>
    if isRemoved inHeaders k then stripMembers inHeaders members
    else (k, stripCredentialsIn (inHeaders || isHeaders k) v) :: stripMembers inHeaders members

def stripItems (inHeaders : Bool) : List Json → List Json
  | [] => []
  | v :: items => stripCredentialsIn inHeaders v :: stripItems inHeaders items

end

def stripCredentials (v : Json) : Json := stripCredentialsIn false v

def removedAt (inHeaders : Bool) : List PathStep → Bool
  | [] => false
  | .member k :: p => isRemoved inHeaders k || removedAt (inHeaders || isHeaders k) p
  | .item _ :: p => removedAt inHeaders p

/-- Somewhere on the path there is a `headers` map. -/
def headersAt (inHeaders : Bool) : List PathStep → Bool
  | [] => inHeaders
  | .member k :: p => headersAt (inHeaders || isHeaders k) p
  | .item _ :: p => headersAt inHeaders p

/-! ## What the walk leaves at a path -/

section Strip

variable {inHeaders : Bool}

theorem stripItems_eq_map (items : List Json) :
    stripItems inHeaders items = items.map (stripCredentialsIn inHeaders) := by
  induction items with
  | nil => rfl
  | cons _ _ ih => rw [stripItems, ih, List.map_cons]

theorem stripMembers_keys (members : List (String × Json)) :
    (stripMembers inHeaders members).map Prod.fst =
      (members.map Prod.fst).filter fun k => !isRemoved inHeaders k := by
  induction members with
  | nil => rfl
  | cons m _ ih =>
    rw [stripMembers]
    by_cases hk : isRemoved inHeaders m.1 = true <;> simp [hk, ih]

theorem strip_get (v : Json) (k : String) :
    (stripCredentialsIn inHeaders v).get k =
      if isRemoved inHeaders k then none
      else (v.get k).map (stripCredentialsIn (inHeaders || isHeaders k)) := by
  cases v with
  | object members =>
    induction members with
    | nil => simp [stripCredentialsIn, stripMembers]
    | cons m _ ih =>
      obtain ⟨k', w⟩ := m
      simp only [stripCredentialsIn, stripMembers] at ih ⊢
      by_cases hm : k' = k
      · subst hm
        by_cases hk : isRemoved inHeaders k' = true
        · simpa [hk] using ih
        · simp [hk]
      · by_cases hk : isRemoved inHeaders k' = true <;> simpa [hk, hm] using ih
  | _ => simp [stripCredentialsIn, Json.get]

theorem strip_item (v : Json) (i : Nat) :
    ((stripCredentialsIn inHeaders v).asArray.bind fun items => items[i]?) =
      (v.asArray.bind fun items => items[i]?).map (stripCredentialsIn inHeaders) := by
  cases v with
  | array => simp [stripCredentialsIn, stripItems_eq_map]
  | _ => simp [stripCredentialsIn]

theorem strip_atPath (v : Json) (p : List PathStep) :
    (stripCredentialsIn inHeaders v).atPath p =
      if removedAt inHeaders p then none
      else (v.atPath p).map (stripCredentialsIn (headersAt inHeaders p)) := by
  induction p generalizing v inHeaders with
  | nil => simp [atPath, removedAt, headersAt]
  | cons step p ih =>
    cases step with
    | member k =>
      simp only [atPath, strip_get, removedAt, headersAt]
      by_cases hk : isRemoved inHeaders k = true
      · simp [hk]
      · cases hget : v.get k with
        | none => simp [hk]
        | some => simp [hk, ih]
    | item i =>
      rw [removedAt, headersAt, atPath, atPath, strip_item]
      cases v.asArray.bind fun items => items[i]? with
      | none =>
        cases removedAt inHeaders p with
        | false | true => rfl
      | some w => exact ih w

end Strip

/-- One level of a value and of what is left of it. -/
def SameLevel (inHeaders : Bool) (v v' : Json) : Prop :=
  match v, v' with
  | .object members, .object members' =>
    members'.map Prod.fst = (members.map Prod.fst).filter fun k => !isRemoved inHeaders k
  | .array items, .array items' => items'.length = items.length
  | v, v' => v' = v

/-- No credential is left at any level, and whatever is not below one is unchanged. -/
structure StrippedOf (inHeaders : Bool) (v v' : Json) : Prop where
  clean : ∀ p members, v'.atPath p = some (.object members) → ∀ m ∈ members,
    isCredentialKey m.1 = false ∧ (headersAt inHeaders p = true → isCredentialHeader m.1 = false)
  unchanged : ∀ p, removedAt inHeaders p = false →
    Option.Rel (SameLevel (headersAt inHeaders p)) (v.atPath p) (v'.atPath p)

theorem sameLevel_strip (inHeaders : Bool) (v : Json) :
    SameLevel inHeaders v (stripCredentialsIn inHeaders v) := by
  cases v with
  | object members => exact stripMembers_keys members
  | array =>
    simp [stripCredentialsIn, SameLevel, stripItems_eq_map]
  | _ => rfl

theorem strippedOf_strip (inHeaders : Bool) (v : Json) :
    StrippedOf inHeaders v (stripCredentialsIn inHeaders v) where
  clean := by
    intro p members hp m hm
    rw [strip_atPath] at hp
    split at hp
    · cases hp
    · obtain ⟨w, -, hw⟩ := Option.map_eq_some_iff.1 hp
      have hlevel := sameLevel_strip (headersAt inHeaders p) w
      rw [hw] at hlevel
      cases w with
      | object =>
        have hkey : m.1 ∈ members.map Prod.fst := List.mem_map_of_mem hm
        rw [hlevel, List.mem_filter] at hkey
        have hkept := hkey.2
        simp only [isRemoved, Bool.not_eq_true', Bool.or_eq_false_iff] at hkept
        refine ⟨hkept.1, ?_⟩
        intro hheaders
        simpa [hheaders] using hkept.2
      | _ => cases hlevel
  unchanged := by
    intro p hp
    rw [strip_atPath, hp]
    cases v.atPath p with
    | none => exact .none
    | some w => exact .some (sameLevel_strip _ w)

/-! ## Sealing a snapshot -/

inductive CredentialMode
  | embedded | stripped
  deriving DecidableEq

structure SnapshotCluster where
  name : String
  enabled : Bool
  engineKey : String
  maxRunningQueries : Option Int
  config : Json
  variants : Json

/-- The settings sections; `none` is not configured. -/
structure SnapshotSettings where
  guardrails : Option Json
  security : Option Json
  catalog : Option Json
  accessControl : Option Json

/-- A snapshot. The fields that sealing only copies are in `rest`: the schema version, the groups,
the routers and their fallback, the scripts, and the policies for history and translation. -/
structure WorkerSnapshotV1 (ρ : Type) where
  revision : String
  credentials : CredentialMode
  clusters : List SnapshotCluster
  settings : SnapshotSettings
  extra : List (String × Json)
  rest : ρ

def SnapshotCluster.strip (c : SnapshotCluster) : SnapshotCluster :=
  { c with config := stripCredentials c.config, variants := stripCredentials c.variants }

def SnapshotSettings.strip (s : SnapshotSettings) : SnapshotSettings where
  guardrails := s.guardrails.map stripCredentials
  security := s.security.map stripCredentials
  catalog := s.catalog.map stripCredentials
  accessControl := s.accessControl.map stripCredentials

def stripExtra (extra : List (String × Json)) : List (String × Json) :=
  (extra.filter fun m => !isCredentialKey m.1).map fun m => (m.1, stripCredentials m.2)

variable {ρ : Type}

def WorkerSnapshotV1.strip (s : WorkerSnapshotV1 ρ) : WorkerSnapshotV1 ρ :=
  { s with
    clusters := s.clusters.map SnapshotCluster.strip
    settings := s.settings.strip
    extra := stripExtra s.extra }

def WorkerSnapshotV1.seal (computeRevision : WorkerSnapshotV1 ρ → String)
    (s : WorkerSnapshotV1 ρ) : WorkerSnapshotV1 ρ :=
  let s := match s.credentials with
    | .stripped => s.strip
    | .embedded => s
  let s := { s with clusters := s.clusters.insertionSort fun a b => a.name ≤ b.name }
  { s with revision := computeRevision s }

structure StrippedCluster (c c' : SnapshotCluster) : Prop where
  same : c' = { c with config := c'.config, variants := c'.variants }
  config : StrippedOf false c.config c'.config
  variants : StrippedOf false c.variants c'.variants

structure StrippedSettings (s s' : SnapshotSettings) : Prop where
  guardrails : Option.Rel (StrippedOf false) s.guardrails s'.guardrails
  security : Option.Rel (StrippedOf false) s.security s'.security
  catalog : Option.Rel (StrippedOf false) s.catalog s'.catalog
  accessControl : Option.Rel (StrippedOf false) s.accessControl s'.accessControl

structure StrippedField (m m' : String × Json) : Prop where
  key : m'.1 = m.1
  notCredential : isCredentialKey m'.1 = false
  value : StrippedOf (isHeaders m.1) m.2 m'.2

theorem strippedSection (value : Option Json) :
    Option.Rel (StrippedOf false) value (value.map stripCredentials) := by
  cases value with
  | none => exact .none
  | some v => exact .some (strippedOf_strip false v)

theorem strippedClusters (clusters : List SnapshotCluster) :
    List.Forall₂ StrippedCluster clusters (clusters.map SnapshotCluster.strip) := by
  rw [List.forall₂_map_right_iff, List.forall₂_same]
  intro c _
  exact ⟨rfl, strippedOf_strip false _, strippedOf_strip false _⟩

/-! ## A top-level field that is a `headers` map -/

/-- What a field of this value keeps when it is walked without its own name: an object with a
credential header, which is neither behind a removed key nor in a `headers` map further down. -/
def ExposesHeader (v : Json) : Prop :=
  ∃ p members, removedAt false p = false ∧ headersAt false p = false ∧
    v.atPath p = some (.object members) ∧
    ∃ m ∈ members, isCredentialHeader m.1 = true ∧ isCredentialKey m.1 = false

theorem headersAt_true (p : List PathStep) : headersAt true p = true := by
  induction p with
  | nil => rfl
  | cons step p ih =>
    cases step with
    | member k => exact ih
    | item i => exact ih

theorem removedAt_false {p : List PathStep} (h : removedAt true p = false) :
    removedAt false p = false := by
  induction p with
  | nil => rfl
  | cons step p ih =>
    cases step with
    | member k =>
      simp only [removedAt, isRemoved, Bool.true_and, Bool.true_or, Bool.or_eq_false_iff] at h ⊢
      refine ⟨⟨h.1.1, rfl⟩, ?_⟩
      cases isHeaders k with
      | false => exact ih h.2
      | true => exact h.2
    | item i => exact ih h

theorem clean_of_not_exposes {v : Json} (h : ¬ ExposesHeader v) {p : List PathStep}
    {members : List (String × Json)}
    (hp : (stripCredentialsIn false v).atPath p = some (.object members)) {m : String × Json}
    (hm : m ∈ members) : isCredentialHeader m.1 = false := by
  obtain ⟨hkey, hheader⟩ := (strippedOf_strip false v).clean p members hp m hm
  rw [strip_atPath] at hp
  split at hp
  · cases hp
  · rename_i hkept
    obtain ⟨w, hw, hstrip⟩ := Option.map_eq_some_iff.1 hp
    cases hin : headersAt false p with
    | true => exact hheader hin
    | false =>
      -- the entry stands in the value as it was, outside of any `headers` map
      by_contra hcredential
      have hlevel := sameLevel_strip (headersAt false p) w
      rw [hstrip] at hlevel
      cases w with
      | object before =>
        have hmem : m.1 ∈ members.map Prod.fst := List.mem_map_of_mem hm
        rw [hlevel, List.mem_filter] at hmem
        obtain ⟨m', hm', hsame⟩ := List.mem_map.1 hmem.1
        refine h ⟨p, before, by simpa using hkept, hin, hw, m', hm', ?_, ?_⟩
        · rw [hsame]
          simpa using hcredential
        · rw [hsame]
          exact hkey
      | _ => cases hlevel

theorem sameLevel_of_not_exposes {v w : Json} (h : ¬ ExposesHeader v) {p : List PathStep}
    (hp : removedAt false p = false) (hw : v.atPath p = some w) :
    SameLevel true w (stripCredentialsIn (headersAt false p) w) := by
  cases w with
  | object members =>
    simp only [SameLevel, stripCredentialsIn]
    rw [stripMembers_keys]
    refine List.filter_congr fun k hk => ?_
    obtain ⟨m, hm, rfl⟩ := List.mem_map.1 hk
    cases hin : headersAt false p with
    | true => rfl
    | false =>
      have hnot : isCredentialHeader m.1 = true → isCredentialKey m.1 = true := by
        intro hheader
        by_contra hkey
        exact h ⟨p, members, hp, hin, hw, m, hm, hheader, by simpa using hkey⟩
      cases hkey : isCredentialKey m.1 with
      | true => simp [isRemoved, hkey]
      | false =>
        have hheader : isCredentialHeader m.1 = false := by
          by_contra hheader
          rw [hnot (by simpa using hheader)] at hkey
          cases hkey
        simp [isRemoved, hheader]
  | array items => simp [stripCredentialsIn, SameLevel, stripItems_eq_map]
  | _ => rfl

/-- A field that is itself a `headers` map is stripped as one exactly when the walk that does not
know its name leaves no credential header in it. -/
theorem strippedOf_headers_iff (v : Json) :
    StrippedOf true v (stripCredentials v) ↔ ¬ ExposesHeader v := by
  constructor
  · rintro hstripped ⟨p, members, hkept, hin, hw, m, hm, hheader, hkey⟩
    have hafter : (stripCredentials v).atPath p = some (.object (stripMembers false members)) := by
      rw [stripCredentials, strip_atPath, hkept, hw, hin]
      rfl
    have hmem : m.1 ∈ (stripMembers false members).map Prod.fst := by
      rw [stripMembers_keys, List.mem_filter]
      exact ⟨List.mem_map_of_mem hm, by simp [isRemoved, hkey]⟩
    obtain ⟨m', hm', hsame⟩ := List.mem_map.1 hmem
    have hclean := (hstripped.clean p _ hafter m' hm').2 (headersAt_true p)
    rw [hsame, hheader] at hclean
    cases hclean
  · intro h
    refine ⟨fun p members hp m hm => ?_, fun p hp => ?_⟩
    · exact ⟨((strippedOf_strip false v).clean p members hp m hm).1,
        fun _ => clean_of_not_exposes h hp hm⟩
    · have hkept := removedAt_false hp
      rw [headersAt_true, stripCredentials, strip_atPath, hkept]
      cases hw : v.atPath p with
      | none => exact .none
      | some w => exact .some (sameLevel_of_not_exposes h hkept hw)

/-- Top-level fields are stripped unless a `headers` map is exposed. -/
theorem strippedExtra_iff (extra : List (String × Json)) :
    List.Forall₂ StrippedField (extra.filter fun m => !isCredentialKey m.1) (stripExtra extra) ↔
      ∀ m ∈ extra, isCredentialKey m.1 = false → isHeaders m.1 = true → ¬ ExposesHeader m.2 := by
  unfold stripExtra
  rw [List.forall₂_map_right_iff, List.forall₂_same]
  constructor
  · intro h m hmem hkey hheaders
    have hvalue := (h m (List.mem_filter.2 ⟨hmem, by simp [hkey]⟩)).value
    rw [hheaders] at hvalue
    exact (strippedOf_headers_iff m.2).1 hvalue
  · intro h m hm
    obtain ⟨hmem, hkey⟩ := List.mem_filter.1 hm
    have hcredential : isCredentialKey m.1 = false := by simpa using hkey
    refine ⟨rfl, hcredential, ?_⟩
    cases hheaders : isHeaders m.1 with
    | false => exact strippedOf_strip false m.2
    | true => exact (strippedOf_headers_iff m.2).2 (h m hmem hcredential hheaders)

/-- What is sealed without credentials carries none and is otherwise what it was, exactly when no
unknown top-level field is a `headers` map that exposes a credential header. -/
theorem seal_stripped (computeRevision : WorkerSnapshotV1 ρ → String) (s : WorkerSnapshotV1 ρ)
    (hmode : s.credentials = .stripped) :
    let s' := s.seal computeRevision
    ((∃ clusters, List.Forall₂ StrippedCluster s.clusters clusters ∧ s'.clusters.Perm clusters) ∧
      StrippedSettings s.settings s'.settings ∧
      List.Forall₂ StrippedField (s.extra.filter fun m => !isCredentialKey m.1) s'.extra ∧
      s'.credentials = s.credentials ∧ s'.rest = s.rest) ↔
      ∀ m ∈ s.extra, isCredentialKey m.1 = false → isHeaders m.1 = true →
        ¬ ExposesHeader m.2 := by
  intro s'
  have hs' : s' = s.seal computeRevision := rfl
  simp only [WorkerSnapshotV1.seal, hmode] at hs'
  rw [hs']
  constructor
  · intro h
    exact (strippedExtra_iff s.extra).1 h.2.2.1
  · intro h
    refine ⟨⟨_, strippedClusters s.clusters, List.perm_insertionSort _ _⟩, ?_,
      (strippedExtra_iff s.extra).2 h, rfl, rfl⟩
    exact ⟨strippedSection _, strippedSection _, strippedSection _, strippedSection _⟩

def fieldSnapshot (key : String) : WorkerSnapshotV1 Unit where
  revision := ""
  credentials := .stripped
  clusters := [⟨"trino", true, "trino", none, .object [("authPassword", .string "p")], .array []⟩]
  settings := ⟨none, none, none, none⟩
  extra := [(key, .object [("Authorization", .string "Bearer t")])]
  rest := ()

/-- The field is not called `headers`. -/
theorem fieldSnapshot_stripped :
    let s' := (fieldSnapshot "webhook").seal fun _ => "0"
    List.Forall₂ StrippedField
      ((fieldSnapshot "webhook").extra.filter fun m => !isCredentialKey m.1) s'.extra := by
  have hextra : ∀ m ∈ (fieldSnapshot "webhook").extra, isHeaders m.1 = false := by decide +kernel
  refine ((seal_stripped (fun _ => "0") (fieldSnapshot "webhook") rfl).2 ?_).2.2.1
  intro m hm _ hheaders
  rw [hextra m hm] at hheaders
  cases hheaders

/-- The walk starts below the field. -/
theorem topLevel_headers_kept : ∃ s : WorkerSnapshotV1 Unit, s.credentials = .stripped ∧
    ∃ members, ("headers", .object members) ∈ (s.seal fun _ => "0").extra ∧
      ("Authorization", .string "Bearer t") ∈ members ∧
      isCredentialHeader "Authorization" = true := by
  refine ⟨fieldSnapshot "headers", rfl, [("Authorization", .string "Bearer t")], ?_,
    (.head _), by decide⟩
  have hkey : isCredentialKey "headers" = false := by decide +kernel
  have hkept : isRemoved false "Authorization" = false := by decide +kernel
  simp [fieldSnapshot, WorkerSnapshotV1.seal, WorkerSnapshotV1.strip, stripExtra, stripCredentials,
    stripCredentialsIn, stripMembers, hkey, hkept]

end QueryFlux.Workers
