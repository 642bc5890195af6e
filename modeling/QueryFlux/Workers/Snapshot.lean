import Mathlib.Data.List.Perm.Basic
import QueryFlux.Core.JsonText
import QueryFlux.Workers.Stripped

/-!
# Revisions of snapshots

The revision of a snapshot is the hash of its canonical JSON without the revision itself: the text
with the members of every object in the order of their names. Two values have one canonical text
exactly if they are the same up to the order of members (`writeCanonical_eq_iff`).

Sealing leaves clusters sorted and, if asked, values stripped, and so does leaving out clusters and
members afterwards. Hence sealing again changes nothing, and what a site sees is what its list of
clusters leaves, with a revision of its own (`revisions_identify_content`).
-/

namespace QueryFlux.Core.Json

open List

mutual

def canonical : Json → Json
  | object members => object ((canonicalMembers members).insertionSort fun a b => a.1 ≤ b.1)
  | array items => array (canonicalItems items)
  | null => null
  | bool b => bool b
  | number t => number t
  | string s => string s

def canonicalMembers : Members → Members
  | [] => []
  | (k, v) :: members => (k, canonical v) :: canonicalMembers members

def canonicalItems : List Json → List Json
  | [] => []
  | v :: items => canonical v :: canonicalItems items

end

/-- Members are sorted by key at every level. -/
def writeCanonical (v : Json) : String := v.canonical.toText

mutual

/-- The objects in the value are maps: no two members have one name. -/
def Distinct : Json → Prop
  | object members => (members.map Prod.fst).Nodup ∧ DistinctMembers members
  | array items => DistinctItems items
  | _ => True

def DistinctMembers : Members → Prop
  | [] => True
  | (_, v) :: members => Distinct v ∧ DistinctMembers members

def DistinctItems : List Json → Prop
  | [] => True
  | v :: items => Distinct v ∧ DistinctItems items

end

/-! ## Canonical texts -/

theorem canonicalMembers_eq_map (members : Members) :
    canonicalMembers members = members.map fun m => (m.1, m.2.canonical) := by
  induction members with
  | nil => rfl
  | cons m members ih => rw [canonicalMembers, ih, map_cons]

theorem plainMembers_iff {members : Members} :
    plainMembers members = true ↔ ∀ m ∈ members, m.2.plain = true := by
  induction members with
  | nil => simp [plainMembers]
  | cons m members ih => simp [plainMembers, ih]

mutual

theorem plain_canonical : ∀ {v : Json}, v.plain = true → v.canonical.plain = true
  | object members, h => by
    rw [canonical, plain, plainMembers_iff]
    intro m hm
    exact plainMembers_iff.1 (plainMembers_canonical h) m ((List.mem_insertionSort _).1 hm)
  | array items, h => plainItems_canonical h
  | null, h | bool _, h | number _, h | string _, h => h

theorem plainMembers_canonical : ∀ {members : Members}, plainMembers members = true →
    plainMembers (canonicalMembers members) = true
  | [], h => h
  | _ :: _, h => by
    obtain ⟨hv, hrest⟩ := Bool.and_eq_true_iff.1 h
    exact Bool.and_eq_true_iff.2 ⟨plain_canonical hv, plainMembers_canonical hrest⟩

theorem plainItems_canonical : ∀ {items : List Json}, plainItems items = true →
    plainItems (canonicalItems items) = true
  | [], h => h
  | _ :: _, h => by
    obtain ⟨hv, hrest⟩ := Bool.and_eq_true_iff.1 h
    exact Bool.and_eq_true_iff.2 ⟨plain_canonical hv, plainItems_canonical hrest⟩

end

theorem insertionSort_eq_of_perm {members members' : Members}
    (hnodup : (members.map Prod.fst).Nodup) (hperm : members.Perm members') :
    (members.insertionSort fun a b => a.1 ≤ b.1) =
      members'.insertionSort fun a b => a.1 ≤ b.1 := by
  let le (a b : String × Json) : Prop := a.1 ≤ b.1
  refine Perm.eq_of_pairwise ?_ (pairwise_insertionSort le members)
    (pairwise_insertionSort le members') ((perm_insertionSort le members).trans
      (hperm.trans (perm_insertionSort le members').symm))
  intro a b ha hb hab hba
  exact Lib.Keyed.eq_of_mem hnodup ((mem_insertionSort le).1 ha)
    (hperm.mem_iff.2 ((mem_insertionSort le).1 hb)) (String.le_antisymm hab hba)

theorem canonicalMembers_keys (members : Members) :
    (canonicalMembers members).map Prod.fst = members.map Prod.fst := by
  rw [canonicalMembers_eq_map, map_map]
  rfl

mutual

theorem canonical_eq_of_same : ∀ {v w : Json}, v.Distinct → Same v w → v.canonical = w.canonical
  | object _, _, hd, .object h hperm => by
    have hsame := canonicalMembers_eq_of_same hd.2 h
    rw [canonical, canonical, insertionSort_eq_of_perm (by rw [canonicalMembers_keys]; exact hd.1)]
    rw [hsame, canonicalMembers_eq_map, canonicalMembers_eq_map]
    exact hperm.map _
  | array _, _, hd, .array h => by
    rw [canonical, canonical, canonicalItems_eq_of_same hd h]
  | null, _, _, .null | bool _, _, _, .bool _ | number _, _, _, .number _
  | string _, _, _, .string _ => rfl

theorem canonicalMembers_eq_of_same : ∀ {ms ns : Members}, DistinctMembers ms →
    SameMembers ms ns → canonicalMembers ms = canonicalMembers ns
  | [], _, _, .nil => rfl
  | (_, _) :: _, _, hd, .cons _ h hrest => by
    rw [canonicalMembers, canonicalMembers, canonical_eq_of_same hd.1 h,
      canonicalMembers_eq_of_same hd.2 hrest]

theorem canonicalItems_eq_of_same : ∀ {xs ys : List Json}, DistinctItems xs → SameItems xs ys →
    canonicalItems xs = canonicalItems ys
  | [], _, _, .nil => rfl
  | _ :: _, _, hd, .cons h hrest => by
    rw [canonicalItems, canonicalItems, canonical_eq_of_same hd.1 h,
      canonicalItems_eq_of_same hd.2 hrest]

end

theorem exists_perm_of_map {ms ns : Members}
    (h : (canonicalMembers ms).Perm (canonicalMembers ns)) :
    ∃ ns', ns'.Perm ns ∧ canonicalMembers ms = canonicalMembers ns' := by
  simp only [canonicalMembers_eq_map] at h ⊢
  have hmap : Forall₂ (fun c m => c = (m.1, m.2.canonical))
      (ns.map fun m => (m.1, m.2.canonical)) ns := by
    rw [forall₂_map_left_iff, forall₂_same]
    intro m _
    rfl
  obtain ⟨ns', hns', hperm⟩ := perm_comp_forall₂ h hmap
  refine ⟨ns', hperm, ?_⟩
  rw [← forall₂_eq_eq_eq, forall₂_map_right_iff]
  exact hns'

mutual

theorem same_of_canonical_eq : ∀ {v w : Json}, v.canonical = w.canonical → Same v w
  | object ms, object ns, h => by
    have hsort := Json.object.inj h
    have hperm : (canonicalMembers ms).Perm (canonicalMembers ns) :=
      ((perm_insertionSort _ _).symm.trans (.of_eq hsort)).trans (perm_insertionSort _ _)
    obtain ⟨ns', hns', heq⟩ := exists_perm_of_map hperm
    exact .object (sameMembers_of_canonical_eq heq) hns'
  | array xs, array ys, h => .array (sameItems_of_canonical_eq (Json.array.inj h))
  | null, null, _ => .null
  | bool b, bool _, h => by cases h; exact .bool b
  | number t, number _, h => by cases h; exact .number t
  | string s, string _, h => by cases h; exact .string s

theorem sameMembers_of_canonical_eq : ∀ {ms ns : Members},
    canonicalMembers ms = canonicalMembers ns → SameMembers ms ns
  | [], [], _ => .nil
  | (k, _) :: _, (_, _) :: _, h => by
    obtain ⟨hhead, hrest⟩ := List.cons.inj h
    obtain ⟨rfl, hv⟩ := Prod.mk.inj hhead
    exact .cons k (same_of_canonical_eq hv) (sameMembers_of_canonical_eq hrest)

theorem sameItems_of_canonical_eq : ∀ {xs ys : List Json},
    canonicalItems xs = canonicalItems ys → SameItems xs ys
  | [], [], _ => .nil
  | _ :: _, _ :: _, h => by
    obtain ⟨hhead, hrest⟩ := List.cons.inj h
    exact .cons (same_of_canonical_eq hhead) (sameItems_of_canonical_eq hrest)

end

/-- Equal texts are equal values, up to the order of members. -/
theorem writeCanonical_eq_iff {v w : Json} (hv : v.plain = true) (hw : w.plain = true)
    (hd : v.Distinct) : v.writeCanonical = w.writeCanonical ↔ Same v w := by
  constructor
  · intro h
    exact same_of_canonical_eq (toText_injective (plain_canonical hv) (plain_canonical hw) h)
  · intro h
    rw [writeCanonical, writeCanonical, canonical_eq_of_same hd h]

def remove (key : String) : Json → Json
  | object members => object (members.filter fun m => m.1 != key)
  | v => v

end QueryFlux.Core.Json

namespace QueryFlux.Workers

open Core

/-! ## Stripping twice -/

mutual

theorem strip_idem : ∀ (inHeaders : Bool) (v : Json),
    stripCredentialsIn inHeaders (stripCredentialsIn inHeaders v) = stripCredentialsIn inHeaders v
  | h, .object members => congrArg Json.object (stripMembers_idem h members)
  | h, .array items => congrArg Json.array (stripItems_idem h items)
  | _, .null | _, .bool _ | _, .number _ | _, .string _ => rfl

theorem stripMembers_idem : ∀ (inHeaders : Bool) (members : Members),
    stripMembers inHeaders (stripMembers inHeaders members) = stripMembers inHeaders members
  | _, [] => rfl
  | h, (k, v) :: members => by
    rw [stripMembers]
    split_ifs with hk
    · exact stripMembers_idem h members
    · rw [stripMembers, if_neg hk, strip_idem _ v, stripMembers_idem h members]

theorem stripItems_idem : ∀ (inHeaders : Bool) (items : List Json),
    stripItems inHeaders (stripItems inHeaders items) = stripItems inHeaders items
  | _, [] => rfl
  | h, v :: items => by
    rw [stripItems, stripItems, strip_idem h v, stripItems_idem h items]

end

theorem SnapshotCluster.strip_idem (c : SnapshotCluster) : c.strip.strip = c.strip := by
  simp only [SnapshotCluster.strip, stripCredentials, Workers.strip_idem]

theorem SnapshotSettings.strip_idem (s : SnapshotSettings) : s.strip.strip = s.strip := by
  simp only [SnapshotSettings.strip, Option.map_map, SnapshotSettings.mk.injEq]
  have h : stripCredentials ∘ stripCredentials = stripCredentials :=
    funext (Workers.strip_idem false)
  rw [h]
  exact ⟨rfl, rfl, rfl, rfl⟩

theorem stripExtra_idem (extra : List (String × Json)) :
    stripExtra (stripExtra extra) = stripExtra extra := by
  induction extra with
  | nil => rfl
  | cons m extra ih =>
    by_cases hm : isCredentialKey m.1 = true
    · simpa [stripExtra, hm] using ih
    · simpa [stripExtra, hm, stripCredentials, Workers.strip_idem] using ih

variable {ρ : Type}

/-- What sealing leaves: the clusters in order and, if asked, nothing to strip. -/
structure WorkerSnapshotV1.Normal (s : WorkerSnapshotV1 ρ) : Prop where
  sorted : s.clusters.Pairwise fun a b => a.name ≤ b.name
  clusters : s.credentials = .stripped → ∀ c ∈ s.clusters, c.strip = c
  settings : s.credentials = .stripped → s.settings.strip = s.settings
  extra : s.credentials = .stripped → stripExtra s.extra = s.extra

theorem WorkerSnapshotV1.normal_seal (computeRevision : WorkerSnapshotV1 ρ → String)
    (s : WorkerSnapshotV1 ρ) : (s.seal computeRevision).Normal := by
  obtain ⟨revision, mode, clusters, settings, extra, rest⟩ := s
  cases mode with
  | embedded => exact ⟨List.pairwise_insertionSort _ _, nofun, nofun, nofun⟩
  | stripped =>
    refine ⟨List.pairwise_insertionSort _ _, ?_, fun _ => settings.strip_idem,
      fun _ => stripExtra_idem extra⟩
    intro _ c hc
    obtain ⟨c, _, rfl⟩ := List.mem_map.1 ((List.mem_insertionSort _).1 hc)
    exact c.strip_idem

def WorkerSnapshotV1.withRevision (s : WorkerSnapshotV1 ρ) (revision : String) :
    WorkerSnapshotV1 ρ :=
  { s with revision }

theorem WorkerSnapshotV1.Normal.seal_eq {s : WorkerSnapshotV1 ρ} (h : s.Normal)
    (computeRevision : WorkerSnapshotV1 ρ → String) :
    s.seal computeRevision = s.withRevision (computeRevision s) := by
  have hsort := h.sorted.insertionSort_eq
  obtain ⟨revision, mode, clusters, settings, extra, rest⟩ := s
  cases mode with
  | embedded => simp only [WorkerSnapshotV1.seal, WorkerSnapshotV1.withRevision, hsort]
  | stripped =>
    have hclusters := List.map_congr_left (h.clusters rfl)
    rw [List.map_id'] at hclusters
    simp only [WorkerSnapshotV1.seal, WorkerSnapshotV1.withRevision, WorkerSnapshotV1.strip,
      hclusters, h.settings rfl, h.extra rfl, hsort]

/-! ## Sites -/

structure SnapshotGroup (γ : Type) where
  members : List String
  config : γ

/-- The fields that sealing copies: the groups by name, and the others. -/
structure SnapshotRest (γ δ : Type) where
  groups : List (String × SnapshotGroup γ)
  other : δ

section Sites

variable {γ δ : Type}

/-- Only these clusters, also in the groups. -/
def WorkerSnapshotV1.restrict (s : WorkerSnapshotV1 (SnapshotRest γ δ)) (clusters : List String) :
    WorkerSnapshotV1 (SnapshotRest γ δ) :=
  { s with
    clusters := s.clusters.filter fun c => clusters.contains c.name
    rest := { s.rest with
      groups := s.rest.groups.map fun g =>
        (g.1, { g.2 with members := g.2.members.filter fun m => clusters.contains m }) } }

/-- What is left of a list are, in their order, all elements with a name of `A`. -/
structure KeptBy {α : Type} (name : α → String) (A : List String) (l l' : List α) : Prop where
  sublist : l'.Sublist l
  mem_iff : ∀ x, x ∈ l' ↔ x ∈ l ∧ name x ∈ A
  all : ∀ n ∈ A, l'.filter (name · = n) = l.filter (name · = n)

/-- Only the clusters and the members of groups that `A` names are kept, and nothing else but the
revision is changed. -/
structure OnlyNamed (A : List String) (s s' : WorkerSnapshotV1 (SnapshotRest γ δ)) : Prop where
  clusters : KeptBy SnapshotCluster.name A s.clusters s'.clusters
  groups : List.Forall₂ (fun g g' => g'.1 = g.1 ∧ g'.2.config = g.2.config ∧
    KeptBy id A g.2.members g'.2.members) s.rest.groups s'.rest.groups
  credentials : s'.credentials = s.credentials
  settings : s'.settings = s.settings
  extra : s'.extra = s.extra
  other : s'.rest.other = s.rest.other

theorem keptBy_filter {α : Type} (name : α → String) (A : List String) (l : List α) :
    KeptBy name A l (l.filter fun x => A.contains (name x)) where
  sublist := List.filter_sublist
  mem_iff x := by simp
  all n hn := by
    rw [List.filter_filter]
    refine List.filter_congr fun x _ => ?_
    by_cases hx : name x = n
    · simp [hx, hn]
    · simp [hx]

variable {s : WorkerSnapshotV1 (SnapshotRest γ δ)}

theorem onlyNamed_restrict (s : WorkerSnapshotV1 (SnapshotRest γ δ)) (A : List String)
    (revision : String) : OnlyNamed A s ((s.restrict A).withRevision revision) where
  clusters := keptBy_filter SnapshotCluster.name A s.clusters
  groups := by
    refine List.forall₂_map_right_iff.2 (List.forall₂_same.2 fun g _ => ?_)
    exact ⟨rfl, rfl, keptBy_filter id A g.2.members⟩
  credentials := rfl
  settings := rfl
  extra := rfl
  other := rfl

theorem WorkerSnapshotV1.Normal.restrict (h : s.Normal) (clusters : List String) :
    (s.restrict clusters).Normal where
  sorted := h.sorted.filter _
  clusters hmode c hc := h.clusters hmode c (List.mem_filter.1 hc).1
  settings := h.settings
  extra := h.extra

theorem WorkerSnapshotV1.restrict_restrict (s : WorkerSnapshotV1 (SnapshotRest γ δ))
    (A B : List String) : (s.restrict A).restrict B = s.restrict (A ∩ B) := by
  have hmem (x : String) : (B.contains x && A.contains x) = (A ∩ B).contains x := by
    rw [Bool.eq_iff_iff]
    simp [and_comm]
  simp only [WorkerSnapshotV1.restrict, List.filter_filter, List.map_map, Function.comp_def, hmem]

abbrev OtherMembers (ρ : Type) : Type :=
  CredentialMode → List SnapshotCluster → SnapshotSettings → List (String × Json) → ρ → Members

variable (hash : String → String) (otherMembers : OtherMembers ρ)

def WorkerSnapshotV1.toValue (s : WorkerSnapshotV1 ρ) : Json :=
  .object (("revision", .string s.revision) ::
    otherMembers s.credentials s.clusters s.settings s.extra s.rest)

/-- The hash of everything but the revision. -/
def WorkerSnapshotV1.computeRevision (s : WorkerSnapshotV1 ρ) : String :=
  hash ((s.toValue otherMembers).remove "revision").writeCanonical

def WorkerSnapshotV1.isSealed (s : WorkerSnapshotV1 ρ) : Bool :=
  s.revision == s.computeRevision hash otherMembers

theorem WorkerSnapshotV1.computeRevision_withRevision (s : WorkerSnapshotV1 ρ) (r : String) :
    (s.withRevision r).computeRevision hash otherMembers =
      s.computeRevision hash otherMembers := by
  simp [computeRevision, toValue, withRevision, Json.remove]

theorem WorkerSnapshotV1.seal_revision (s : WorkerSnapshotV1 ρ) :
    let s' := s.seal (·.computeRevision hash otherMembers)
    s'.revision = s'.computeRevision hash otherMembers := by
  obtain ⟨revision, mode, clusters, settings, extra, rest⟩ := s
  cases mode <;> exact (computeRevision_withRevision hash otherMembers _ _).symm

variable (otherMembers : OtherMembers (SnapshotRest γ δ))

def WorkerSnapshotV1.forSite (s : WorkerSnapshotV1 (SnapshotRest γ δ)) (clusters : List String) :
    WorkerSnapshotV1 (SnapshotRest γ δ) :=
  (s.restrict clusters).seal (·.computeRevision hash otherMembers)

theorem WorkerSnapshotV1.Normal.forSite_eq (h : s.Normal) (clusters : List String) :
    s.forSite hash otherMembers clusters = (s.restrict clusters).withRevision
      ((s.restrict clusters).computeRevision hash otherMembers) :=
  (h.restrict clusters).seal_eq _

theorem WorkerSnapshotV1.Normal.forSite_forSite (h : s.Normal) (A B : List String) :
    (s.forSite hash otherMembers A).forSite hash otherMembers B =
      s.forSite hash otherMembers (A ∩ B) := by
  have hA : (s.forSite hash otherMembers A).Normal := (s.restrict A).normal_seal _
  -- restricting leaves the revision of the first site, which sealing then replaces
  have hrestrict : (s.forSite hash otherMembers A).restrict B =
      (s.restrict (A ∩ B)).withRevision (s.forSite hash otherMembers A).revision := by
    rw [← s.restrict_restrict, h.forSite_eq]
    rfl
  rw [hA.forSite_eq, hrestrict, computeRevision_withRevision, h.forSite_eq _ _ (A ∩ B)]
  rfl

end Sites

/-! ## Revisions -/

/-- Canonical texts are those of the values up to the order of members; and of a sealed snapshot a
site sees, sealed again, what it names, by whatever way. -/
theorem revisions_identify_content :
    (∀ v w : Json, v.plain = true → w.plain = true → v.Distinct → w.Distinct →
      (v.writeCanonical = w.writeCanonical ↔ v.Same w)) ∧
    ∀ {γ δ : Type} (hash : String → String) (otherMembers : OtherMembers (SnapshotRest γ δ))
      (s₀ : WorkerSnapshotV1 (SnapshotRest γ δ)) (A B : List String),
      let s := s₀.seal (·.computeRevision hash otherMembers)
      let siteA := s.forSite hash otherMembers A
      s.seal (·.computeRevision hash otherMembers) = s ∧
        siteA.isSealed hash otherMembers = true ∧
        OnlyNamed A s siteA ∧
        siteA.forSite hash otherMembers B = s.forSite hash otherMembers (A ∩ B) := by
  refine ⟨fun v w hv hw hd _ => Json.writeCanonical_eq_iff hv hw hd, ?_⟩
  intro γ δ hash otherMembers s₀ A B s siteA
  have hs : s.Normal := s₀.normal_seal _
  refine ⟨?_, ?_, ?_, hs.forSite_forSite hash otherMembers A B⟩
  · rw [hs.seal_eq, ← s₀.seal_revision]
    rfl
  · exact beq_iff_eq.2 ((s.restrict A).seal_revision hash otherMembers)
  · rw [show siteA = _ from hs.forSite_eq hash otherMembers A]
    exact onlyNamed_restrict s A _

def twoSites : WorkerSnapshotV1 (SnapshotRest Unit Unit) where
  revision := ""
  credentials := .stripped
  clusters := [⟨"b", true, "trino", none, .null, .null⟩, ⟨"a", true, "trino", some 2, .null, .null⟩]
  settings := ⟨none, none, none, none⟩
  extra := []
  rest := ⟨[("etl", ⟨["b", "a"], ()⟩)], ()⟩

/-- Two orders of the members, and a snapshot for one of two sites. -/
theorem swapped_members_one_text :
    (Json.object [("a", .null), ("b", .null)]).writeCanonical =
      (Json.object [("b", .null), ("a", .null)]).writeCanonical ∧
    let s := twoSites.seal (·.computeRevision id fun _ _ _ _ _ => [])
    (s.forSite id (fun _ _ _ _ _ => []) ["a"]).isSealed id (fun _ _ _ _ _ => []) = true ∧
      OnlyNamed ["a"] s (s.forSite id (fun _ _ _ _ _ => []) ["a"]) := by
  have hd (k l : String) (h : k ≠ l) : (Json.object [(k, .null), (l, .null)]).Distinct := by
    simpa [Json.Distinct, Json.DistinctMembers] using h
  obtain ⟨-, hsealed, hnamed, -⟩ :=
    revisions_identify_content.2 id (fun _ _ _ _ _ => []) twoSites ["a"] []
  exact ⟨(revisions_identify_content.1 _ _ (by decide) (by decide) (hd "a" "b" (by decide))
    (hd "b" "a" (by decide))).2 (.object (.refl _) (.swap _ _ _)), hsealed, hnamed⟩

end QueryFlux.Workers
