import Mathlib.Data.List.Infix
import Mathlib.Data.List.Nodup
import Mathlib.Logic.Function.Basic
import QueryFlux.Core.Query
import QueryFlux.Lib.Lists
import QueryFlux.Lib.Results

/-!
# Names of runtime clusters

A cluster with variants is run as one cluster for each of them, named by the cluster and the variant
with `::` in between. Names of variants are checked and names of clusters are not, so a cluster can
be named like the variant of another, or end with the colon a variant starts with (`Collides`). If
no two clusters do, each runtime cluster has the adapter built for it
(`runtime_names_distinct_iff`).
-/

namespace QueryFlux.ConfigSync

open Core Lib List

variable {γ α : Type}

structure ClusterVariant (γ : Type) where
  name : String
  overrides : γ

inductive ClusterSource (γ : Type)
  | yaml (engine : Bool) (config : γ)
  | persisted (config : γ) (variants : List (ClusterVariant γ))

structure ClusterSpec (γ : Type) where
  name : String
  enabled : Bool
  source : ClusterSource γ

structure RuntimeCluster (γ : Type) where
  name : String
  parent : String
  enabled : Bool
  -- whether the engine key parses
  engine : Bool
  recipe : γ

section
-- `deep_merge` with the connection options of a driver
variable (merge : γ → γ → γ)

def expandVariants (baseName : String) (config : γ) :
    List String → List (ClusterVariant γ) → Except String (List (String × γ))
  | _, [] => .ok []
  | seen, v :: variants =>
    if v.name = "" then .error ("cluster '" ++ baseName ++ "': variant name cannot be empty")
    else if "::".toList <:+: v.name.toList then
      .error ("cluster '" ++ baseName ++ "': variant name '" ++ v.name ++ "' must not contain '::'")
    else if v.name ∈ seen then
      .error ("cluster '" ++ baseName ++ "': duplicate variant name '" ++ v.name ++ "'")
    else
      (expandVariants baseName config (v.name :: seen) variants).map
        ((baseName ++ "::" ++ v.name, merge config v.overrides) :: ·)

def expandClusterVariants (baseName : String) (config : γ) (variants : List (ClusterVariant γ)) :
    Except String (List (String × γ)) :=
  expandVariants merge baseName config [] variants

-- the engine of a configuration, unless its limits or its `queryAuth` are invalid
variable (parse : γ → Except String Bool)

/-- The runtime clusters of one specification: itself, or one for each variant. -/
def clustersOf (spec : ClusterSpec γ) : Except String (List (RuntimeCluster γ)) :=
  match spec.source with
  | .yaml engine config => .ok [⟨spec.name, spec.name, spec.enabled, engine, config⟩]
  | .persisted config variants =>
    (parse config).map fun engine =>
      if variants.isEmpty then [⟨spec.name, spec.name, spec.enabled, engine, config⟩]
      else
        match expandClusterVariants merge spec.name config variants with
        | .ok expanded => expanded.map fun e => ⟨e.1, spec.name, spec.enabled, engine, e.2⟩
        | .error _ => []

def runtimeClusters (specs : List (ClusterSpec γ)) : Except String (List (RuntimeCluster γ)) :=
  (specs.mapM (clustersOf merge parse)).map List.flatten

end

section
-- the fingerprints of the last build, that of a recipe, and the adapter built for a cluster
variable (prev : String → Option String) (fingerprint : γ → String)
  (build : RuntimeCluster γ → Option α)

/-- The adapter under the name of a cluster, given the one that is there. -/
def adapterFor (rc : RuntimeCluster γ) (cached : Option α) : Option α :=
  if !rc.enabled || !rc.engine then none
  else if cached.isSome ∧ prev rc.name = some (fingerprint rc.recipe) then cached
  else build rc

/-- One map by name: a later cluster of the same name replaces the adapter. -/
def buildAdapters (cache : String → Option α) (clusters : List (RuntimeCluster γ)) :
    String → Option α :=
  clusters.foldl (fun cache rc =>
    Function.update cache rc.name (adapterFor prev fingerprint build rc (cache rc.name))) cache

theorem buildAdapters_of_not_mem {name : String} {clusters : List (RuntimeCluster γ)}
    (h : name ∉ clusters.map RuntimeCluster.name) (cache : String → Option α) :
    buildAdapters prev fingerprint build cache clusters name = cache name := by
  induction clusters generalizing cache with
  | nil => rfl
  | cons rc clusters ih =>
    rw [map_cons, mem_cons, not_or] at h
    exact (ih h.2 _).trans (Function.update_of_ne h.1 _ _)

theorem buildAdapters_apply {clusters : List (RuntimeCluster γ)}
    (h : (clusters.map RuntimeCluster.name).Nodup) {rc : RuntimeCluster γ} (hrc : rc ∈ clusters)
    (cache : String → Option α) :
    buildAdapters prev fingerprint build cache clusters rc.name =
      adapterFor prev fingerprint build rc (cache rc.name) := by
  induction clusters generalizing cache with
  | nil => cases hrc
  | cons head clusters ih =>
    obtain ⟨hhead, hrest⟩ := nodup_cons.1 h
    rcases mem_cons.1 hrc with rfl | hrc
    · exact (buildAdapters_of_not_mem _ _ _ hhead _).trans (Function.update_self ..)
    · have hne : rc.name ≠ head.name := fun heq => hhead (heq ▸ mem_map_of_mem hrc)
      exact (ih hrest hrc _).trans (congrArg _ (Function.update_of_ne hne _ _))

end

/-! ## The names a cluster gives -/

variable (merge : γ → γ → γ) in
/-- The variants a cluster is run as, where none is the cluster itself. -/
def ClusterSpec.runs (spec : ClusterSpec γ) : List (Option String) :=
  match spec.source with
  | .yaml .. => [none]
  | .persisted config variants =>
    if variants.isEmpty then [none]
    else
      match expandClusterVariants merge spec.name config variants with
      | .ok _ => variants.map (some ∘ ClusterVariant.name)
      | .error _ => []

def ClusterSpec.runtimeName (spec : ClusterSpec γ) : Option String → String
  | none => spec.name
  | some variant => spec.name ++ "::" ++ variant

/-- The second cluster is named like a variant of the first; or like the first with a colon, and a
variant of the first is one of the second with a colon in front. -/
def Collides (spec spec' : ClusterSpec γ) : Option String → Option String → Prop
  | some v, none => spec'.name = spec.name ++ "::" ++ v
  | some v, some v' => spec'.name = spec.name ++ ":" ∧ v = ":" ++ v'
  | none, _ => False

instance (spec spec' : ClusterSpec γ) : ∀ v v', Decidable (Collides spec spec' v v')
  | some _, none => inferInstanceAs (Decidable (_ = _))
  | some _, some _ => inferInstanceAs (Decidable (_ ∧ _))
  | none, _ => inferInstanceAs (Decidable False)

variable {merge : γ → γ → γ} {parse : γ → Except String Bool} {spec : ClusterSpec γ}
  {clusters : List (RuntimeCluster γ)}

theorem expandVariants_eq_ok {baseName : String} {config : γ} {seen : List String}
    {variants : List (ClusterVariant γ)} {out : List (String × γ)}
    (h : expandVariants merge baseName config seen variants = .ok out) :
    out.map Prod.fst = (variants.map ClusterVariant.name).map (baseName ++ "::" ++ ·) ∧
      (variants.map ClusterVariant.name).Nodup ∧
      ∀ v ∈ variants, v.name ∉ seen ∧ ¬ "::".toList <:+: v.name.toList := by
  induction variants generalizing seen out with
  | nil =>
    cases h
    exact ⟨rfl, nodup_nil, by simp⟩
  | cons v variants ih =>
    rw [expandVariants] at h
    split_ifs at h with hempty hcolons hseen
    obtain ⟨rest, hrest, rfl⟩ := exists_of_map_eq_ok h
    obtain ⟨hnames, hnodup, hfresh⟩ := ih hrest
    refine ⟨congrArg _ hnames, nodup_cons.2 ⟨fun hmem => ?_, hnodup⟩, forall_mem_cons.2
      ⟨⟨hseen, hcolons⟩, fun w hw => ⟨fun hmem => (hfresh w hw).1 (.tail _ hmem),
        (hfresh w hw).2⟩⟩⟩
    obtain ⟨w, hw, heq⟩ := mem_map.1 hmem
    exact (hfresh w hw).1 (heq ▸ .head _)

theorem clustersOf_names (h : clustersOf merge parse spec = .ok clusters) :
    clusters.map RuntimeCluster.name = (spec.runs merge).map spec.runtimeName := by
  unfold clustersOf at h
  unfold ClusterSpec.runs
  split at h
  · cases h
    rfl
  · obtain ⟨engine, -, rfl⟩ := exists_of_map_eq_ok h
    split
    · rfl
    · split
      · rename_i expanded hexpand
        have hnames := (expandVariants_eq_ok hexpand).1
        rw [map_map] at hnames ⊢
        rw [map_map]
        exact hnames
      · rfl

theorem nodup_runs (merge : γ → γ → γ) (spec : ClusterSpec γ) : (spec.runs merge).Nodup := by
  unfold ClusterSpec.runs
  split
  · exact nodup_singleton _
  · split
    · exact nodup_singleton _
    · split
      · rename_i expanded hexpand
        rw [← map_map]
        exact (expandVariants_eq_ok hexpand).2.1.map (Option.some_injective _)
      · exact nodup_nil

theorem not_colons_of_mem_runs {v : String} (h : some v ∈ spec.runs merge) :
    ¬ "::".toList <:+: v.toList := by
  unfold ClusterSpec.runs at h
  split at h
  · simp at h
  · split at h
    · simp at h
    · split at h
      · rename_i expanded hexpand
        obtain ⟨variant, hvariant, heq⟩ := mem_map.1 h
        cases heq
        exact ((expandVariants_eq_ok hexpand).2.2 variant hvariant).2
      · cases h

theorem runtimeName_injective (spec : ClusterSpec γ) : spec.runtimeName.Injective := by
  intro v v' h
  have hne (variant : String) : spec.name ≠ spec.name ++ "::" ++ variant := by
    intro heq
    simpa using congrArg (length ∘ String.toList) heq
  match v, v' with
  | none, none => rfl
  | some v, some v' => simpa [ClusterSpec.runtimeName] using h
  | none, some v' => exact (hne v' h).elim
  | some v, none => exact (hne v h.symm).elim

/-! ## Names of two clusters -/

/-- Of two texts with the same colons, the second is the first or has one colon of them. -/
theorem colons_cases {a x y : List Char} (hx : ¬ "::".toList <:+: x)
    (h : ':' :: ':' :: x = a ++ ':' :: ':' :: y) : a = [] ∨ a = [':'] ∧ x = ':' :: y := by
  match a with
  | [] => exact .inl rfl
  | [c] =>
    obtain ⟨rfl, hrest⟩ := cons.inj h
    exact .inr ⟨rfl, (cons.inj hrest).2⟩
  | c :: d :: a =>
    obtain ⟨-, h⟩ := cons.inj h
    obtain ⟨-, rfl⟩ := cons.inj h
    exact absurd ⟨a, y, by simp⟩ hx

theorem runtimeName_eq_iff {spec' : ClusterSpec γ} (hne : spec.name ≠ spec'.name)
    {v v' : Option String} (hv : v ∈ spec.runs merge) (hv' : v' ∈ spec'.runs merge) :
    spec.runtimeName v = spec'.runtimeName v' ↔
      Collides spec spec' v v' ∨ Collides spec' spec v' v := by
  match v, v' with
  | none, none => simp [ClusterSpec.runtimeName, Collides, hne]
  | none, some v' => simp [ClusterSpec.runtimeName, Collides]
  | some v, none => simp [ClusterSpec.runtimeName, Collides, eq_comm]
  | some v, some v' =>
    simp only [ClusterSpec.runtimeName, Collides, ← String.toList_inj, String.toList_append,
      append_assoc]
    have hcolons : "::".toList = [':', ':'] := rfl
    have hcolon : ":".toList = [':'] := rfl
    rw [hcolons, hcolon]
    constructor
    · intro h
      have hnames : spec.name.toList ≠ spec'.name.toList := fun heq => hne (String.toList_inj.1 heq)
      obtain ⟨a, hname, hrest⟩ | ⟨a, hname, hrest⟩ := append_eq_append_iff.1 h
      · obtain rfl | ⟨rfl, hv⟩ := colons_cases (not_colons_of_mem_runs hv) hrest
        · exact absurd (by simpa using hname.symm) hnames
        · exact .inl ⟨hname, hv⟩
      · obtain rfl | ⟨rfl, hv'⟩ := colons_cases (not_colons_of_mem_runs hv') hrest
        · exact absurd (by simpa using hname) hnames
        · exact .inr ⟨hname, hv'⟩
    · rintro (⟨hname, hv⟩ | ⟨hname, hv⟩)
      · simp [hname, hv]
      · simp [hname, hv]

theorem Collides.ne {spec' : ClusterSpec γ} {v v' : Option String}
    (h : Collides spec spec' v v') : spec.name ≠ spec'.name := by
  have hlonger (t : String) (ht : 0 < t.toList.length) : spec.name ≠ spec.name ++ t := by
    intro heq
    have hlength := congrArg (length ∘ String.toList) heq
    simp only [Function.comp_apply, String.toList_append, length_append] at hlength
    omega
  match v, v', h with
  | some v, none, h =>
    rw [h, String.append_assoc]
    exact hlonger _ (by simp)
  | some v, some v', h =>
    rw [h.1]
    exact hlonger _ (by decide)

theorem names_of_specs {specs : List (ClusterSpec γ)} {lists : List (List (RuntimeCluster γ))}
    (h : List.Forall₂ (fun spec cs => clustersOf merge parse spec = .ok cs) specs lists) :
    lists.flatten.map RuntimeCluster.name =
      specs.flatMap fun spec => (spec.runs merge).map spec.runtimeName := by
  induction h with
  | nil => rfl
  | cons hspec _ ih => rw [flatten_cons, map_append, ih, clustersOf_names hspec, flatMap_cons]

/-- Two names are equal only if a name with a variant is the name of another. -/
theorem names_nodup_iff {specs : List (ClusterSpec γ)}
    (hnames : (specs.map ClusterSpec.name).Nodup) :
    (specs.flatMap fun spec => (spec.runs merge).map spec.runtimeName).Nodup ↔
      ∀ spec ∈ specs, ∀ spec' ∈ specs, ∀ v ∈ spec.runs merge, ∀ v' ∈ spec'.runs merge,
        ¬ Collides spec spec' v v' := by
  rw [nodup_flatMap, and_iff_right fun spec _ =>
    (nodup_runs merge spec).map (runtimeName_injective spec)]
  constructor
  · intro hdisjoint spec hspec spec' hspec' v hv v' hv' hcollides
    have : Std.Symm (Function.onFun Disjoint fun spec : ClusterSpec γ =>
        (spec.runs merge).map spec.runtimeName) := ⟨fun _ _ h => h.symm⟩
    have hne : spec ≠ spec' := fun heq => hcollides.ne (congrArg _ heq)
    refine hdisjoint.forall hspec hspec' hne (mem_map_of_mem hv) ?_
    rw [(runtimeName_eq_iff hcollides.ne hv hv').2 (.inl hcollides)]
    exact mem_map_of_mem hv'
  · intro h
    rw [Nodup, pairwise_map] at hnames
    refine hnames.imp_of_mem fun {spec spec'} hspec hspec' hne name hname hname' => ?_
    obtain ⟨v, hv, rfl⟩ := mem_map.1 hname
    obtain ⟨v', hv', heq⟩ := mem_map.1 hname'
    obtain hcollides | hcollides := (runtimeName_eq_iff hne hv hv').1 heq.symm
    · exact h spec hspec spec' hspec' v hv v' hv' hcollides
    · exact h spec' hspec' spec hspec v' hv' v hv hcollides

/-- The runtime names are distinct, and each runtime cluster has the adapter built for it, if and
only if no two clusters collide. -/
theorem runtime_names_distinct_iff {specs : List (ClusterSpec γ)}
    (hnames : (specs.map ClusterSpec.name).Nodup)
    (h : runtimeClusters merge parse specs = .ok clusters) :
    ((clusters.map RuntimeCluster.name).Nodup ∧
      ∀ (prev : String → Option String) (fingerprint : γ → String)
        (build : RuntimeCluster γ → Option α) (cache : String → Option α), ∀ rc ∈ clusters,
        buildAdapters prev fingerprint build cache clusters rc.name =
          adapterFor prev fingerprint build rc (cache rc.name)) ↔
    ∀ spec ∈ specs, ∀ spec' ∈ specs, ∀ v ∈ spec.runs merge, ∀ v' ∈ spec'.runs merge,
      ¬ Collides spec spec' v v' := by
  obtain ⟨lists, hlists, rfl⟩ := exists_of_map_eq_ok h
  rw [← names_nodup_iff hnames, names_of_specs (mapM_eq_ok_iff.1 hlists)]
  refine and_iff_left_of_imp fun hnodup prev fingerprint build cache rc hrc => ?_
  rw [← names_of_specs (mapM_eq_ok_iff.1 hlists)] at hnodup
  exact buildAdapters_apply prev fingerprint build hnodup hrc cache

def withVariant (name variant : String) : ClusterSpec String :=
  ⟨name, true, .persisted name [⟨variant, variant⟩]⟩

def plainSpec (name : String) : ClusterSpec String := ⟨name, true, .yaml true name⟩

/-- A cluster with a variant and one without. -/
theorem runtime_names_of_two : ∃ clusters, runtimeClusters (fun a b => a ++ b) (fun _ => .ok true)
      [withVariant "a" "x", plainSpec "b"] = .ok clusters ∧
      (clusters.map RuntimeCluster.name).Nodup := by
  have hok : runtimeClusters (fun a b => a ++ b) (fun _ => .ok true)
      [withVariant "a" "x", plainSpec "b"] = .ok _ := rfl
  refine ⟨_, hok, ((runtime_names_distinct_iff (α := Unit) (by decide) hok).2 ?_).1⟩
  decide

/-- The adapter of the cluster `a::b` is under the name of the variant `b` of `a`. -/
theorem runtime_names_collide :
    ((runtimeClusters (fun a b => a ++ b) (fun _ => .ok true)
      [withVariant "a" "b", plainSpec "a::b"]).map fun clusters =>
        (clusters.map fun rc => (rc.name, rc.parent),
          buildAdapters (fun _ => none) id (fun rc => some rc.recipe) (fun _ => none) clusters
            "a::b")) =
      .ok ([("a::b", "a"), ("a::b", "a::b")], some "a::b") := by
  rfl

end QueryFlux.ConfigSync
