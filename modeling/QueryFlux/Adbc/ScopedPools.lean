import QueryFlux.Lib.Rows
import QueryFlux.Lib.Transition

/-!
# Scoped connection pools

`ScopedPools` caches the connection pools of an ADBC adapter by their scope. An entry goes when it
was idle for too long or, if there is no room, when it is the least recently used. A caller that
builds a pool has a lock of its key, which the cache only refers to weakly: a lock lives as long as
some caller has a reference to it, and entries of dead locks are pruned. A pool is built for a key,
`builtFor`, and is inserted by a caller who holds the lock of that key.
-/

namespace QueryFlux.Adbc

open Lib List

/-- `ScopedPools::new` asserts that neither limit is zero. -/
structure Limits where
  idleTimeout : Nat
  maxCount : Nat
  idleTimeout_pos : 0 < idleTimeout
  maxCount_pos : 0 < maxCount

/-! ## The registry -/

structure Entry (κ ρ : Type) where
  key : κ
  pool : ρ
  lastUsed : Nat
  deriving DecidableEq

/-- A caller's reference to a build lock, and whether the caller has locked it. -/
structure LockRef (κ : Type) where
  key : κ
  lock : Nat
  held : Bool
  deriving DecidableEq

/-- The cached pools, the lock of each key being built, the gauge and the references held to locks.
-/
structure State (κ ρ : Type) where
  now : Nat
  entries : List (Entry κ ρ)
  builds : κ → Option Nat
  gauge : Int
  refs : List (LockRef κ)
  nextLock : Nat
  -- every insertion and every hit so far
  uses : List (Entry κ ρ)

section Operations

variable {κ ρ : Type} [DecidableEq κ] (l : Limits) (t : Nat) (key : κ) (s : State κ ρ)

def idle (e : Entry κ ρ) : Bool := l.idleTimeout ≤ t - e.lastUsed

def Entry.usedAt (e : Entry κ ρ) : Entry κ ρ := { e with lastUsed := t }

def get : Option ρ × State κ ρ :=
  match s.entries.find? (·.key = key) with
  | none => (none, s)
  | some e =>
    if idle l t e then (none, s)
    else (some e.pool, { s with
      entries := s.entries.map fun x => if x.key = key then x.usedAt t else x
      uses := e.usedAt t :: s.uses })

/-- Locks that nobody refers to are dropped. -/
def pruned : κ → Option Nat := fun k =>
  (s.builds k).filter fun lock => s.refs.any (·.lock == lock)

/-- The lock of a key, made if there is none, and a reference to it. -/
def buildLock : State κ ρ :=
  match pruned s key with
  | some lock => { s with builds := pruned s, refs := ⟨key, lock, false⟩ :: s.refs }
  | none => { s with
    builds := Function.update (pruned s) key (some s.nextLock)
    refs := ⟨key, s.nextLock, false⟩ :: s.refs
    nextLock := s.nextLock + 1 }

def acquire (r : LockRef κ) : Option (State κ ρ) :=
  if r ∈ s.refs ∧ ¬s.refs.any fun x => x.held && x.lock == r.lock then
    some { s with refs := ⟨r.key, r.lock, true⟩ :: s.refs.erase r }
  else none

def removeIdle : State κ ρ :=
  let removed := s.entries.filter (idle l t)
  { s with
    entries := s.entries.filter fun e => !idle l t e
    gauge := s.gauge - removed.length
    builds := pruned s }

def remove : State κ ρ :=
  if hasKey Entry.key s.entries key then
    { s with entries := s.entries.filter (·.key != key), gauge := s.gauge - 1 }
  else s

/-- The entry used longest ago; which of several is not known. -/
def isLru (lru : κ) (entries : List (Entry κ ρ)) : Bool :=
  entries.any fun e => e.key = lru ∧ entries.all (e.lastUsed ≤ ·.lastUsed)

/-- Among several least recently used entries the map's order decides, here the choice of `lru`. -/
def makeRoom (lru : κ) : Option (State κ ρ) :=
  let s := remove key (removeIdle l t s)
  if s.entries.length < l.maxCount then some s
  else if isLru lru s.entries then some (remove lru s)
  else none

def insert (pool : ρ) (lru : κ) : Option (State κ ρ) :=
  (makeRoom l t key s lru).map fun s => { s with
    entries := s.entries ++ [⟨key, pool, t⟩]
    gauge := s.gauge + 1
    uses := ⟨key, pool, t⟩ :: s.uses }

end Operations

inductive Move (κ ρ : Type)
  | get (key : κ)
  | buildLock (key : κ)
  | acquire (r : LockRef κ)
  -- the reference is dropped, and its guard with it
  | release (r : LockRef κ)
  | insert (key : κ) (pool : ρ) (lru : κ)
  | sweep

variable {κ ρ : Type} [DecidableEq κ]

def act (l : Limits) (t : Nat) (s : State κ ρ) : Move κ ρ → Option (State κ ρ)
  | .get key => some (get l t key s).2
  | .buildLock key => some (buildLock key s)
  | .acquire r => acquire s r
  | .release r => some { s with refs := s.refs.erase r }
  | .insert key pool lru => insert l t key s pool lru
  | .sweep => some (removeIdle l t s)

def system (l : Limits) : System (State κ ρ) (Nat × Move κ ρ) where
  init s := s = ⟨0, [], fun _ => none, 0, [], 0, []⟩
  step s m := act l m.1 { s with now := m.1 } m.2

variable (builtFor : ρ → κ)

def mayInsert (s : State κ ρ) : Move κ ρ → Bool
  | .insert key pool _ => builtFor pool = key && s.refs.any fun r => r.held && r.key = key
  | _ => true

/-- Time does not decrease, and a pool is inserted under the key it was built for, by a holder of
that key's lock. -/
def Allowed (s : State κ ρ) (m : Nat × Move κ ρ) : Prop :=
  s.now ≤ m.1 ∧ mayInsert builtFor s m.2 = true

instance (s : State κ ρ) (m : Nat × Move κ ρ) : Decidable (Allowed builtFor s m) :=
  inferInstanceAs (Decidable (_ ∧ _))

/-! ## Pools and the gauge -/

section Cache

variable {builtFor} {l : Limits} {t : Nat} {key : κ} {s s' : State κ ρ}
  {entries entries' uses : List (Entry κ ρ)}

variable (builtFor l entries uses) in
/-- The cache is bounded, has one pool for each key, and each pool was built for its key. -/
structure Cached : Prop where
  bounded : entries.length ≤ l.maxCount
  keyed : Keyed Entry.key entries
  built : ∀ e ∈ entries, builtFor e.pool = e.key
  used : ∀ e ∈ entries, e ∈ uses

omit [DecidableEq κ] in
theorem Cached.sublist (h : Cached builtFor l entries uses) (hsub : entries'.Sublist entries) :
    Cached builtFor l entries' uses where
  bounded := Nat.le_trans hsub.length_le h.bounded
  keyed := List.Nodup.sublist (hsub.map Entry.key) h.keyed
  built e he := h.built e (hsub.subset he)
  used e he := h.used e (hsub.subset he)

variable (builtFor l s) in
/-- The gauge counts the entries of the cache. -/
def Counted : Prop := Cached builtFor l s.entries s.uses ∧ s.gauge = s.entries.length

theorem Counted.get (h : Counted builtFor l s) : Counted builtFor l (get l t key s).2 := by
  unfold Adbc.get
  split
  · exact h
  · rename_i e hfind
    obtain ⟨he, hkey⟩ := h.1.keyed.find?_eq_some_iff.1 hfind
    have hsame (x : Entry κ ρ) : (if x.key = key then x.usedAt t else x).key = x.key ∧
        (if x.key = key then x.usedAt t else x).pool = x.pool := by
      split_ifs <;> exact ⟨rfl, rfl⟩
    split_ifs
    · exact h
    · refine ⟨⟨?_, h.1.keyed.map fun x => (hsame x).1, ?_, ?_⟩, ?_⟩
      · rw [length_map]
        exact h.1.bounded
      · intro y hy
        obtain ⟨x, hx, rfl⟩ := mem_map.1 hy
        rw [(hsame x).1, (hsame x).2]
        exact h.1.built x hx
      · intro y hy
        obtain ⟨x, hx, rfl⟩ := mem_map.1 hy
        split_ifs with hxkey
        · rw [h.1.keyed.eq_of_mem hx he (hxkey.trans hkey.symm)]
          exact .head _
        · exact .tail _ (h.1.used x hx)
      · rw [length_map]
        exact h.2

omit [DecidableEq κ] in
theorem Counted.removeIdle (h : Counted builtFor l s) : Counted builtFor l (removeIdle l t s) := by
  refine ⟨h.1.sublist filter_sublist, ?_⟩
  have hlen := length_eq_length_filter_add (l := s.entries) (idle l t)
  simp only [Adbc.removeIdle, h.2]
  omega

theorem length_filter_key (h : Keyed Entry.key entries) (hkey : hasKey Entry.key entries key) :
    (entries.filter (·.key != key)).length + 1 = entries.length := by
  obtain ⟨e, hfind⟩ := Option.isSome_iff_exists.1 (isSome_find?.trans hkey)
  exact (h.perm_cons_filter hfind).length_eq.symm

theorem Counted.remove (h : Counted builtFor l s) (key : κ) :
    Counted builtFor l (remove key s) := by
  unfold Adbc.remove
  split_ifs with hkey
  · refine ⟨h.1.sublist filter_sublist, ?_⟩
    have hlen := length_filter_key h.1.keyed hkey
    simp only [h.2]
    omega
  · exact h

theorem entries_remove (key : κ) (s : State κ ρ) :
    (remove key s).entries = s.entries.filter (·.key != key) := by
  unfold remove
  split_ifs with hkey
  · rfl
  · symm
    simpa [hasKey] using hkey

variable (l t key s) in
/-- The entries of other keys that are not idle. -/
def others : List (Entry κ ρ) := s.entries.filter fun e => e.key != key && !idle l t e

theorem entries_others : (remove key (removeIdle l t s)).entries = others l t key s := by
  rw [entries_remove, removeIdle, others, filter_filter]

structure Room (builtFor : ρ → κ) (l : Limits) (t : Nat) (key lru : κ) (s room : State κ ρ) :
    Prop where
  counted : Counted builtFor l room
  free : room.entries.length < l.maxCount
  fresh : ¬hasKey Entry.key room.entries key = true
  entries : room.entries = others l t key s ∨
    isLru lru (others l t key s) = true ∧ room.entries = (others l t key s).filter (·.key != lru)

theorem room_of_makeRoom (h : Counted builtFor l s) {lru : κ} {room : State κ ρ}
    (hroom : makeRoom l t key s lru = some room) : Room builtFor l t key lru s room := by
  have hothers : Counted builtFor l (remove key (removeIdle l t s)) := h.removeIdle.remove key
  have hfresh {kept : List (Entry κ ρ)} (hkept : kept.Sublist (others l t key s)) :
      ¬hasKey Entry.key kept key = true := by
    rw [hasKey_iff]
    rintro ⟨e, he, rfl⟩
    simpa using (mem_filter.1 (hkept.subset he)).2
  unfold makeRoom at hroom
  dsimp only at hroom
  split_ifs at hroom with hfree hlru
  · cases hroom
    refine ⟨hothers, hfree, ?_, .inl entries_others⟩
    rw [entries_others]
    exact hfresh (.refl _)
  · cases hroom
    have hentries := entries_remove lru (remove key (removeIdle l t s))
    rw [entries_others] at hfree hlru hentries
    have hkey : hasKey Entry.key (others l t key s) lru = true := by
      obtain ⟨e, he, hmin⟩ := any_eq_true.1 hlru
      exact hasKey_iff.2 ⟨e, he, (of_decide_eq_true hmin).1⟩
    refine ⟨hothers.remove lru, ?_, ?_, .inr ⟨hlru, hentries⟩⟩
    · have hcached := hothers.1
      rw [entries_others] at hcached
      have hlen := length_filter_key hcached.keyed hkey
      have hle := hcached.bounded
      rw [hentries]
      omega
    · rw [hentries]
      exact hfresh filter_sublist

theorem Room.insert {lru : κ} {room : State κ ρ} (h : Room builtFor l t key lru s room) {pool : ρ}
    (hpool : builtFor pool = key) :
    Cached builtFor l (room.entries ++ [⟨key, pool, t⟩]) (⟨key, pool, t⟩ :: room.uses) where
  bounded := by
    rw [length_append]
    exact h.free
  keyed := h.counted.1.keyed.concat h.fresh
  built := forall_mem_append.2 ⟨h.counted.1.built, forall_mem_singleton.2 hpool⟩
  used := forall_mem_append.2 ⟨fun e he => .tail _ (h.counted.1.used e he),
    forall_mem_singleton.2 (.head _)⟩

theorem Counted.act (h : Counted builtFor l s) {m : Move κ ρ}
    (hpool : ∀ key pool lru, m = .insert key pool lru → builtFor pool = key)
    (hact : act l t s m = some s') : Counted builtFor l s' := by
  cases m with
  | get key => cases hact; exact h.get
  | buildLock key =>
    cases hact
    unfold buildLock
    split <;> exact h
  | acquire r =>
    unfold Adbc.act acquire at hact
    dsimp only at hact
    split_ifs at hact
    cases hact
    exact h
  | release r => cases hact; exact h
  | insert key pool lru =>
    obtain ⟨room, hroom, rfl⟩ := Option.map_eq_some_iff.1 hact
    have hroom := room_of_makeRoom h hroom
    refine ⟨hroom.insert (hpool key pool lru rfl), ?_⟩
    simp [hroom.counted.2]
  | sweep => cases hact; exact h.removeIdle

end Cache

section Locks

variable {l : Limits} {t : Nat} {key : κ} {s s' : State κ ρ} {builds : κ → Option Nat}
  {refs : List (LockRef κ)} {r : LockRef κ}

/-- The cache knows the lock of every reference, and no lock is held twice. -/
structure Locked (builds : κ → Option Nat) (refs : List (LockRef κ)) : Prop where
  current : ∀ r ∈ refs, builds r.key = some r.lock
  exclusive : Keyed LockRef.lock (refs.filter (·.held))

/-! ## Build locks -/

omit [DecidableEq κ] in
theorem pruned_eq (h : Locked s.builds s.refs) (hr : r ∈ s.refs) :
    pruned s r.key = some r.lock := by
  rw [pruned, h.current r hr, Option.filter_some, if_pos]
  exact any_eq_true.2 ⟨r, hr, beq_self_eq_true _⟩

omit [DecidableEq κ] in
theorem Locked.pruned (h : Locked s.builds s.refs) : Locked (pruned s) s.refs :=
  ⟨fun _ hr => pruned_eq h hr, h.exclusive⟩

theorem Locked.buildLock (h : Locked s.builds s.refs) :
    Locked (buildLock key s).builds (buildLock key s).refs := by
  unfold Adbc.buildLock
  split
  · rename_i lock hlock
    exact ⟨forall_mem_cons.2 ⟨hlock, h.pruned.current⟩, h.exclusive⟩
  · rename_i hnone
    refine ⟨forall_mem_cons.2 ⟨Function.update_self .., fun r hr => ?_⟩, h.exclusive⟩
    -- a reference to a lock of this key would have kept it alive
    have hne : r.key ≠ key := by
      rintro rfl
      rw [pruned_eq h hr] at hnone
      cases hnone
    exact (Function.update_of_ne hne ..).trans (pruned_eq h hr)

theorem Locked.erase (h : Locked builds refs) (r : LockRef κ) : Locked builds (refs.erase r) where
  current x hx := h.current x (List.mem_of_mem_erase hx)
  exclusive := List.Nodup.sublist ((List.erase_sublist.filter _).map _) h.exclusive

theorem Locked.acquire (h : Locked s.builds s.refs) (hact : acquire s r = some s') :
    Locked s'.builds s'.refs := by
  unfold Adbc.acquire at hact
  split_ifs at hact with hfree
  cases hact
  obtain ⟨hr, hfree⟩ := hfree
  refine ⟨forall_mem_cons.2 ⟨h.current r hr, (h.erase r).current⟩, ?_⟩
  rw [Keyed, filter_cons_of_pos rfl, map_cons, nodup_cons]
  refine ⟨fun hmem => hfree ?_, (h.erase r).exclusive⟩
  obtain ⟨x, hx, hlock⟩ := mem_map.1 hmem
  obtain ⟨hx, hheld⟩ := mem_filter.1 hx
  exact any_eq_true.2 ⟨x, mem_of_mem_erase hx, by simp [hheld, hlock]⟩

theorem locks_remove (key : κ) (s : State κ ρ) :
    (remove key s).builds = s.builds ∧ (remove key s).refs = s.refs := by
  unfold remove
  split_ifs <;> exact ⟨rfl, rfl⟩

theorem locks_makeRoom {lru : κ} {room : State κ ρ} (h : makeRoom l t key s lru = some room) :
    room.builds = pruned s ∧ room.refs = s.refs := by
  have hothers := locks_remove key (removeIdle l t s)
  unfold makeRoom at h
  dsimp only at h
  split_ifs at h
  · cases h
    exact hothers
  · cases h
    have hlru := locks_remove lru (remove key (removeIdle l t s))
    exact ⟨hlru.1.trans hothers.1, hlru.2.trans hothers.2⟩

theorem Locked.act (h : Locked s.builds s.refs) {m : Move κ ρ} (hact : act l t s m = some s') :
    Locked s'.builds s'.refs := by
  cases m with
  | get key =>
    cases hact
    unfold get
    split
    · exact h
    · split_ifs <;> exact h
  | buildLock key => cases hact; exact h.buildLock
  | acquire r => exact h.acquire hact
  | release r => cases hact; exact h.erase r
  | insert key pool lru =>
    obtain ⟨room, hroom, rfl⟩ := Option.map_eq_some_iff.1 hact
    obtain ⟨hbuilds, hrefs⟩ := locks_makeRoom hroom
    rw [hbuilds, hrefs]
    exact h.pruned
  | sweep => cases hact; exact h.pruned

omit [DecidableEq κ] in
/-- No two callers hold locks of one key. -/
theorem Locked.single (h : Locked builds refs) : Keyed LockRef.key (refs.filter (·.held)) := by
  refine Nodup.of_map builds ?_
  have hlocks : ((refs.filter (·.held)).map LockRef.key).map builds =
      ((refs.filter (·.held)).map LockRef.lock).map some := by
    rw [map_map, map_map]
    exact map_congr_left fun r hr => h.current r (mem_of_mem_filter hr)
  rw [hlocks]
  exact Nodup.map (fun _ _ => Option.some.inj) h.exclusive

end Locks

variable (l : Limits)

/-- An entry of another key that an insert took out although it was not idle. -/
def Evicted (t : Nat) (key : κ) (s s' : State κ ρ) (e : Entry κ ρ) : Prop :=
  e ∈ others l t key s ∧ e ∉ s'.entries

/-- What holds of the registry in every state. -/
structure Safe (s : State κ ρ) : Prop where
  bounded : s.entries.length ≤ l.maxCount
  gauge : s.gauge = s.entries.length
  get : ∀ t key pool, (get l t key s).1 = some pool →
    builtFor pool = key ∧ ∃ u, ⟨key, pool, u⟩ ∈ s.uses ∧ t - u < l.idleTimeout
  insert : ∀ t key pool lru s', insert l t key s pool lru = some s' →
    ∀ e, Evicted l t key s s' e → (∀ e', Evicted l t key s s' e' → e' = e) ∧
      ∀ x ∈ others l t key s, e.lastUsed ≤ x.lastUsed
  single : Keyed LockRef.key (s.refs.filter (·.held))

variable {l builtFor} {s : State κ ρ}

/-- Who is evicted was used least recently. -/
theorem evicts_lru (h : Counted builtFor l s) {t : Nat} {key lru : κ} {pool : ρ} {s' : State κ ρ}
    (hinsert : insert l t key s pool lru = some s') {e : Entry κ ρ} (he : Evicted l t key s s' e) :
    e.key = lru ∧ ∀ x ∈ others l t key s, e.lastUsed ≤ x.lastUsed := by
  obtain ⟨room, hroom, rfl⟩ := Option.map_eq_some_iff.1 hinsert
  obtain ⟨he, hgone⟩ := he
  have hgone : e ∉ room.entries := fun hmem => hgone (mem_append_left _ hmem)
  rcases (room_of_makeRoom h hroom).entries with hentries | ⟨hlru, hentries⟩
  · exact absurd (hentries ▸ he) hgone
  · have hkey : e.key = lru := by
      by_contra hne
      exact hgone (hentries ▸ mem_filter.2 ⟨he, by simpa using hne⟩)
    obtain ⟨x, hx, hmin⟩ := any_eq_true.1 hlru
    obtain ⟨hxkey, hmin⟩ := of_decide_eq_true hmin
    have hsame : x = e := h.1.keyed.eq_of_mem (mem_of_mem_filter hx)
      (mem_of_mem_filter he) (hxkey.trans hkey.symm)
    rw [hsame] at hmin
    exact ⟨hkey, by simpa using hmin⟩

/-- The cache stays within its bound, evicts the pool used longest ago, shares no pool between keys,
builds each key once at a time, and the gauge counts it. -/
theorem scoped_pools_safe {s : State κ ρ} (h : (system l).Reach (Allowed builtFor) s) :
    Safe builtFor l s := by
  obtain ⟨hcounted, hlocked⟩ : Counted builtFor l s ∧ Locked s.builds s.refs := by
    induction h with
    | init h =>
      cases h
      exact ⟨⟨⟨Nat.zero_le _, nodup_nil, forall_mem_nil _, forall_mem_nil _⟩, rfl⟩,
        forall_mem_nil _, nodup_nil⟩
    | @step s s' m _ hok hs ih =>
      have hpool (key : κ) (pool : ρ) (lru : κ) (hm : m.2 = .insert key pool lru) :
          builtFor pool = key := by
        have hallowed := hok.2
        rw [hm] at hallowed
        simpa using (Bool.and_eq_true_iff.1 hallowed).1
      exact ⟨Counted.act (s := { s with now := m.1 }) ih.1 hpool hs,
        Locked.act (s := { s with now := m.1 }) ih.2 hs⟩
  refine ⟨hcounted.1.bounded, hcounted.2, ?_, ?_, hlocked.single⟩
  · intro t key pool hget
    unfold get at hget
    split at hget
    · cases hget
    · rename_i e hfind
      obtain ⟨he, rfl⟩ := hcounted.1.keyed.find?_eq_some_iff.1 hfind
      split_ifs at hget with hidle
      cases hget
      refine ⟨hcounted.1.built e he, e.lastUsed, hcounted.1.used e he, ?_⟩
      simpa [idle] using hidle
  · intro t key pool lru s' hinsert e he
    obtain ⟨hkey, hmin⟩ := evicts_lru hcounted hinsert he
    refine ⟨fun e' he' => ?_, hmin⟩
    obtain ⟨hkey', -⟩ := evicts_lru hcounted hinsert he'
    exact hcounted.1.keyed.eq_of_mem (mem_of_mem_filter he'.1) (mem_of_mem_filter he.1)
      (hkey'.trans hkey.symm)

/-- The pool of a second key takes the place of the first one. -/
theorem second_pool_safe : ∃ s : State Nat Nat,
    s.entries = [⟨2, 2, 5⟩] ∧ Safe id ⟨10, 1, by decide, by decide⟩ s := by
  have hinit : (system ⟨10, 1, by decide, by decide⟩).Reach (Allowed id)
      (⟨0, [], fun _ => none, 0, [], 0, []⟩ : State Nat Nat) := .init rfl
  obtain ⟨s, hs, hentries⟩ := hinit.exists_of_run (P := fun s => s.entries = [⟨2, 2, 5⟩])
    [(0, .buildLock 1), (0, .acquire ⟨1, 0, false⟩), (1, .insert 1 1 0), (2, .get 1),
      (3, .release ⟨1, 0, true⟩), (4, .buildLock 2), (4, .acquire ⟨2, 1, false⟩),
      (5, .insert 2 2 1)]
    (by decide)
  exact ⟨s, hentries, scoped_pools_safe hs⟩

end QueryFlux.Adbc
