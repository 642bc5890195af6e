import QueryFlux.Cache.Tee
import QueryFlux.Dispatch.Pipeline
import QueryFlux.Guardrails.BuiltIn

/-!
# Lifetimes that clients choose

A client asks for its result to be cached with a header, a query tag or a comment in front of the
query, and may give the time to live. The number goes unchecked into the writer, where it is cast
to `i64`, made a duration and added to the time; the last two panic outside of their ranges. All is
well exactly if the expiry is a date of the calendar (`lifetime_safe_iff`).
-/

namespace QueryFlux.Cache

open Core Dispatch Guardrails

/-! ## Hints -/

structure CacheHint where
  ttlSecs : Option Nat
  deriving DecidableEq

def CacheHint.toGroupConfig (hint : CacheHint) : GroupCacheConfig := ⟨hint.ttlSecs.getD 300, none⟩

def CacheHint.ofText (ttl : Option (List Char)) : CacheHint := ⟨ttl.bind parseU64⟩

def behind (part : String) (cs : List Char) : Option (List Char) :=
  if part.toList.isPrefixOf cs then some (cs.drop part.length) else none

/-- `sql[..sql.floor_char_boundary(n)]`: the characters that end within the first `n` bytes. -/
def floorCharBoundary : Nat → List Char → List Char
  | _, [] => []
  | n, c :: cs => if c.utf8Size ≤ n then c :: floorCharBoundary (n - c.utf8Size) cs else []

section
-- the digits of a regex: those of Unicode
variable (isDigit : Char → Bool)

/-- The comment of the regex at the start of a text, with the digits it captures. -/
def cacheComment (cs : List Char) : Option (Option (List Char)) := do
  let cs ← behind "queryflux:cache" (trimStart (← behind "/*" cs))
  match behind ":ttl=" cs with
  | none =>
    let _ ← behind "*/" (trimStart cs)
    return none
  | some cs =>
    let digits := cs.takeWhile isDigit
    if digits = [] then none
    let _ ← behind "*/" (trimStart (cs.dropWhile isDigit))
    return some digits

/-- By header, or by a comment of the text. -/
def extractCacheHint (sql : String) (session : SessionContext) : Option CacheHint :=
  if (session.extra "x-queryflux-cache").any fun val =>
      eqIgnoreAsciiCase val.toList "true".toList || val == "1" then
    some (.ofText ((session.extra "x-queryflux-cache-ttl").map String.toList))
  else
    match session.tags "queryflux:cache" with
    | some tagVal => some (.ofText (tagVal.bind fun v => behind "ttl=" v.toList))
    | none =>
      ((floorCharBoundary 200 sql.toList).tails.findSome? (cacheComment isDigit)).map .ofText

theorem lt_of_ofText {text : Option (List Char)} {ttl : Nat}
    (h : (CacheHint.ofText text).ttlSecs = some ttl) : ttl < 2 ^ 64 := by
  obtain ⟨s, -, hs⟩ := Option.bind_eq_some_iff.1 h
  unfold parseU64 at hs
  extract_lets digits at hs
  split at hs
  · rename_i hfits
    cases hs
    exact hfits.2.2
  · cases hs

theorem lt_of_extractCacheHint {sql : String} {session : SessionContext} {hint : CacheHint}
    {ttl : Nat} (hhint : extractCacheHint isDigit sql session = some hint)
    (httl : hint.ttlSecs = some ttl) : ttl < 2 ^ 64 := by
  unfold extractCacheHint at hhint
  split at hhint
  · cases hhint
    exact lt_of_ofText httl
  · split at hhint
    · cases hhint
      exact lt_of_ofText httl
    · obtain ⟨text, -, rfl⟩ := Option.map_eq_some_iff.1 hhint
      exact lt_of_ofText httl

end

/-! ## The time of expiry -/

/-- The seconds of `DateTime::<Utc>::MIN_UTC` and `MAX_UTC`. -/
def minTimestamp : Int := -8334601228800
def maxTimestamp : Int := 8210266876799

/-- `Duration::seconds`, which panics where the milliseconds are no `i64`. -/
def durationSeconds (secs : Int) : Option Int :=
  if -9223372036854775 ≤ secs ∧ secs ≤ 9223372036854775 then some secs else none

/-- `DateTime + Duration`, which panics where the sum is no date. -/
def addDuration (now d : Int) : Option Int :=
  if minTimestamp ≤ now + d ∧ now + d ≤ maxTimestamp then some (now + d) else none

def WriterConfig.expiresAt (cfg : WriterConfig) (now : Int) : Option Int :=
  (durationSeconds cfg.ttl).bind (addDuration now)

section
variable {σ β ω : Type} (fmt : IpcFormat σ β ω)

/-- `finalize(true)`; nothing where it panics. -/
def OpenDalCacheWriter.finalizeTimed (w : OpenDalCacheWriter ω) (cfg : WriterConfig)
    (o : FinalOutcome) (stored : Stored) : Option (Bool × Stored) :=
  if w.ipcWriter.isSome ∧ o.intoInner = true ∧ o.write = .written ∧
      cfg.expiresAt o.now = none then none
  else some (w.finalize fmt cfg { o with overflow := false } stored)

/-- With this time to live no `finalize` at the time panics, and whatever entry it stores does not
expire before it was created. -/
def SafeLifetime (ttlSecs : Nat) (now : Int) : Prop :=
  ∀ (w : OpenDalCacheWriter ω) (cfg : WriterConfig) (o : FinalOutcome) (stored : Stored),
    cfg.ttlSecs = ttlSecs → o.now = now →
      ∃ done stored', w.finalizeTimed fmt cfg o stored = some (done, stored') ∧
        (done = true → ∀ entry ∈ stored'.entry,
          stored.entry = some entry ∨ entry.createdAt ≤ entry.expiresAt)

variable {cfg : WriterConfig} {now : Int}

theorem expiresAt_eq_some {t : Int} (h : cfg.expiresAt now = some t) :
    t = now + cfg.ttl ∧ t ≤ maxTimestamp := by
  obtain ⟨d, hd, ht⟩ := Option.bind_eq_some_iff.1 h
  unfold durationSeconds at hd
  unfold addDuration at ht
  split at hd <;> cases hd
  split at ht <;> cases ht
  rename_i hrange
  exact ⟨rfl, hrange.2⟩

theorem expiresAt_safe_iff (httl : cfg.ttlSecs < 2 ^ 64)
    (hnow : minTimestamp ≤ now ∧ now ≤ maxTimestamp) :
    (cfg.expiresAt now ≠ none ∧ now ≤ now + cfg.ttl) ↔ now + cfg.ttlSecs ≤ maxTimestamp := by
  constructor
  · rintro ⟨hsome, hle⟩
    obtain ⟨t, ht⟩ := Option.ne_none_iff_exists'.1 hsome
    obtain ⟨rfl, hmax⟩ := expiresAt_eq_some ht
    have hcast : cfg.ttl = cfg.ttlSecs := by
      unfold WriterConfig.ttl at hle ⊢
      split at hle <;> omega
    rwa [hcast] at hmax
  · intro hmax
    have hbound := hnow
    have hrange := hmax
    unfold minTimestamp maxTimestamp at hbound
    unfold maxTimestamp at hrange
    have hcast : cfg.ttl = cfg.ttlSecs := if_pos (by omega)
    refine ⟨?_, by omega⟩
    rw [WriterConfig.expiresAt, hcast, durationSeconds, if_pos (by omega), Option.bind_some,
      addDuration, if_pos ⟨by omega, hmax⟩]
    exact Option.some_ne_none _

theorem finalize_entry (w : OpenDalCacheWriter ω) (o : FinalOutcome) (stored : Stored)
    (h : (w.finalize fmt cfg o stored).1 = true) :
    ∀ entry ∈ (w.finalize fmt cfg o stored).2.entry, stored.entry = some entry ∨
      entry.createdAt = o.now ∧ entry.expiresAt = o.now + cfg.ttl := by
  revert h
  unfold OpenDalCacheWriter.finalize
  split
  · exact fun _ entry he => Or.inl he
  · split
    · intro h; cases h
    · dsimp only
      split
      · intro h; cases h
      · exact fun _ entry he => Or.inl he
      · split
        · intro h; cases h
        · split
          · rintro - entry ⟨⟩
            exact Or.inr ⟨rfl, rfl⟩
          · intro h; cases h

/-- With a hinted lifetime nothing panics, and no entry expires before it was created, exactly when
the time of expiry is still a date. -/
theorem lifetime_safe_iff (schema : σ) {isDigit : Char → Bool} {sql : String}
    {session : SessionContext} {hint : CacheHint} {ttl : Nat}
    (hhint : extractCacheHint isDigit sql session = some hint) (httl : hint.ttlSecs = some ttl)
    (hnow : minTimestamp ≤ now ∧ now ≤ maxTimestamp) :
    SafeLifetime fmt hint.toGroupConfig.ttlSecs now ↔ now + ttl ≤ maxTimestamp := by
  have hlt := lt_of_extractCacheHint isDigit hhint httl
  have hsecs : hint.toGroupConfig.ttlSecs = ttl := by rw [CacheHint.toGroupConfig, httl]; rfl
  rw [hsecs]
  constructor
  · intro hsafe
    -- an entry that is written in time
    let cfg : WriterConfig := ⟨"", "", ttl, none⟩
    let w : OpenDalCacheWriter ω := OpenDalCacheWriter.new.writeSchema fmt schema
    obtain ⟨done, stored', hfinal, hentry⟩ :=
      hsafe w cfg ⟨true, .written, now, false, .ok (), true⟩ ⟨none, none⟩ rfl rfl
    have hiff : _ ↔ now + cfg.ttlSecs ≤ maxTimestamp := expiresAt_safe_iff hlt hnow
    refine hiff.1 ?_
    by_cases hnone : cfg.expiresAt now = none
    · rw [OpenDalCacheWriter.finalizeTimed, if_pos ⟨rfl, rfl, rfl, hnone⟩] at hfinal
      cases hfinal
    · rw [OpenDalCacheWriter.finalizeTimed, if_neg fun h => hnone h.2.2.2] at hfinal
      cases hfinal
      refine ⟨hnone, (hentry rfl _ rfl).resolve_left nofun⟩
  · rintro hmax w cfg o stored rfl rfl
    obtain ⟨hsome, hle⟩ := (expiresAt_safe_iff hlt hnow).2 hmax
    refine ⟨_, _, if_neg fun h => hsome h.2.2.2, fun hdone entry he => ?_⟩
    refine (finalize_entry fmt w _ stored hdone entry he).imp_right ?_
    rintro ⟨hcreated, hexpires⟩
    rw [hcreated, hexpires]
    exact hle

end

def askedFor (ttl : String) : Option CacheHint :=
  extractCacheHint Char.isDigit ("/* queryflux:cache:ttl=" ++ ttl ++ " */ SELECT 1")
    ⟨none, none, none, fun _ => none, fun _ => none, none⟩

/-- A lifetime of a minute, in 2023. -/
theorem minute_safe : SafeLifetime byteFormat 60 1700000000 :=
  (lifetime_safe_iff byteFormat 7 (show askedFor "60" = some ⟨some 60⟩ by decide +kernel) rfl
    (by decide)).2 (by decide)

def finalized (ttl : String) : Option (Option CacheEntryMeta) := do
  let hint ← askedFor ttl
  let w := OpenDalCacheWriter.new.writeSchema byteFormat 7
  let (_, stored) ← w.finalizeTimed byteFormat ⟨"4f2a", "etl", hint.toGroupConfig.ttlSecs, none⟩
    stores nothingStored
  return stored.entry

/-- An entry that expires before it was created, a duration that is out of range and one that
leads out of the calendar. -/
theorem lifetimes_unsafe :
    finalized "18446744073709551615" =
        some (some ⟨"4f2a", "etl", 1700000000, 1699999999, some 0, some 1⟩) ∧
      (askedFor "9223372036854775808").isSome = true ∧ finalized "9223372036854775808" = none ∧
      (askedFor "9000000000000").isSome = true ∧ finalized "9000000000000" = none := by
  decide +kernel

end QueryFlux.Cache
