import Mathlib.Algebra.Ring.Int.Defs
import QueryFlux.Core.Text

/-!
# Hub tokens

A hub signs short-lived tokens for the control plane's worker API: a header, claims and a
signature, each in base64url, joined by dots. `verify` checks the signature, the audience, the
lifetime and the clock. Its arithmetic is that of `i64`.

A token whose `exp` and `iat` are less than `2 ^ 63` apart is good for at most the longest lifetime
and twice the leeway. The lifetime of one whose claims are further apart wraps to a negative number,
and such a token never expires (`lifetime_wraps`); `accepted_times_close_iff` says which of them are
accepted for too long.
-/

namespace QueryFlux.Workers

open Core

/-! ## Tokens -/

def audience : String := "queryflux-worker-api"

def maxLifetimeSecs : Int64 := 600

def leewaySecs : Int64 := 60

structure Header where
  alg : String
  typ : String
  kid : String
  deriving DecidableEq

structure Claims where
  sub : String
  aud : String
  iat : Int64
  exp : Int64
  deriving DecidableEq

/-- The formats a token is made of: base64url, the JSON of its parts, and Ed25519. -/
structure TokenFormat (Key : Type) where
  decode : List Char → Option (List UInt8)
  header : List UInt8 → Option Header
  claims : List UInt8 → Option Claims
  verifies : Key → List Char → List UInt8 → Bool

/-- The lifetime is a difference of 64-bit integers. -/
def Claims.check (claims : Claims) (kid : String) (now : Int64) : Except String Unit :=
  if claims.sub ≠ kid ∨ claims.aud ≠ audience then .error "token is not for this API"
  else if maxLifetimeSecs < claims.exp - claims.iat then .error "token lifetime too long"
  else if claims.exp + leewaySecs < now ∨ now + leewaySecs < claims.iat then
    .error "token expired or not yet valid"
  else .ok ()

namespace TokenFormat

variable {Key : Type} (format : TokenFormat Key)

def keyId (token : String) : Option String :=
  let header := (token.toList.splitOn '.').head?.bind fun part =>
    (format.decode part).bind format.header
  header.bind fun header => if header.alg = "EdDSA" then some header.kid else none

/-- Three parts, the signature over the first two, and the claims. -/
def verify (token : String) (key : Key) (now : Int64) : Except String Unit :=
  match token.toList.splitOn '.' with
  | [header, claims, signature] =>
    match (format.decode signature).filter (·.length == 64) with
    | none => .error "malformed signature"
    | some signature =>
      if format.verifies key (header ++ '.' :: claims) signature then
        match (format.decode claims).bind format.claims with
        | none => .error "malformed claims"
        | some claims =>
          match format.keyId token with
          | none => .error "malformed header"
          | some kid => claims.check kid now
      else .error "bad signature"
  | _ => .error "malformed token"

/-- A token of three parts with a good signature under the key, whose claims name the hub of its
header and this API. -/
structure Signed (token : String) (key : Key) (claims : Claims) : Prop where
  wellFormed : ∃ header payload signature bytes,
    token.toList.splitOn '.' = [header, payload, signature] ∧
    format.decode signature = some bytes ∧ bytes.length = 64 ∧
    format.verifies key (header ++ '.' :: payload) bytes = true ∧
    (format.decode payload).bind format.claims = some claims
  kid : format.keyId token = some claims.sub
  aud : claims.aud = audience

end TokenFormat

variable {Key : Type} {format : TokenFormat Key} {token : String} {key : Key} {now : Int64}

/-! ## When a token is accepted -/

theorem TokenFormat.Signed.unique {claims claims' : Claims} (h : format.Signed token key claims)
    (h' : format.Signed token key claims') : claims = claims' := by
  obtain ⟨header, payload, signature, -, hparts, -, -, -, hclaims⟩ := h.wellFormed
  obtain ⟨header', payload', signature', -, hparts', -, -, -, hclaims'⟩ := h'.wellFormed
  rw [hparts] at hparts'
  cases hparts'
  exact Option.some.inj (hclaims.symm.trans hclaims')

theorem Claims.check_eq_ok_iff {claims : Claims} {kid : String} :
    claims.check kid now = .ok () ↔
      (claims.sub = kid ∧ claims.aud = audience) ∧ claims.exp - claims.iat ≤ maxLifetimeSecs ∧
      now ≤ claims.exp + leewaySecs ∧ claims.iat ≤ now + leewaySecs := by
  unfold Claims.check
  by_cases hfor : claims.sub ≠ kid ∨ claims.aud ≠ audience
  · rw [if_pos hfor]
    constructor
    · nofun
    · rintro ⟨⟨hsub, haud⟩, -⟩
      rcases hfor with hne | hne
      · exact absurd hsub hne
      · exact absurd haud hne
  · rw [if_neg hfor]
    simp only [ne_eq, not_or, not_not] at hfor
    by_cases hlifetime : maxLifetimeSecs < claims.exp - claims.iat
    · rw [if_pos hlifetime]
      constructor
      · nofun
      · rintro ⟨-, hle, -⟩
        exact absurd hlifetime (Int64.not_lt.2 hle)
    · rw [if_neg hlifetime]
      by_cases htimes : claims.exp + leewaySecs < now ∨ now + leewaySecs < claims.iat
      · rw [if_pos htimes]
        constructor
        · nofun
        · rintro ⟨-, -, hexp, hiat⟩
          rcases htimes with hlate | hearly
          · exact absurd hlate (Int64.not_lt.2 hexp)
          · exact absurd hearly (Int64.not_lt.2 hiat)
      · rw [if_neg htimes]
        rw [not_or] at htimes
        simp only [true_iff]
        exact ⟨hfor, Int64.not_lt.1 hlifetime, Int64.not_lt.1 htimes.1, Int64.not_lt.1 htimes.2⟩

/-- An accepted token is signed, with claims that pass. -/
theorem signed_of_verify (h : format.verify token key now = .ok ()) :
    ∃ claims, format.Signed token key claims ∧ claims.check claims.sub now = .ok () := by
  unfold TokenFormat.verify at h
  split at h
  · rename_i header payload signature hparts
    split at h
    · cases h
    · rename_i bytes hbytes
      split at h
      · rename_i hverifies
        split at h
        · cases h
        · rename_i claims hclaims
          split at h
          · cases h
          · rename_i kid hkid
            obtain ⟨⟨hsub, haud⟩, -⟩ := Claims.check_eq_ok_iff.1 h
            obtain ⟨hdecode, hlength⟩ := Option.filter_eq_some_iff.1 hbytes
            refine ⟨claims, ⟨⟨header, payload, signature, bytes, hparts, hdecode, ?_, hverifies,
              hclaims⟩, ?_, haud⟩, ?_⟩
            · exact beq_iff_eq.1 hlength
            · rw [hkid, hsub]
            · rw [hsub]
              exact h
      · cases h
  · cases h

theorem TokenFormat.Signed.verify_eq {claims : Claims} (h : format.Signed token key claims) :
    format.verify token key now = claims.check claims.sub now := by
  obtain ⟨header, payload, signature, bytes, hparts, hdecode, hlength, hverifies, hclaims⟩ :=
    h.wellFormed
  have hbytes : (format.decode signature).filter (·.length == 64) = some bytes := by
    rw [hdecode, Option.filter_some, if_pos (beq_iff_eq.2 hlength)]
  unfold TokenFormat.verify
  simp only [hparts, hbytes, hverifies, hclaims, h.kid, if_true]

/-! ## For how long -/

/-- The lifetime check sees a difference that fits, or the token is refused from 720 seconds after
the epoch on, or its expiry wraps with the leeway and it is never accepted. -/
def Claims.Bounded (claims : Claims) : Prop :=
  claims.exp.toInt - claims.iat.toInt < 2 ^ 63 ∨ claims.exp.toInt ≤ 660 ∨
    2 ^ 63 - 60 ≤ claims.exp.toInt

theorem Claims.bounds_of_check {claims : Claims} {kid : String} (hbounded : claims.Bounded)
    (h : claims.check kid now = .ok ()) (hlow : 0 ≤ now.toInt) (hhigh : now.toInt < 2 ^ 62) :
    2 ^ 63 ≤ claims.exp.toInt - claims.iat.toInt ∧ now.toInt ≤ 720 ∨
      claims.iat.toInt - 60 ≤ now.toInt ∧ now.toInt ≤ claims.exp.toInt + 60 ∧
      claims.exp.toInt - claims.iat.toInt ≤ 600 := by
  obtain ⟨-, hlifetime, hexp, hiat⟩ := Claims.check_eq_ok_iff.1 h
  rw [Int64.le_iff_toInt_le, Int64.toInt_sub] at hlifetime
  rw [Int64.le_iff_toInt_le, Int64.toInt_add] at hexp hiat
  have hmax : maxLifetimeSecs.toInt = 600 := by decide
  have hleeway : leewaySecs.toInt = 60 := by decide
  have hexp_le := claims.exp.le_toInt
  have hexp_lt := claims.exp.toInt_lt
  rw [Int.bmod_def] at hlifetime hexp hiat
  unfold Claims.Bounded at hbounded
  omega

theorem Claims.accepted_early {claims : Claims} (hnot : ¬claims.Bounded) {secs : Int64}
    (hlow : 0 ≤ secs.toInt) (hhigh : secs.toInt ≤ 721) (haud : claims.aud = audience) :
    claims.check claims.sub secs = .ok () := by
  have hmax : maxLifetimeSecs.toInt = 600 := by decide
  have hleeway : leewaySecs.toInt = 60 := by decide
  have hexp_lt := claims.exp.toInt_lt
  have hiat_le := claims.iat.le_toInt
  unfold Claims.Bounded at hnot
  refine Claims.check_eq_ok_iff.2 ⟨⟨rfl, haud⟩, ?_, ?_, ?_⟩
  · rw [Int64.le_iff_toInt_le, Int64.toInt_sub, Int.bmod_def]
    omega
  · rw [Int64.le_iff_toInt_le, Int64.toInt_add, Int.bmod_def]
    omega
  · rw [Int64.le_iff_toInt_le, Int64.toInt_add, Int.bmod_def]
    omega

/-- A token is good for at most the longest lifetime and twice the leeway exactly when it is not a
good token for this API whose claims are so far apart that the lifetime wraps. -/
theorem accepted_times_close_iff (format : TokenFormat Key) (key : Key) (token : String) :
    (∀ now₁ now₂ : Int64, 0 ≤ now₁.toInt ∧ now₁.toInt < 2 ^ 62 →
      0 ≤ now₂.toInt ∧ now₂.toInt < 2 ^ 62 →
      format.verify token key now₁ = .ok () → format.verify token key now₂ = .ok () →
      (now₁.toInt - now₂.toInt).natAbs ≤ maxLifetimeSecs.toInt + 2 * leewaySecs.toInt) ↔
    ∀ claims, format.Signed token key claims → claims.Bounded := by
  have hmax : maxLifetimeSecs.toInt = 600 := by decide
  have hleeway : leewaySecs.toInt = 60 := by decide
  constructor
  · intro hclose claims hsigned
    by_contra hnot
    have h₁ : format.verify token key 0 = .ok () := by
      rw [hsigned.verify_eq]
      exact Claims.accepted_early hnot (by decide) (by decide) hsigned.aud
    have h₂ : format.verify token key 721 = .ok () := by
      rw [hsigned.verify_eq]
      exact Claims.accepted_early hnot (by decide) (by decide) hsigned.aud
    have hapart := hclose 0 721 (by decide) (by decide) h₁ h₂
    exact absurd hapart (by decide)
  · intro hbounded now₁ now₂ hnow₁ hnow₂ h₁ h₂
    obtain ⟨claims, hsigned, hcheck₁⟩ := signed_of_verify h₁
    obtain ⟨claims', hsigned', hcheck₂⟩ := signed_of_verify h₂
    obtain rfl := hsigned.unique hsigned'
    have hbounds₁ := Claims.bounds_of_check (hbounded _ hsigned) hcheck₁ hnow₁.1 hnow₁.2
    have hbounds₂ := Claims.bounds_of_check (hbounded _ hsigned) hcheck₂ hnow₂.1 hnow₂.2
    omega

def fiveMinutes : Claims := ⟨"hub-1", audience, 1000, 1300⟩

def forever : Claims :=
  ⟨"hub-1", audience, -4611686018427387904, 4611686018427387904⟩

/-- Parts are sent as they are, claims by their first letter, and any signature is good. -/
def plainFormat : TokenFormat Unit where
  decode part := some (part.map fun c => c.toNat.toUInt8)
  header _ := some ⟨"EdDSA", "JWT", "hub-1"⟩
  claims bytes := some (if bytes.head? = some 'f'.toNat.toUInt8 then forever else fiveMinutes)
  verifies _ _ _ := true

def plainToken (claims : String) : String :=
  "h." ++ claims ++ "." ++ String.ofList (List.replicate 64 's')

/-- A token signed for five minutes is accepted, with the leeway on both ends. -/
example : plainFormat.verify (plainToken "short") () 940 = .ok () ∧
    plainFormat.verify (plainToken "short") () 1360 = .ok () ∧
    plainFormat.verify (plainToken "short") () 1361 ≠ .ok () := by
  decide +kernel

/-- The claims of this token are `2 ^ 63` seconds apart, and it is accepted at every time. -/
theorem lifetime_wraps :
    plainFormat.verify (plainToken "forever") () 0 = .ok () ∧
    plainFormat.verify (plainToken "forever") () 4611686018427387903 = .ok () ∧
    maxLifetimeSecs.toInt + 2 * leewaySecs.toInt <
      ((0 : Int64).toInt - (4611686018427387903 : Int64).toInt).natAbs ∧
    (forever.exp - forever.iat).toInt = -2 ^ 63 := by
  refine ⟨by decide +kernel, by decide +kernel, by decide +kernel, by decide +kernel⟩

end QueryFlux.Workers
