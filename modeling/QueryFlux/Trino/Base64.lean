import Mathlib.Tactic.IntervalCases
import QueryFlux.Core.Trim
import QueryFlux.Trino.Submit

/-!
# Base64

`base64_decode` inverts the encoding of RFC 4648, with or without padding, and accepts what an
encoder can have written, up to the bits of the last character that carry nothing. But a single
character behind the groups of four is dropped without a look at it, and any number of `=` is
trimmed (`impossible_length_accepted`). Which texts that lets through is `base64_inverse_iff`.
-/

namespace QueryFlux.Trino

open Core

abbrev Bytes := List UInt8

def base64Digit (v : UInt8) : UInt8 := base64Table.getD v.toNat 0

/-- The code is an encoding of the bytes without padding, with any value of the unused bits. -/
inductive IsEncoding : Bytes → Bytes → Prop
  | group (a b c : UInt8) {rest code : Bytes} : IsEncoding rest code →
    IsEncoding (a :: b :: c :: rest)
      (base64Digit (a >>> 2) :: base64Digit ((a &&& 3) <<< 4 ||| b >>> 4) ::
        base64Digit ((b &&& 15) <<< 2 ||| c >>> 6) :: base64Digit (c &&& 63) :: code)
  | two (a b low : UInt8) : low < 4 →
    IsEncoding [a, b] [base64Digit (a >>> 2), base64Digit ((a &&& 3) <<< 4 ||| b >>> 4),
      base64Digit ((b &&& 15) <<< 2 ||| low)]
  | one (a low : UInt8) : low < 16 →
    IsEncoding [a] [base64Digit (a >>> 2), base64Digit ((a &&& 3) <<< 4 ||| low)]
  | nil : IsEncoding [] []

def bytesOf (s : String) : Bytes := s.toUTF8.toList

/-- Clients may leave the padding out. -/
def withoutPadding (text : List Char) : List Char := trimEndMatches (· == '=') text

def padding (code : List Char) : List Char := List.replicate ((4 - code.length % 4) % 4) '='

/-! ## Bits -/

section
variable {a b c d : UInt8}

theorem bit_eq_false {n : Nat} (h : a.toNat < 2 ^ n) (i : Nat) (hn : n ≤ i) (hi : i < 8) :
    a.toBitVec[i] = false := by
  exact Nat.testBit_lt_two_pow (Nat.lt_of_lt_of_le h (Nat.pow_le_pow_right (by decide) hn))

theorem ext_bits (h : ∀ i (hi : i < 8), a.toBitVec[i] = b.toBitVec[i]) : a = b :=
  UInt8.toBitVec_inj.1 (BitVec.eq_of_getElem_eq h)

theorem lt_of_bits (h6 : a.toBitVec[6] = false) (h7 : a.toBitVec[7] = false) : a.toNat < 64 := by
  refine Nat.lt_pow_two_of_testBit (n := 6) a.toNat fun i hi => ?_
  by_cases hlt : i < 8
  · have hbit : a.toBitVec[i] = false := by interval_cases i <;> assumption
    rwa [BitVec.getElem_eq_testBit_toNat] at hbit
  · exact Nat.testBit_lt_two_pow (Nat.lt_of_lt_of_le a.toNat_lt
      (Nat.pow_le_pow_right (by decide) (Nat.le_of_not_lt hlt)))

theorem decode_first (h : c.toNat < 2 ^ 4) :
    (a >>> 2) <<< 2 ||| ((a &&& 3) <<< 4 ||| c) >>> 4 = a := by
  have hbit := bit_eq_false h
  refine ext_bits fun i hi => ?_
  interval_cases i <;> simp [hbit]

theorem decode_second (h : c.toNat < 2 ^ 2) :
    ((a &&& 3) <<< 4 ||| b >>> 4) <<< 4 ||| ((b &&& 15) <<< 2 ||| c) >>> 2 = b := by
  have hbit := bit_eq_false h
  refine ext_bits fun i hi => ?_
  interval_cases i <;> simp [hbit]

theorem decode_third : ((b &&& 15) <<< 2 ||| c >>> 6) <<< 6 ||| (c &&& 63) = c := by
  refine ext_bits fun i hi => ?_
  interval_cases i <;> simp

theorem shift_four_lt : (b >>> 4).toNat < 2 ^ 4 := by
  rw [UInt8.toNat_shiftRight, Nat.shiftRight_eq_div_pow]
  exact Nat.div_lt_of_lt_mul b.toNat_lt

theorem shift_six_lt : (c >>> 6).toNat < 2 ^ 2 := by
  rw [UInt8.toNat_shiftRight, Nat.shiftRight_eq_div_pow]
  exact Nat.div_lt_of_lt_mul c.toNat_lt

theorem and_lt {mask : UInt8} {n : Nat} (h : mask.toNat < n) : (b &&& mask).toNat < n := by
  exact Nat.lt_of_le_of_lt Nat.and_le_right h

variable (ha : a.toNat < 2 ^ 6) (hb : b.toNat < 2 ^ 6) (hc : c.toNat < 2 ^ 6) (hd : d.toNat < 2 ^ 6)

include ha hb in
theorem encode_first : (a <<< 2 ||| b >>> 4) >>> 2 = a := by
  have hbita := bit_eq_false ha
  have hbitb := bit_eq_false hb
  refine ext_bits fun i hi => ?_
  interval_cases i <;> simp [hbita, hbitb]

include hb hc in
theorem encode_second :
    ((a <<< 2 ||| b >>> 4) &&& 3) <<< 4 ||| (b <<< 4 ||| c >>> 2) >>> 4 = b := by
  have hbitb := bit_eq_false hb
  have hbitc := bit_eq_false hc
  refine ext_bits fun i hi => ?_
  interval_cases i <;> simp [hbitb, hbitc]

include hc hd in
theorem encode_third : ((b <<< 4 ||| c >>> 2) &&& 15) <<< 2 ||| (c <<< 6 ||| d) >>> 6 = c := by
  have hbitc := bit_eq_false hc
  have hbitd := bit_eq_false hd
  refine ext_bits fun i hi => ?_
  interval_cases i <;> simp [hbitc, hbitd]

include hd in
theorem encode_fourth : (c <<< 6 ||| d) &&& 63 = d := by
  have hbitd := bit_eq_false hd
  refine ext_bits fun i hi => ?_
  interval_cases i <;> simp [hbitd]

include hb in
theorem encode_second_low : ((a <<< 2 ||| b >>> 4) &&& 3) <<< 4 ||| (b &&& 15) = b := by
  have hbitb := bit_eq_false hb
  refine ext_bits fun i hi => ?_
  interval_cases i <;> simp [hbitb]

include hc in
theorem encode_third_low : ((b <<< 4 ||| c >>> 2) &&& 15) <<< 2 ||| (c &&& 3) = c := by
  have hbitc := bit_eq_false hc
  refine ext_bits fun i hi => ?_
  interval_cases i <;> simp [hbitc]

end

/-! ## Codes -/

theorem base64Value_table : ∀ n < 64, base64Value (base64Digit (UInt8.ofNat n)) =
    some (UInt8.ofNat n) ∧ (base64Digit (UInt8.ofNat n)).toNat < 128 := by
  decide +kernel

theorem base64Digit_table : ∀ n < 256, (base64Value (UInt8.ofNat n)).all fun v =>
    v.toNat < 64 && base64Digit v == UInt8.ofNat n := by
  decide +kernel

theorem digit_table : ∀ n < 256, base64Digit (UInt8.ofNat n) ≠ 61 ∧
    String.utf8EncodeChar (base64Char (UInt8.ofNat n)) = [base64Digit (UInt8.ofNat n)] := by
  decide +kernel

theorem base64Digit_ne (v : UInt8) : base64Digit v ≠ 61 := by
  simpa using (digit_table v.toNat v.toNat_lt).1

theorem utf8EncodeChar_base64Char (v : UInt8) :
    String.utf8EncodeChar (base64Char v) = [base64Digit v] := by
  simpa using (digit_table v.toNat v.toNat_lt).2

theorem base64Value_digit {v : UInt8} (h : v.toNat < 64) :
    base64Value (base64Digit v) = some v := by
  simpa using (base64Value_table v.toNat h).1

theorem base64Value_eq_some_iff {b v : UInt8} :
    base64Value b = some v ↔ v.toNat < 64 ∧ b = base64Digit v := by
  refine ⟨fun h => ?_, fun h => h.2 ▸ base64Value_digit h.1⟩
  have hall := base64Digit_table b.toNat b.toNat_lt
  simp [h] at hall
  exact ⟨hall.1, hall.2.symm⟩

theorem base64Bytes_iff {code : Bytes} (hlen : code.length % 4 ≠ 1) (out : Bytes) :
    base64Bytes code = some out ↔ IsEncoding out code := by
  fun_induction base64Bytes code generalizing out with
  | case1 w x y z code ih =>
    have hrest : code.length % 4 ≠ 1 := by
      simp only [List.length_cons] at hlen
      omega
    simp only [Option.bind_eq_bind, Option.bind_eq_some_iff, base64Value_eq_some_iff,
      Option.pure_def, Option.some.injEq]
    constructor
    · rintro ⟨a, ⟨ha, rfl⟩, b, ⟨hb, rfl⟩, c, ⟨hc, rfl⟩, d, ⟨hd, rfl⟩, rest, hout, rfl⟩
      have h := IsEncoding.group (a <<< 2 ||| b >>> 4) (b <<< 4 ||| c >>> 2) (c <<< 6 ||| d)
        ((ih hrest rest).1 hout)
      rwa [encode_first ha hb, encode_second hb hc, encode_third hc hd, encode_fourth hd] at h
    · rintro (⟨a, b, c, h⟩ | _)
      · refine ⟨_, ⟨lt_of_bits (by simp) (by simp), rfl⟩, _, ⟨lt_of_bits (by simp) (by simp), rfl⟩,
          _, ⟨lt_of_bits (by simp) (by simp), rfl⟩, _, ⟨lt_of_bits (by simp) (by simp), rfl⟩,
          _, (ih hrest _).2 h, ?_⟩
        rw [decode_first shift_four_lt, decode_second shift_six_lt, decode_third]
  | case2 w x =>
    simp only [Option.bind_eq_bind, Option.bind_eq_some_iff, base64Value_eq_some_iff,
      Option.pure_def, Option.some.injEq]
    constructor
    · rintro ⟨a, ⟨ha, rfl⟩, b, ⟨hb, rfl⟩, rfl⟩
      have h := IsEncoding.one (a <<< 2 ||| b >>> 4) (b &&& 15) (and_lt (by decide))
      rwa [encode_first ha hb, encode_second_low hb] at h
    · rintro (_ | _ | ⟨a, low, hlow⟩)
      · have hbit := bit_eq_false (a := low) (n := 4) hlow
        refine ⟨_, ⟨lt_of_bits (by simp) (by simp), rfl⟩, _,
          ⟨lt_of_bits (by simp [hbit]) (by simp [hbit]), rfl⟩, ?_⟩
        rw [decode_first hlow]
  | case3 w x y =>
    simp only [Option.bind_eq_bind, Option.bind_eq_some_iff, base64Value_eq_some_iff,
      Option.pure_def, Option.some.injEq]
    constructor
    · rintro ⟨a, ⟨ha, rfl⟩, b, ⟨hb, rfl⟩, c, ⟨hc, rfl⟩, rfl⟩
      have h := IsEncoding.two (a <<< 2 ||| b >>> 4) (b <<< 4 ||| c >>> 2) (c &&& 3)
        (and_lt (by decide))
      rwa [encode_first ha hb, encode_second hb hc, encode_third_low hc] at h
    · rintro (_ | ⟨a, b, low, hlow⟩)
      · have hbit := bit_eq_false (a := low) (n := 2) hlow
        refine ⟨_, ⟨lt_of_bits (by simp) (by simp), rfl⟩, _, ⟨lt_of_bits (by simp) (by simp), rfl⟩,
          _, ⟨lt_of_bits (by simp [hbit]) (by simp [hbit]), rfl⟩, ?_⟩
        rw [decode_first shift_four_lt, decode_second hlow]
  | case4 code h1 h2 h3 =>
    rcases code with _ | ⟨w, _ | ⟨x, _ | ⟨y, _ | ⟨z, code⟩⟩⟩⟩
    · refine ⟨fun h => ?_, fun h => ?_⟩
      · cases h
        exact .nil
      · cases h
        rfl
    · exact absurd rfl hlen
    · exact (h2 _ _ rfl).elim
    · exact (h3 _ _ _ rfl).elim
    · exact (h1 _ _ _ _ _ rfl).elim

theorem base64Bytes_concat {code : Bytes} (h : code.length % 4 = 0) (b : UInt8) :
    base64Bytes (code ++ [b]) = base64Bytes code := by
  fun_induction base64Bytes code with
  | case1 w x y z code ih =>
    have hrest : code.length % 4 = 0 := by
      simp only [List.length_cons] at h
      omega
    simp only [List.cons_append, base64Bytes, ih hrest]
  | case2 | case3 => cases h
  | case4 code h1 h2 h3 =>
    rcases code with _ | ⟨w, _ | ⟨x, _ | ⟨y, _ | ⟨z, code⟩⟩⟩⟩
    · rfl
    · cases h
    · exact (h2 _ _ rfl).elim
    · exact (h3 _ _ _ rfl).elim
    · exact (h1 _ _ _ _ _ rfl).elim

/-! ## Texts -/

theorem toList_loop (bs : ByteArray) (i : Nat) (r : Bytes) :
    ByteArray.toList.loop bs i r = r.reverse ++ bs.data.toList.drop i := by
  fun_induction ByteArray.toList.loop bs i r with
  | case1 i r h ih =>
    have hi : i < bs.data.toList.length := h
    rw [ih, List.drop_eq_getElem_cons hi]
    simp [ByteArray.get!, getElem!_pos bs.data i h]
  | case2 i r h => simp [List.drop_eq_nil_of_le (Nat.le_of_not_lt h : bs.data.toList.length ≤ i)]

theorem bytesOf_eq (s : String) : bytesOf s = s.toByteArray.data.toList := by
  rw [bytesOf, ByteArray.toList, toList_loop]
  rfl

theorem bytesOf_ofList (l : List Char) :
    bytesOf (String.ofList l) = l.flatMap String.utf8EncodeChar := by
  rw [bytesOf_eq, String.toByteArray_ofList, List.utf8Encode, List.data_toByteArray]

theorem fromUTF8?_eq_some_iff {out : Bytes} {s : String} :
    String.fromUTF8? ⟨out.toArray⟩ = some s ↔ out = bytesOf s := by
  rw [bytesOf_eq, String.fromUTF8?]
  constructor
  · intro h
    split_ifs at h with hvalid
    cases h
    rfl
  · rintro rfl
    have hbytes : (⟨s.toByteArray.data.toList.toArray⟩ : ByteArray) = s.toByteArray := by simp
    rw [hbytes, dif_pos s.isValidUTF8]
    rfl

theorem base64Decode_iff {text : List Char} {s : String} : base64Decode text = some s ↔
    base64Bytes (bytesOf (String.ofList (withoutPadding text))) = some (bytesOf s) := by
  rw [base64Decode]
  simp only [Option.bind_eq_bind, Option.bind_eq_some_iff, fromUTF8?_eq_some_iff, exists_eq_right]
  rfl

theorem IsEncoding.code {out code : Bytes} (h : IsEncoding out code) :
    code.length % 4 ≠ 1 ∧ ∀ b ∈ code, b ≠ 61 := by
  induction h with
  | group a b c _ ih =>
    simp only [List.length_cons, List.forall_mem_cons]
    exact ⟨by have := ih.1; omega, base64Digit_ne _, base64Digit_ne _, base64Digit_ne _,
      base64Digit_ne _, ih.2⟩
  | two => simp [base64Digit_ne]
  | one => simp [base64Digit_ne]
  | nil => simp

theorem withoutPadding_append {code : List Char}
    (h : ∀ b ∈ bytesOf (String.ofList code), b ≠ 61) (n : Nat) :
    withoutPadding (code ++ List.replicate n '=') = code := by
  have hne : '=' ∉ code := by
    intro hmem
    rw [bytesOf_ofList] at h
    exact h 61 (List.mem_flatMap.2 ⟨'=', hmem, by decide⟩) rfl
  rw [withoutPadding, trimEndMatches_append _ (by simp), trimEndMatches_eq_self]
  intro c hc
  rw [beq_eq_false_iff_ne]
  rintro rfl
  exact hne (List.mem_of_getLast? hc)

/-- A code is the digits and their padding. -/
theorem base64Encode_eq (bytes : Bytes) : ∃ code, base64Encode bytes = code ++ padding code ∧
    IsEncoding bytes (bytesOf (String.ofList code)) := by
  simp only [bytesOf_ofList]
  fun_induction base64Encode bytes with
  | case1 a b c rest ih =>
    obtain ⟨code, hcode, h⟩ := ih
    refine ⟨base64Char (a >>> 2) :: base64Char ((a &&& 3) <<< 4 ||| b >>> 4) ::
      base64Char ((b &&& 15) <<< 2 ||| c >>> 6) :: base64Char (c &&& 63) :: code, ?_, ?_⟩
    · simp [hcode, padding]
      omega
    · simpa [utf8EncodeChar_base64Char] using IsEncoding.group a b c h
  | case2 a b =>
    refine ⟨[base64Char (a >>> 2), base64Char ((a &&& 3) <<< 4 ||| b >>> 4),
      base64Char ((b &&& 15) <<< 2)], rfl, ?_⟩
    simpa [utf8EncodeChar_base64Char] using IsEncoding.two a b 0 (by decide)
  | case3 a =>
    refine ⟨[base64Char (a >>> 2), base64Char ((a &&& 3) <<< 4)], rfl, ?_⟩
    simpa [utf8EncodeChar_base64Char] using IsEncoding.one a 0 (by decide)
  | case4 => exact ⟨[], rfl, .nil⟩

theorem base64Decode_of_isEncoding {code : List Char} {s : String}
    (h : IsEncoding (bytesOf s) (bytesOf (String.ofList code))) (n : Nat) :
    base64Decode (code ++ List.replicate n '=') = some s := by
  rw [base64Decode_iff, withoutPadding_append h.code.2, base64Bytes_iff h.code.1]
  exact h

/-- The text is an encoding of the string, up to its padding and to a single character behind the
groups of four. -/
def Resembles (text : List Char) (s : String) : Prop :=
  ∃ code, IsEncoding (bytesOf s) code ∧
    (bytesOf (String.ofList (withoutPadding text)) = code ∨
      code.length % 4 = 0 ∧ ∃ b, bytesOf (String.ofList (withoutPadding text)) = code ++ [b])

theorem base64Decode_eq_some_iff {text : List Char} {s : String} :
    base64Decode text = some s ↔ Resembles text s := by
  rw [base64Decode_iff, Resembles]
  generalize bytesOf (String.ofList (withoutPadding text)) = bytes
  constructor
  · intro h
    by_cases hlen : bytes.length % 4 = 1
    · obtain ⟨code, b, rfl⟩ : ∃ code b, bytes = code ++ [b] :=
        (List.eq_nil_or_concat' bytes).resolve_left (by rintro rfl; cases hlen)
      rw [List.length_append, List.length_singleton] at hlen
      have hcode : code.length % 4 = 0 := by omega
      rw [base64Bytes_concat hcode, base64Bytes_iff (by omega)] at h
      exact ⟨code, h, .inr ⟨hcode, b, rfl⟩⟩
    · exact ⟨bytes, (base64Bytes_iff hlen _).1 h, .inl rfl⟩
  · rintro ⟨code, h, rfl | ⟨hcode, b, rfl⟩⟩
    · exact (base64Bytes_iff h.code.1 _).2 h
    · rw [base64Bytes_concat hcode]
      exact (base64Bytes_iff h.code.1 _).2 h

/-- The length is possible, and there is no padding or as much as fills the last group. -/
def WellFormed (text : List Char) : Prop :=
  (bytesOf (String.ofList (withoutPadding text))).length % 4 ≠ 1 ∧
    (text = withoutPadding text ∨ text = withoutPadding text ++ padding (withoutPadding text))

/-- Encodings are decoded; and what is accepted of a text is right if and only if the text is well
formed or resembles no encoding at all. -/
theorem base64_inverse_iff (text : List Char) :
    (∀ s, base64Decode (base64Encode (bytesOf s)) = some s ∧
      base64Decode (withoutPadding (base64Encode (bytesOf s))) = some s) ∧
    ((∀ s, base64Decode text = some s ↔
        ∃ code, (text = code ∨ text = code ++ padding code) ∧
          IsEncoding (bytesOf s) (bytesOf (String.ofList code))) ↔
      WellFormed text ∨ ∀ s, ¬ Resembles text s) := by
  refine ⟨fun s => ?_, ?_⟩
  · obtain ⟨code, hcode, h⟩ := base64Encode_eq (bytesOf s)
    have hplain := base64Decode_of_isEncoding h 0
    rw [hcode, padding, withoutPadding_append h.code.2]
    exact ⟨base64Decode_of_isEncoding h _, by simpa using hplain⟩
  · have hback {s : String} {code : List Char} (htext : text = code ∨ text = code ++ padding code)
        (h : IsEncoding (bytesOf s) (bytesOf (String.ofList code))) :
        withoutPadding text = code := by
      obtain rfl | rfl := htext
      · have hnone := withoutPadding_append h.code.2 0
        rwa [List.replicate_zero, List.append_nil] at hnone
      · exact withoutPadding_append h.code.2 _
    constructor
    · intro hright
      by_cases hnone : ∀ s, ¬ Resembles text s
      · exact .inr hnone
      · obtain ⟨s, hs⟩ := not_forall_not.1 hnone
        obtain ⟨code, htext, h⟩ := (hright s).1 (base64Decode_eq_some_iff.2 hs)
        refine .inl ⟨?_, ?_⟩
        · rw [hback htext h]
          exact h.code.1
        · rw [hback htext h]
          exact htext
    · intro hcond s
      rw [base64Decode_eq_some_iff]
      constructor
      · intro hs
        obtain ⟨hlen, htext⟩ := hcond.resolve_right fun hnone => hnone s hs
        obtain ⟨code, h, hcode | ⟨hgroups, b, hcode⟩⟩ := hs
        · exact ⟨_, htext, hcode ▸ h⟩
        · rw [hcode, List.length_append, List.length_singleton] at hlen
          omega
      · rintro ⟨code, htext, h⟩
        refine ⟨_, h, .inl ?_⟩
        rw [hback htext h]

/-- One character, and a complete group with padding. -/
theorem impossible_length_accepted :
    base64Decode "A".toList = some "" ∧ base64Decode "YTpi=".toList = some "a:b" := by
  decide +kernel

end QueryFlux.Trino
