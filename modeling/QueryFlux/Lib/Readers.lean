import QueryFlux.Lib.Framing

/-!
# Readers

A reader takes a value off the front of its input, or fails. Readers are put one after the other
with `do`. A reader reads a value from a code when it takes exactly the code off the front of any
input that starts with it (`Reads`); readers that are put one after the other read their codes one
after the other. The other way round, `ReadsFrom` says what codes a reader takes a value from at
all.
-/

namespace QueryFlux.Lib

open List

variable {γ α β : Type}

/-- A parser: it takes symbols off the front, or fails. -/
abbrev Reader (γ : Type) := StateT (List γ) Option

namespace Reader

def next : Reader γ γ := fun
  | [] => none
  | x :: s => some (x, s)

def take (n : Nat) : Reader γ (List γ) := fun s =>
  if n ≤ s.length then some (s.take n, s.drop n) else none

def rest : Reader γ (List γ) := fun s => some (s, [])

/-- A number of `width` bytes, least significant first. -/
def le : Nat → Reader UInt8 Nat
  | 0 => pure 0
  | width + 1 => do
    let low ← next
    let high ← le width
    pure (low.toNat + 256 * high)

def parse (read : Reader γ α) (s : List γ) : Option α :=
  match read s with
  | some (a, []) => some a
  | _ => none

/-- A number of `width` bytes, most significant first. -/
def be (width : Nat) : Reader UInt8 Nat := do
  let bytes ← take width
  parse (le width) bytes.reverse

/-- So many values, one after another. -/
def many (read : Reader γ α) : Nat → Reader γ (List α)
  | 0 => pure []
  | n + 1 => do
    let a ← read
    let as ← many read n
    pure (a :: as)

/-- What is read from the input, one value after the other to its end. -/
def all (read : Reader γ α) : Nat → List γ → Option (List α)
  | _, [] => some []
  | 0, _ :: _ => none
  | fuel + 1, x :: s => (read (x :: s)).bind fun p => (all read fuel p.2).map (p.1 :: ·)

end Reader

open Reader

/-! ## From a code -/

/-- The reader takes `code` off the front of the input, and `a` is what it reads. -/
def Reads (read : Reader γ α) (code : List γ) (a : α) : Prop :=
  ∀ s, read (code ++ s) = some (a, s)

namespace Reads

variable {read : Reader γ α} {code code' : List γ} {a : α}

theorem pure (a : α) : Reads (Pure.pure a : Reader γ α) [] a := fun _ => rfl

theorem bind (h : Reads read code a) {f : α → Reader γ β} {b : β} (hf : Reads (f a) code' b) :
    Reads (read >>= f) (code ++ code') b := by
  intro s
  have hbind : (read >>= f) (code ++ code' ++ s) =
      (read (code ++ code' ++ s)).bind fun p => f p.1 p.2 := rfl
  rw [hbind, append_assoc, h, Option.bind_some, hf]

theorem map (h : Reads read code a) (f : α → β) :
    Reads (do let x ← read; Pure.pure (f x)) code (f a) := by
  have hread := h.bind (f := fun x => Pure.pure (f x)) (pure (f a))
  rwa [append_nil] at hread

theorem lift {o : Option α} (h : o = some a) : Reads (liftM o : Reader γ α) [] a := by
  intro s
  rw [h]
  rfl

theorem next (x : γ) : Reads Reader.next [x] x := fun _ => rfl

theorem take (xs : List γ) : Reads (Reader.take xs.length) xs xs := by
  intro s
  rw [Reader.take, if_pos (by rw [length_append]; omega), take_left, drop_left]

theorem le {width n : Nat} (h : n < 256 ^ width) : Reads (Reader.le width) (leBytes width n) n := by
  induction width generalizing n with
  | zero =>
    obtain rfl : n = 0 := by simpa using h
    exact pure 0
  | succ width ih =>
    have hdiv : n / 256 < 256 ^ width :=
      Nat.div_lt_of_lt_mul (by rwa [Nat.pow_succ, Nat.mul_comm] at h)
    have hread := (next (UInt8.ofNat n)).bind (f := fun low => do
      let high ← Reader.le width
      Pure.pure (low.toNat + 256 * high)) ((ih hdiv).map _)
    have hvalue : (UInt8.ofNat n).toNat + 256 * (n / 256) = n := by
      rw [UInt8.toNat_ofNat']
      omega
    rw [hvalue] at hread
    exact hread

theorem many_map {read : Reader γ β} {code : α → List γ} {value : α → β} {as : List α}
    (h : ∀ a ∈ as, Reads read (code a) (value a)) :
    Reads (Reader.many read as.length) (as.flatMap code) (as.map value) := by
  induction as with
  | nil => exact pure []
  | cons a as ih =>
    have htail := ih fun b hb => h b (.tail _ hb)
    exact (h a (.head _)).bind (f := fun a => do
      let as ← Reader.many read as.length
      Pure.pure (a :: as)) (htail.map _)

theorem many {code : α → List γ} {as : List α} (h : ∀ a ∈ as, Reads read (code a) a) :
    Reads (Reader.many read as.length) (as.flatMap code) as := by
  have hmap : Reads _ _ (as.map id) := many_map h
  rwa [map_id] at hmap

theorem parse (h : Reads read code a) : Reader.parse read code = some a := by
  have hread := h []
  rw [append_nil] at hread
  rw [Reader.parse, hread]

theorem be (width : Nat) {n : Nat} (h : n < 256 ^ width) :
    Reads (Reader.be width) (leBytes width n).reverse n := by
  have hlen : (leBytes width n).reverse.length = width := by simp
  have hparse : Reader.parse (Reader.le width) (leBytes width n).reverse.reverse = some n := by
    rw [reverse_reverse]
    exact (le h).parse
  have htake := take (leBytes width n).reverse
  rw [hlen] at htake
  have hread := htake.bind (f := fun bytes => liftM (Reader.parse (Reader.le width) bytes.reverse))
    (lift hparse)
  rwa [append_nil] at hread

theorem all {codes : List (List γ)} {as : List α}
    (h : List.Forall₂ (fun code a => Reads read code a ∧ code ≠ []) codes as) {fuel : Nat}
    (hfuel : codes.flatten.length ≤ fuel) : Reader.all read fuel codes.flatten = some as := by
  induction h generalizing fuel with
  | nil => cases fuel <;> rfl
  | @cons code a codes as hcode _ ih =>
    obtain ⟨hread, hne⟩ := hcode
    obtain ⟨x, xs, rfl⟩ := exists_cons_of_ne_nil hne
    rw [flatten_cons, length_append, length_cons] at hfuel
    obtain ⟨fuel, rfl⟩ := Nat.exists_eq_add_one.2 (by omega : 0 < fuel)
    have hrest : Reader.all read fuel codes.flatten = some as := ih (by omega)
    have hfirst := hread codes.flatten
    rw [cons_append] at hfirst
    rw [flatten_cons, cons_append, Reader.all, hfirst]
    simp [hrest]

end Reads

/-! ## Only from such codes -/

/-- What the reader reads, it reads from a code at the front of the input that `Q` allows. -/
def ReadsFrom (read : Reader γ α) (Q : α → List γ → Prop) : Prop :=
  ∀ s a s', read s = some (a, s') → ∃ code, s = code ++ s' ∧ Q a code

namespace ReadsFrom

variable {read : Reader γ α} {Q R : α → List γ → Prop}

theorem mono (h : ReadsFrom read Q) (hQ : ∀ a code, Q a code → R a code) : ReadsFrom read R := by
  intro s a s' hread
  obtain ⟨code, rfl, hcode⟩ := h s a s' hread
  exact ⟨code, rfl, hQ a code hcode⟩

theorem pure {a : α} (h : R a []) : ReadsFrom (Pure.pure a : Reader γ α) R := by
  rintro s b s' ⟨⟩
  exact ⟨[], rfl, h⟩

theorem failure : ReadsFrom (Alternative.failure : Reader γ α) R := by
  rintro s a s' ⟨⟩

theorem bind (h : ReadsFrom read Q) {f : α → Reader γ β} {S : β → List γ → Prop}
    (hf : ∀ a code, Q a code → ReadsFrom (f a) fun b code' => S b (code ++ code')) :
    ReadsFrom (read >>= f) S := by
  intro s b s' hread
  have hbind : (read >>= f) s = (read s).bind fun p => f p.1 p.2 := rfl
  rw [hbind] at hread
  obtain ⟨⟨a, t⟩, hfirst, hsecond⟩ := Option.bind_eq_some_iff.1 hread
  obtain ⟨code, rfl, hcode⟩ := h s a t hfirst
  obtain ⟨code', rfl, hcode'⟩ := hf a code hcode t b s' hsecond
  exact ⟨code ++ code', (append_assoc ..).symm, hcode'⟩

theorem lift {o : Option α} (h : ∀ a, o = some a → R a []) :
    ReadsFrom (liftM o : Reader γ α) R := by
  cases o with
  | none => rintro s a s' ⟨⟩
  | some a =>
    rintro s b s' ⟨⟩
    exact ⟨[], rfl, h a rfl⟩

theorem next : ReadsFrom (Reader.next : Reader γ γ) fun x code => code = [x] := by
  intro s x s' hread
  cases s with
  | nil => cases hread
  | cons y s =>
    cases hread
    exact ⟨[x], rfl, rfl⟩

theorem take (n : Nat) :
    ReadsFrom (Reader.take n : Reader γ (List γ)) fun xs code => code = xs ∧ xs.length = n := by
  intro s xs s' hread
  unfold Reader.take at hread
  split at hread
  · rename_i hle
    cases hread
    exact ⟨s.take n, (take_append_drop n s).symm, rfl, length_take_of_le hle⟩
  · cases hread

theorem rest : ReadsFrom (Reader.rest : Reader γ (List γ)) fun xs code => code = xs := by
  rintro s xs s' ⟨⟩
  exact ⟨s, (append_nil s).symm, rfl⟩

theorem le (width : Nat) :
    ReadsFrom (Reader.le width) fun n code => code.length = width ∧ n < 256 ^ width := by
  induction width with
  | zero => exact pure ⟨rfl, by decide⟩
  | succ width ih =>
    refine next.bind ?_
    rintro low code rfl
    refine ih.bind ?_
    rintro high code ⟨hlength, hhigh⟩
    refine pure ⟨by simp [hlength], ?_⟩
    have hlow := low.toNat_lt
    rw [Nat.pow_succ]
    omega

theorem parse (h : ReadsFrom read Q) {s : List γ} {a : α} (hparse : Reader.parse read s = some a) :
    Q a s := by
  unfold Reader.parse at hparse
  split at hparse
  · rename_i a' hread
    cases hparse
    obtain ⟨code, rfl, hcode⟩ := h s a [] hread
    rw [append_nil]
    exact hcode
  · cases hparse

theorem be (width : Nat) :
    ReadsFrom (Reader.be width) fun n code => code.length = width ∧ n < 256 ^ width := by
  refine (take width).bind ?_
  rintro bytes code ⟨rfl, hlength⟩
  refine lift fun n hn => ?_
  rw [append_nil]
  exact ⟨hlength, ((le width).parse hn).2⟩

theorem many (h : ReadsFrom read Q) (n : Nat) :
    ReadsFrom (Reader.many read n) fun as code =>
      as.length = n ∧ ∃ codes, List.Forall₂ Q as codes ∧ code = codes.flatten := by
  induction n with
  | zero => exact pure ⟨rfl, [], .nil, rfl⟩
  | succ n ih =>
    refine h.bind fun a code hcode => ih.bind ?_
    rintro as code' ⟨hlength, codes, hall, rfl⟩
    refine pure ⟨by rw [length_cons, hlength], code :: codes, .cons hcode hall, ?_⟩
    rw [append_nil, flatten_cons]

theorem all (h : ReadsFrom read Q) {fuel : Nat} {s : List γ} {as : List α}
    (hall : Reader.all read fuel s = some as) : ∀ a ∈ as, ∃ code, Q a code := by
  induction fuel generalizing s as with
  | zero =>
    cases s with
    | nil =>
      cases hall
      intro a ha
      cases ha
    | cons => cases hall
  | succ fuel ih =>
    cases s with
    | nil =>
      cases hall
      intro a ha
      cases ha
    | cons x s =>
      obtain ⟨⟨a, t⟩, hread, hmap⟩ := Option.bind_eq_some_iff.1 hall
      obtain ⟨rest, hrest, rfl⟩ := Option.map_eq_some_iff.1 hmap
      obtain ⟨code, -, hcode⟩ := h _ a t hread
      rw [forall_mem_cons]
      exact ⟨⟨code, hcode⟩, ih hrest⟩

end ReadsFrom

end QueryFlux.Lib
