import Mathlib.Algebra.GroupWithZero.Nat
import Mathlib.Data.Bool.AllAny
import Mathlib.Data.List.Basic

/-!
# Text operations

The operations on strings the proxy uses to look at client text: the white space of
`char::is_whitespace`, ASCII case, splitting at the first separator, prefixes. Texts are looked at
as lists of characters.
-/

namespace QueryFlux.Core

/-- `char::is_whitespace`: the characters with the Unicode property White_Space. -/
def isWhitespace (c : Char) : Bool :=
  let n := c.toNat
  (9 ≤ n && n ≤ 13) || n == 0x20 || n == 0x85 || n == 0xA0 || n == 0x1680 ||
    (0x2000 ≤ n && n ≤ 0x200A) || n == 0x2028 || n == 0x2029 || n == 0x202F || n == 0x205F ||
    n == 0x3000

/-! ## White space -/

def trimStart (s : List Char) : List Char := s.dropWhile isWhitespace

def trimEndMatches (p : Char → Bool) (s : List Char) : List Char :=
  (s.reverse.dropWhile p).reverse

def trim (s : List Char) : List Char := trimEndMatches isWhitespace (trimStart s)

def toAsciiLowercase (s : List Char) : List Char := s.map Char.toLower

def eqIgnoreAsciiCase (a b : List Char) : Bool := toAsciiLowercase a == toAsciiLowercase b

-- `str::to_lowercase` as far as a comparison with an ASCII word can tell: the Kelvin sign is the
-- only character outside ASCII whose lower case is one ASCII letter
def toLowercase (s : List Char) : List Char :=
  s.map fun c => if c.toNat = 0x212A then 'k' else c.toLower

/-! ## Searching -/

def splitOnce (sep : Char) : List Char → Option (List Char × List Char)
  | [] => none
  | c :: cs =>
    if c = sep then some ([], cs) else (splitOnce sep cs).map fun (a, b) => (c :: a, b)

def afterFirst (sep : Char) (s : List Char) : Option (List Char) := (splitOnce sep s).map Prod.snd

/-- What follows the first place where the text stands. -/
def afterText (part : List Char) : List Char → Option (List Char)
  | [] => if part = [] then some [] else none
  | c :: cs =>
    if part.isPrefixOf (c :: cs) then some ((c :: cs).drop part.length) else afterText part cs

theorem splitOnce_eq_some {sep : Char} {s a b : List Char} (h : splitOnce sep s = some (a, b)) :
    s = a ++ sep :: b := by
  induction s generalizing a with
  | nil => cases h
  | cons _ _ ih =>
    rw [splitOnce] at h
    split_ifs at h with hc
    · cases h
      rw [hc, List.nil_append]
    · obtain ⟨⟨a', b'⟩, hs, he⟩ := Option.map_eq_some_iff.1 h
      cases he
      rw [ih hs, List.cons_append]

theorem length_afterFirst {sep : Char} {s r : List Char} (h : afterFirst sep s = some r) :
    r.length < s.length := by
  obtain ⟨⟨a, b⟩, hs, rfl⟩ := Option.map_eq_some_iff.1 h
  rw [splitOnce_eq_some hs, List.length_append, List.length_cons]
  exact Nat.lt_of_lt_of_le (Nat.lt_succ_self _) (Nat.le_add_left _ _)

theorem afterFirst_append {sep : Char} {w s : List Char} (h : sep ∉ w) :
    afterFirst sep (w ++ sep :: s) = some s := by
  induction w with
  | nil => simp [afterFirst, splitOnce]
  | cons c _ ih =>
    rw [List.mem_cons, not_or] at h
    have hrest := ih h.2
    rw [afterFirst, Option.map_eq_some_iff] at hrest ⊢
    obtain ⟨⟨a, b⟩, hsplit, rfl⟩ := hrest
    exact ⟨(c :: a, b), by rw [List.cons_append, splitOnce, if_neg (Ne.symm h.1), hsplit]; rfl, rfl⟩

end QueryFlux.Core
