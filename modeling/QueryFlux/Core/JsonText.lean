import QueryFlux.Core.Query

/-!
# The text of a JSON value

`Json.text` is the compact text of a value, as `to_string` gives it. Two values with one text are
the same value (`Json.text_injective`), where a number is written as JSON writes numbers. The text
of a value ends before anything that cannot go on a number, so texts in a row are told apart
(`Json.Delimited`).
-/

namespace QueryFlux.Core

open List

/-! ## Strings -/

def hexDigit (n : Nat) : Char := if n < 10 then Char.ofNat (48 + n) else Char.ofNat (87 + n)

def hexValue (c : Char) : Nat := if c.toNat < 58 then c.toNat - 48 else c.toNat - 87

def escapeChar (c : Char) : List Char :=
  if c = '"' then ['\\', '"']
  else if c = '\\' then ['\\', '\\']
  else if c = '\x08' then ['\\', 'b']
  else if c = '\t' then ['\\', 't']
  else if c = '\n' then ['\\', 'n']
  else if c = '\x0c' then ['\\', 'f']
  else if c = '\r' then ['\\', 'r']
  else if c.toNat < 32 then ['\\', 'u', '0', '0', hexDigit (c.toNat / 16), hexDigit (c.toNat % 16)]
  else [c]

def unescapeChar : List Char → Option (Char × List Char)
  | '\\' :: 'u' :: '0' :: '0' :: a :: b :: cs =>
    some (Char.ofNat (16 * hexValue a + hexValue b), cs)
  | '\\' :: 'b' :: cs => some ('\x08', cs)
  | '\\' :: 't' :: cs => some ('\t', cs)
  | '\\' :: 'n' :: cs => some ('\n', cs)
  | '\\' :: 'f' :: cs => some ('\x0c', cs)
  | '\\' :: 'r' :: cs => some ('\r', cs)
  | '\\' :: c :: cs => some (c, cs)
  | c :: cs => some (c, cs)
  | [] => none

theorem hexValue_hexDigit_control : ∀ n < 32,
    Char.ofNat (16 * hexValue (hexDigit (n / 16)) + hexValue (hexDigit (n % 16))) =
      Char.ofNat n := by
  decide +kernel

theorem unescapeChar_escapeChar (c : Char) (cs : List Char) :
    unescapeChar (escapeChar c ++ cs) = some (c, cs) := by
  unfold escapeChar
  split_ifs with h1 h2 h3 h4 h5 h6 h7 h8
  · rw [h1]; rfl
  · rw [h2]; rfl
  · rw [h3]; rfl
  · rw [h4]; rfl
  · rw [h5]; rfl
  · rw [h6]; rfl
  · rw [h7]; rfl
  · have hhex := hexValue_hexDigit_control c.toNat h8
    simp [unescapeChar, hhex]
  · rw [singleton_append, unescapeChar.eq_8]
    all_goals
      intros
      simp_all

theorem escapeChar_injective {c c' : Char} {cs cs' : List Char}
    (h : escapeChar c ++ cs = escapeChar c' ++ cs') : c = c' ∧ cs = cs' := by
  have hread := congrArg unescapeChar h
  rw [unescapeChar_escapeChar, unescapeChar_escapeChar] at hread
  exact Prod.mk.inj (Option.some.inj hread)

theorem escapeChar_ne_quote (c : Char) (cs cs' : List Char) :
    escapeChar c ++ cs ≠ '"' :: cs' := by
  unfold escapeChar
  split_ifs with h1 h2 h3 h4 h5 h6 h7 h8
  all_goals
    intro h
    simp_all

/-- A string as serde writes it. -/
def quoted (s : String) : List Char := '"' :: (s.toList.flatMap escapeChar ++ ['"'])

theorem flatMap_escapeChar_injective {cs cs' r r' : List Char}
    (h : cs.flatMap escapeChar ++ '"' :: r = cs'.flatMap escapeChar ++ '"' :: r') :
    cs = cs' ∧ r = r' := by
  induction cs generalizing cs' with
  | nil =>
    cases cs' with
    | nil => exact ⟨rfl, tail_eq_of_cons_eq h⟩
    | cons =>
      rw [flatMap_cons, append_assoc] at h
      exact absurd h.symm (escapeChar_ne_quote _ _ _)
  | cons _ _ ih =>
    rw [flatMap_cons, append_assoc] at h
    cases cs' with
    | nil => exact absurd h (escapeChar_ne_quote _ _ _)
    | cons =>
      rw [flatMap_cons, append_assoc] at h
      obtain ⟨rfl, hrest⟩ := escapeChar_injective h
      obtain ⟨rfl, rfl⟩ := ih hrest
      exact ⟨rfl, rfl⟩

theorem quoted_injective {s s' : String} {r r' : List Char}
    (h : quoted s ++ r = quoted s' ++ r') : s = s' ∧ r = r' := by
  simp only [quoted, cons_append, append_assoc, cons.injEq, true_and,
    nil_append] at h
  obtain ⟨hs, hr⟩ := flatMap_escapeChar_injective h
  exact ⟨String.toList_injective hs, hr⟩

namespace Json

mutual

def text : Json → List Char
  | null => "null".toList
  | bool true => "true".toList
  | bool false => "false".toList
  | number t => t.toList
  | string s => quoted s
  | array items => '[' :: itemsText items
  | object members => '{' :: membersText members

def itemsText : List Json → List Char
  | [] => [']']
  | v :: items => text v ++ moreItems items

def moreItems : List Json → List Char
  | [] => [']']
  | v :: items => ',' :: (text v ++ moreItems items)

def membersText : List (String × Json) → List Char
  | [] => ['}']
  | (k, v) :: members => quoted k ++ ':' :: (text v ++ moreMembers members)

def moreMembers : List (String × Json) → List Char
  | [] => ['}']
  | (k, v) :: members => ',' :: (quoted k ++ ':' :: (text v ++ moreMembers members))

end

def toText (v : Json) : String := String.ofList v.text

def isNumberChar (c : Char) : Bool :=
  c.isDigit || c == '-' || c == '+' || c == '.' || c == 'e' || c == 'E'

mutual

/-- Numbers are texts of the characters a number has. -/
def plain : Json → Bool
  | number t => !t.toList.isEmpty && t.toList.all isNumberChar
  | array items => plainItems items
  | object members => plainMembers members
  | _ => true

def plainItems : List Json → Bool
  | [] => true
  | v :: items => plain v && plainItems items

def plainMembers : List (String × Json) → Bool
  | [] => true
  | (_, v) :: members => plain v && plainMembers members

end

def Ends (r : List Char) : Prop := ∀ c ∈ r.head?, isNumberChar c = false

theorem Ends.nil : Ends [] := by
  nofun

theorem Ends.moreItems (items : List Json) (r : List Char) : Ends (moreItems items ++ r) := by
  intro c hc
  cases items with
  | nil | cons => cases hc; rfl

theorem Ends.moreMembers (members : List (String × Json)) (r : List Char) :
    Ends (moreMembers members ++ r) := by
  intro c hc
  cases members with
  | nil | cons => cases hc; rfl

inductive Shape
  | null | true | false | number | string | array | object
  deriving DecidableEq

def shape : Json → Shape
  | .null => .null
  | .bool .true => .true
  | .bool .false => .false
  | .number _ => .number
  | .string _ => .string
  | .array _ => .array
  | .object _ => .object

def shapeAt (c : Char) : Option Shape :=
  if isNumberChar c then some .number
  else
    match c with
    | 'n' => some .null
    | 't' => some .true
    | 'f' => some .false
    | '"' => some .string
    | '[' => some .array
    | '\x7b' => some .object
    | _ => none

variable {v : Json} {r' r : List Char} {members' members : List (String × Json)}

theorem text_eq_cons (h : v.plain = true) :
    ∃ c cs, v.text = c :: cs ∧ shapeAt c = some v.shape := by
  cases v with
  | null => exact ⟨'n', "ull".toList, rfl, by decide⟩
  | bool b =>
    cases b with
    | false => exact ⟨'f', "alse".toList, rfl, by decide⟩
    | true => exact ⟨'t', "rue".toList, rfl, by decide⟩
  | number =>
    simp only [plain, Bool.and_eq_true, Bool.not_eq_true', isEmpty_eq_false_iff] at h
    obtain ⟨c, cs, ht⟩ := exists_cons_of_ne_nil h.1
    rw [ht, all_cons, Bool.and_eq_true] at h
    exact ⟨c, cs, ht, if_pos h.2.1⟩
  | string => exact ⟨'"', _, rfl, rfl⟩
  | array => exact ⟨'[', _, rfl, rfl⟩
  | object => exact ⟨'\x7b', _, rfl, rfl⟩

/-- Whatever follows, a text that starts with the text of this value starts with no other. -/
def Told (v : Json) : Prop :=
  ∀ (v' : Json) (r r' : List Char), v.plain = true → v'.plain = true → Ends r → Ends r' →
    v.text ++ r = v'.text ++ r' → v = v' ∧ r = r'

theorem number_told {t t' : List Char} (ht : t.all isNumberChar = true)
    (ht' : t'.all isNumberChar = true) (hr : Ends r) (hr' : Ends r') (h : t ++ r = t' ++ r') :
    t = t' ∧ r = r' := by
  induction t generalizing t' with
  | nil =>
    cases t' with
    | nil => exact ⟨rfl, h⟩
    | cons c =>
      rw [nil_append] at h
      rw [all_cons, Bool.and_eq_true] at ht'
      have hc := hr c (by rw [h]; rfl)
      rw [ht'.1] at hc
      cases hc
  | cons c _ ih =>
    rw [all_cons, Bool.and_eq_true] at ht
    cases t' with
    | nil =>
      rw [nil_append] at h
      have hc := hr' c (by rw [← h]; rfl)
      rw [ht.1] at hc
      cases hc
    | cons =>
      rw [all_cons, Bool.and_eq_true] at ht'
      rw [cons_append, cons_append, cons.injEq] at h
      obtain ⟨rfl, hrest⟩ := h
      obtain ⟨rfl, rfl⟩ := ih ht.2 ht'.2 hrest
      exact ⟨rfl, rfl⟩

theorem moreItems_told {items items' : List Json} (htold : ∀ v ∈ items, Told v)
    (hp : plainItems items = true) (hp' : plainItems items' = true)
    (h : moreItems items ++ r = moreItems items' ++ r') : items = items' ∧ r = r' := by
  induction items generalizing items' with
  | nil =>
    cases items' with
    | nil => exact ⟨rfl, tail_eq_of_cons_eq h⟩
    | cons => exact absurd (head_eq_of_cons_eq h) (by decide)
  | cons v _ ih =>
    cases items' with
    | nil => exact absurd (head_eq_of_cons_eq h) (by decide)
    | cons v' =>
      simp only [plainItems, Bool.and_eq_true] at hp hp'
      simp only [moreItems, cons_append, append_assoc, cons.injEq, true_and] at h
      obtain ⟨rfl, hrest⟩ := htold v (.head _) v' _ _ hp.1 hp'.1 (.moreItems _ _)
        (.moreItems _ _) h
      obtain ⟨rfl, rfl⟩ := ih (fun w hw => htold w (.tail _ hw)) hp.2 hp'.2 hrest
      exact ⟨rfl, rfl⟩

theorem not_closes {c : Char} (hp : v.plain = true) (hc : shapeAt c = none) :
    v.text ++ r ≠ c :: r' := by
  intro h
  obtain ⟨d, ds, hd, hshape⟩ := text_eq_cons hp
  rw [hd, cons_append] at h
  rw [head_eq_of_cons_eq h, hc] at hshape
  cases hshape

/-! ## Texts determine values -/

theorem itemsText_told {items items' : List Json} (htold : ∀ v ∈ items, Told v)
    (hp : plainItems items = true) (hp' : plainItems items' = true)
    (h : itemsText items ++ r = itemsText items' ++ r') : items = items' ∧ r = r' := by
  cases items with
  | nil =>
    cases items' with
    | nil => exact ⟨rfl, tail_eq_of_cons_eq h⟩
    | cons =>
      simp only [plainItems, Bool.and_eq_true] at hp'
      simp only [itemsText, append_assoc] at h
      exact absurd h.symm (not_closes hp'.1 (by decide))
  | cons v =>
    simp only [plainItems, Bool.and_eq_true] at hp
    simp only [itemsText, append_assoc] at h
    cases items' with
    | nil => exact absurd h (not_closes hp.1 (by decide))
    | cons v' =>
      simp only [plainItems, Bool.and_eq_true] at hp'
      simp only [itemsText, append_assoc] at h
      obtain ⟨rfl, hrest⟩ := htold v (.head _) v' _ _ hp.1 hp'.1 (.moreItems _ _)
        (.moreItems _ _) h
      obtain ⟨rfl, rfl⟩ := moreItems_told (fun w hw => htold w (.tail _ hw)) hp.2
        hp'.2 hrest
      exact ⟨rfl, rfl⟩

theorem member_told {k k' : String} {v' : Json} (htold : Told v) (hp : v.plain = true)
    (hp' : v'.plain = true) (h : quoted k ++ ':' :: (v.text ++ (moreMembers members ++ r)) =
      quoted k' ++ ':' :: (v'.text ++ (moreMembers members' ++ r'))) :
    k = k' ∧ v = v' ∧ moreMembers members ++ r = moreMembers members' ++ r' := by
  obtain ⟨rfl, hvalue⟩ := quoted_injective h
  obtain ⟨rfl, hrest⟩ := htold v' _ _ hp hp' (.moreMembers _ _) (.moreMembers _ _)
    (tail_eq_of_cons_eq hvalue)
  exact ⟨rfl, rfl, hrest⟩

theorem moreMembers_told (htold : ∀ m ∈ members, Told m.2) (hp : plainMembers members = true)
    (hp' : plainMembers members' = true)
    (h : moreMembers members ++ r = moreMembers members' ++ r') :
    members = members' ∧ r = r' := by
  induction members generalizing members' with
  | nil =>
    cases members' with
    | nil => exact ⟨rfl, tail_eq_of_cons_eq h⟩
    | cons => exact absurd (head_eq_of_cons_eq h) (by decide)
  | cons m _ ih =>
    cases members' with
    | nil => exact absurd (head_eq_of_cons_eq h) (by decide)
    | cons m' =>
      simp only [plainMembers, Bool.and_eq_true] at hp hp'
      simp only [moreMembers, cons_append, append_assoc, cons.injEq, true_and] at h
      obtain ⟨hk, hv, hrest⟩ := member_told (htold m (.head _)) hp.1 hp'.1 h
      obtain rfl : m = m' := Prod.ext hk hv
      obtain ⟨rfl, rfl⟩ := ih (fun w hw => htold w (.tail _ hw)) hp.2 hp'.2 hrest
      exact ⟨rfl, rfl⟩

theorem membersText_told (htold : ∀ m ∈ members, Told m.2) (hp : plainMembers members = true)
    (hp' : plainMembers members' = true)
    (h : membersText members ++ r = membersText members' ++ r') :
    members = members' ∧ r = r' := by
  cases members with
  | nil =>
    cases members' with
    | nil => exact ⟨rfl, tail_eq_of_cons_eq h⟩
    | cons => exact absurd (head_eq_of_cons_eq h) (by decide)
  | cons m =>
    cases members' with
    | nil => exact absurd (head_eq_of_cons_eq h) (by decide)
    | cons m' =>
      simp only [plainMembers, Bool.and_eq_true] at hp hp'
      simp only [membersText, cons_append, append_assoc] at h
      obtain ⟨hk, hv, hrest⟩ := member_told (htold m (.head _)) hp.1 hp'.1 h
      obtain rfl : m = m' := Prod.ext hk hv
      obtain ⟨rfl, rfl⟩ := moreMembers_told (fun w hw => htold w (.tail _ hw)) hp.2
        hp'.2 hrest
      exact ⟨rfl, rfl⟩

theorem shape_eq_of_text_eq {v' : Json} (hp : v.plain = true) (hp' : v'.plain = true)
    (h : v.text ++ r = v'.text ++ r') : v.shape = v'.shape := by
  obtain ⟨c, cs, hc, hshape⟩ := text_eq_cons hp
  obtain ⟨c', cs', hc', hshape'⟩ := text_eq_cons hp'
  rw [hc, hc', cons_append, cons_append] at h
  rw [head_eq_of_cons_eq h, hshape'] at hshape
  exact (Option.some.inj hshape).symm

theorem told (v : Json) : Told v := by
  intro v' r r' hp hp' hr hr' h
  have hshape := shape_eq_of_text_eq hp hp' h
  match hv : v, v' with
  | .null, .null => exact ⟨rfl, append_cancel_left h⟩
  | .bool .true, .bool .true => exact ⟨rfl, append_cancel_left h⟩
  | .bool .false, .bool .false => exact ⟨rfl, append_cancel_left h⟩
  | .number t, .number t' =>
    simp only [plain, Bool.and_eq_true] at hp hp'
    obtain ⟨ht, hrest⟩ := number_told hp.2 hp'.2 hr hr' h
    exact ⟨congrArg number (String.toList_injective ht), hrest⟩
  | .string s, .string s' =>
    obtain ⟨rfl, hrest⟩ := quoted_injective h
    exact ⟨rfl, hrest⟩
  | .array items, .array items' =>
    obtain ⟨rfl, hrest⟩ := itemsText_told (fun w hw => told w) hp hp' (tail_eq_of_cons_eq h)
    exact ⟨rfl, hrest⟩
  | .object members, .object members' =>
    obtain ⟨rfl, hrest⟩ := membersText_told (fun m hm => told m.2) hp hp'
      (tail_eq_of_cons_eq h)
    exact ⟨rfl, hrest⟩
termination_by v
decreasing_by
  · have := List.sizeOf_lt_of_mem hw
    simp only [array.sizeOf_spec]
    omega
  · have := List.sizeOf_lt_of_mem hm
    simp only [object.sizeOf_spec]
    cases m
    simp only [Prod.mk.sizeOf_spec] at this ⊢
    omega

theorem toText_injective {v' : Json} (hp : v.plain = true) (hp' : v'.plain = true)
    (h : v.toText = v'.toText) : v = v' := by
  have htext : v.text = v'.text := by simpa [toText] using congrArg String.toList h
  exact (told v v' [] [] hp hp' .nil .nil (by rw [htext])).1

end Json

end QueryFlux.Core
