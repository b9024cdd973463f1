import Mathlib.Data.Nat.Digits.Defs
import Mathlib.Data.List.Basic
import Mathlib.Tactic

/-!
# Byte strings

The handful of operations that C++ code performs on `std::string` and `std::string_view`, over
lists of bytes: searching for a byte from either end, taking the text before a position, folding
ASCII letters to lower case, and rendering a number in decimal.

A position is an `Option ℕ`, with `none` for `npos`; `upTo` then has the behaviour of
`substr(0, pos)`, for which `npos` means the whole string.

Two groups of lemmas follow the definitions.  The first reads a search on a string that is known
to be cut at the byte searched for (`find_cut`, `rfind_cut`, `cut_inj`).  The second says that
decimal rendering uses digits only and can be undone (`isDigit_of_mem_decimal`,
`decimalValue_decimal`).
-/

/-- A string of bytes. -/
abbrev ByteString := List UInt8

namespace ByteString

/-! ## Operations -/

/-- The bytes of an ASCII literal. -/
def ascii (s : String) : ByteString :=
  s.toList.map fun c => c.toNat.toUInt8

/-- The position of the first `c`. -/
def find (c : UInt8) : ByteString → Option ℕ
  | [] => none
  | b :: s => if b = c then some 0 else (find c s).map (· + 1)

/-- The position of the last `c`. -/
def rfind (c : UInt8) : ByteString → Option ℕ
  | [] => none
  | b :: s =>
      match rfind c s with
      | some i => some (i + 1)
      | none => if b = c then some 0 else none

/-- The text before a position; all of it when there is no position. -/
def upTo (pos : Option ℕ) (s : ByteString) : ByteString :=
  match pos with
  | none => s
  | some n => s.take n

/-- Lower case of one ASCII byte. -/
def toLowerByte (b : UInt8) : UInt8 :=
  if 65 ≤ b ∧ b ≤ 90 then b + 32 else b

def toLower (s : ByteString) : ByteString :=
  s.map toLowerByte

def digitByte (d : ℕ) : UInt8 :=
  (48 + d).toUInt8

/-- A number in decimal, without leading zeros. -/
def decimal (n : ℕ) : ByteString :=
  if n = 0 then [digitByte 0] else (Nat.digits 10 n).reverse.map digitByte

/-- The number that decimal text denotes. -/
def decimalValue (s : ByteString) : ℕ :=
  s.foldl (fun acc b => 10 * acc + (b.toNat - 48)) 0

/-- An integer in decimal, with a minus sign in front if it is negative. -/
def signedDecimal (n : ℤ) : ByteString :=
  if n < 0 then 45 :: decimal n.natAbs else decimal n.natAbs

/-- The integer that such text denotes. -/
def signedValue (s : ByteString) : ℤ :=
  if s.head? = some 45 then -decimalValue s.tail else decimalValue s

def IsDigit (b : UInt8) : Prop :=
  48 ≤ b ∧ b ≤ 57

instance (b : UInt8) : Decidable (IsDigit b) :=
  inferInstanceAs (Decidable (_ ∧ _))

/-! ## Searching a string that is cut at the byte searched for -/

/-- The first `c` is where the text without `c` ends. -/
lemma find_cut {c : UInt8} : ∀ {x : ByteString} (y : ByteString), c ∉ x →
    find c (x ++ c :: y) = some x.length
  | [], y, _ => by simp [find]
  | b :: x, y, h => by
      obtain ⟨hb, hx⟩ := List.ne_and_not_mem_of_not_mem_cons h
      simp [find, hb.symm, find_cut y hx]

lemma find_of_notMem {c : UInt8} : ∀ {s : ByteString}, c ∉ s → find c s = none
  | [], _ => rfl
  | b :: s, h => by
      obtain ⟨hb, hs⟩ := List.ne_and_not_mem_of_not_mem_cons h
      simp [find, hb.symm, find_of_notMem hs]

lemma rfind_of_notMem {c : UInt8} : ∀ {s : ByteString}, c ∉ s → rfind c s = none
  | [], _ => rfl
  | b :: s, h => by
      obtain ⟨hb, hs⟩ := List.ne_and_not_mem_of_not_mem_cons h
      simp [rfind, hb.symm, rfind_of_notMem hs]

/-- The last `c` is where the text without `c` begins. -/
lemma rfind_cut {c : UInt8} {y : ByteString} (hy : c ∉ y) : ∀ x : ByteString,
    rfind c (x ++ c :: y) = some x.length
  | [] => by simp [rfind, rfind_of_notMem hy]
  | b :: x => by simp [rfind, rfind_cut hy x]

lemma upTo_eq_take (pos : Option ℕ) (s : ByteString) : upTo pos s = s.take (pos.getD s.length) := by
  cases pos with
  | none => rw [Option.getD_none, List.take_length, upTo]
  | some n => rfl

@[simp] lemma upTo_some_length (x y : ByteString) : upTo (some x.length) (x ++ y) = x := by
  simp [upTo]

/-- Text without `c` that is followed by `c` ends at the first `c`, so both parts can be read off
the whole. -/
lemma cut_inj {c : UInt8} {x x' y y' : ByteString} (hx : c ∉ x) (hx' : c ∉ x')
    (h : x ++ c :: y = x' ++ c :: y') : x = x' ∧ y = y' := by
  have hlen : x.length = x'.length := by
    have := congrArg (find c) h
    simpa [find_cut y hx, find_cut y' hx'] using this
  obtain ⟨hxx, hyy⟩ := List.append_inj h hlen
  exact ⟨hxx, (List.cons.inj hyy).2⟩

/-! ## Lower case -/

lemma toLowerByte_toLowerByte (b : UInt8) : toLowerByte (toLowerByte b) = toLowerByte b := by
  simp only [toLowerByte, UInt8.le_iff_toNat_le]
  split_ifs with h h' <;> simp_all
  -- a byte that was an upper case letter is moved behind them
  omega

/-- Text in lower case stays as it is. -/
@[simp] lemma toLower_toLower (s : ByteString) : toLower (toLower s) = toLower s := by
  simp [toLower, toLowerByte_toLowerByte]

/-! ## Decimal rendering -/

lemma toNat_digitByte {d : ℕ} (hd : d < 10) : (digitByte d).toNat = 48 + d := by
  simp only [digitByte, Nat.toUInt8, UInt8.toNat_ofNat']
  omega

lemma isDigit_digitByte {d : ℕ} (hd : d < 10) : IsDigit (digitByte d) := by
  have h := toNat_digitByte hd
  constructor <;> rw [UInt8.le_iff_toNat_le, h] <;> simp
  omega

lemma isDigit_of_mem_decimal {n : ℕ} {b : UInt8} (hb : b ∈ decimal n) : IsDigit b := by
  rw [decimal] at hb
  split_ifs at hb with h
  · rw [List.mem_singleton.mp hb]
    exact isDigit_digitByte (by norm_num)
  · obtain ⟨d, hd, rfl⟩ := List.mem_map.mp hb
    exact isDigit_digitByte (Nat.digits_lt_base (by norm_num) (List.mem_reverse.mp hd))

/-- A byte that is no digit does not occur in decimal text. -/
lemma notMem_decimal {b : UInt8} (hb : ¬ IsDigit b) (n : ℕ) : b ∉ decimal n :=
  fun h => hb (isDigit_of_mem_decimal h)

/-- Reading digits, most significant first, is `Nat.ofDigits` on the reversed list. -/
lemma decimalValue_digits : ∀ ds : List ℕ, (∀ d ∈ ds, d < 10) →
    decimalValue (ds.reverse.map digitByte) = Nat.ofDigits 10 ds
  | [], _ => rfl
  | d :: ds, h => by
      have ih := decimalValue_digits ds fun e he => h e (List.mem_cons_of_mem d he)
      rw [decimalValue] at ih ⊢
      rw [List.reverse_cons, List.map_append, List.foldl_append, ih]
      simp only [List.map_cons, List.map_nil, List.foldl_cons, List.foldl_nil,
        toNat_digitByte (h d List.mem_cons_self), Nat.ofDigits_cons]
      omega

/-- **Decimal rendering can be undone.** -/
@[simp] theorem decimalValue_decimal (n : ℕ) : decimalValue (decimal n) = n := by
  rw [decimal]
  split_ifs with h
  · rw [h]; decide
  · rw [decimalValue_digits _ fun d hd => Nat.digits_lt_base (by norm_num) hd,
      Nat.ofDigits_digits]

lemma decimal_injective : Function.Injective decimal :=
  Function.LeftInverse.injective decimalValue_decimal

lemma mem_signedDecimal {n : ℤ} {b : UInt8} (hb : b ∈ signedDecimal n) : IsDigit b ∨ b = 45 := by
  rw [signedDecimal] at hb
  split_ifs at hb
  · rcases List.mem_cons.mp hb with hb | hb
    · exact Or.inr hb
    · exact Or.inl (isDigit_of_mem_decimal hb)
  · exact Or.inl (isDigit_of_mem_decimal hb)

lemma notMem_signedDecimal {b : UInt8} (hb : ¬(IsDigit b ∨ b = 45)) (n : ℤ) :
    b ∉ signedDecimal n :=
  fun h => hb (mem_signedDecimal h)

/-- **So can the rendering of integers.** -/
@[simp] theorem signedValue_signedDecimal (n : ℤ) : signedValue (signedDecimal n) = n := by
  rw [signedValue, signedDecimal]
  split_ifs with hneg hsign hsign
  · simp only [List.tail_cons, decimalValue_decimal]
    omega
  · exact absurd rfl hsign
  · -- a digit is no sign
    have hdigit : IsDigit 45 := isDigit_of_mem_decimal (List.mem_of_head? hsign)
    exact absurd hdigit (by decide)
  · rw [decimalValue_decimal]
    omega

end ByteString
