import Netp2.Library.ByteString

/-!
# IPv4 addresses and their dotted-quad text

An address is four octets; `addr` reads them as one 32-bit number, and `SamePrefix n` compares the
top `n` bits of two of those numbers.  `text` is the canonical dotted-quad form.

Text and bits are two views of the same octets, and a program that filters addresses may work on
either.  The lemmas here translate between them: `text_injective` on the side of the text,
`samePrefix_8`, `samePrefix_16`, `samePrefix_24` and `samePrefix_32` on the side of the bits.
-/

/-- An IPv4 address as its four octets, the most significant first. -/
structure Ipv4 where
  o1 : Fin 256
  o2 : Fin 256
  o3 : Fin 256
  o4 : Fin 256
  deriving DecidableEq, Repr

namespace Ipv4

open ByteString

def dot : UInt8 := 46

/-- The canonical dotted-quad text. -/
def text (x : Ipv4) : ByteString :=
  decimal x.o1 ++ dot :: (decimal x.o2 ++ dot :: (decimal x.o3 ++ dot :: decimal x.o4))

def addr (x : Ipv4) : ℕ :=
  ((x.o1 * 256 + x.o2) * 256 + x.o3) * 256 + x.o4

/-- The top `n` bits of the two addresses are equal. -/
def SamePrefix (n : ℕ) (x y : Ipv4) : Prop :=
  x.addr / 2 ^ (32 - n) = y.addr / 2 ^ (32 - n)

instance (n : ℕ) (x y : Ipv4) : Decidable (SamePrefix n x y) :=
  inferInstanceAs (Decidable (_ = _))

lemma dot_notMem_decimal (n : ℕ) : dot ∉ decimal n :=
  notMem_decimal (by decide) n

/-! ## Text -/

lemma decimal_octet_inj {m n : Fin 256} (h : decimal m = decimal n) : m = n :=
  Fin.ext (decimal_injective h)

/-- **The text of an address determines it.** -/
theorem text_injective : Function.Injective text := by
  intro x y h
  obtain ⟨h1, h⟩ := cut_inj (dot_notMem_decimal _) (dot_notMem_decimal _) h
  obtain ⟨h2, h⟩ := cut_inj (dot_notMem_decimal _) (dot_notMem_decimal _) h
  obtain ⟨h3, h4⟩ := cut_inj (dot_notMem_decimal _) (dot_notMem_decimal _) h
  cases x
  cases y
  simp only [mk.injEq]
  exact ⟨decimal_octet_inj h1, decimal_octet_inj h2, decimal_octet_inj h3, decimal_octet_inj h4⟩

/-- A byte of the text is a digit or a dot. -/
lemma mem_text {x : Ipv4} {b : UInt8} (h : b ∈ x.text) : IsDigit b ∨ b = dot := by
  simp only [text, List.mem_append, List.mem_cons] at h
  rcases h with h | h | h | h | h | h | h
  · exact Or.inl (isDigit_of_mem_decimal h)
  · exact Or.inr h
  · exact Or.inl (isDigit_of_mem_decimal h)
  · exact Or.inr h
  · exact Or.inl (isDigit_of_mem_decimal h)
  · exact Or.inr h
  · exact Or.inl (isDigit_of_mem_decimal h)

/-! ## Bits -/

lemma samePrefix_refl (n : ℕ) (x : Ipv4) : SamePrefix n x x := rfl

lemma samePrefix_8 (x y : Ipv4) : SamePrefix 8 x y ↔ x.o1 = y.o1 := by
  simp only [SamePrefix, addr, Fin.ext_iff]
  omega

lemma samePrefix_16 (x y : Ipv4) : SamePrefix 16 x y ↔ x.o1 = y.o1 ∧ x.o2 = y.o2 := by
  simp only [SamePrefix, addr, Fin.ext_iff]
  omega

lemma samePrefix_24 (x y : Ipv4) :
    SamePrefix 24 x y ↔ x.o1 = y.o1 ∧ x.o2 = y.o2 ∧ x.o3 = y.o3 := by
  simp only [SamePrefix, addr, Fin.ext_iff]
  omega

lemma samePrefix_0 (x y : Ipv4) : SamePrefix 0 x y := by
  simp only [SamePrefix, addr]
  omega

/-- All 32 bits are the address. -/
lemma samePrefix_32 (x y : Ipv4) : SamePrefix 32 x y ↔ x = y := by
  constructor
  · intro h
    simp only [SamePrefix, addr] at h
    cases x
    cases y
    simp only [mk.injEq, Fin.ext_iff] at *
    omega
  · rintro rfl
    exact samePrefix_refl 32 x

end Ipv4
