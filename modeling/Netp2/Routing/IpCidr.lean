import Netp2.Library.Ipv4

/-!
# The client-IP filter

`ip_in_cidr` decides on text.  It supports the lengths 24, 16, 8 and 0, each by its own string
comparison, and treats every other length as an exact address.

This file has the filter as the source computes it (`ipInCidr`), the entries an operator can write
in canonical form (`CidrEntry`, with the addresses each one stands for), and the comparison of the
two.  Every branch but one agrees with the bits or is stricter.  The exception is `/16`:

* the text in front of the second dot of the *block* is compared with as many bytes of the client
  address, and nothing requires the client's second octet to end there;
* so `10.12.0.1` is accepted for `10.1.0.0/16`, the digits of `1` being a prefix of those of `12`.

`Overmatches` names exactly these pairs, and `ipInCidr_entry` says that an accepted address is
either contained or overmatched.  In the other direction nothing is lost as long as the length is
`Supported`: `supported_block_admits`.
-/

namespace Netp2.Routing

open ByteString Ipv4

def slash : UInt8 := 47

/-! ## The filter -/

/-- The loop of the `/16` branch: the position of the second dot, counting from `count` dots
already seen and position `i`. -/
def secondDot : (count i : ℕ) → ByteString → Option ℕ
  | _, _, [] => none
  | count, i, b :: rest =>
      if b = dot then
        if count + 1 = 2 then some i else secondDot (count + 1) (i + 1) rest
      else secondDot count (i + 1) rest

/-- `ip_in_cidr`.  A `/16` block with fewer than two dots falls through to the exact comparison at
the end, as every unsupported length does. -/
def ipInCidr (ip cidr : ByteString) : Bool :=
  match find slash cidr with
  | none => ip == cidr
  | some slashPos =>
      let netPrefix := cidr.take slashPos
      let prefixLenStr := cidr.drop (slashPos + 1)
      if prefixLenStr = ascii "24" then
        upTo (rfind dot netPrefix) netPrefix == upTo (rfind dot ip) ip
      else
        match (if prefixLenStr = ascii "16" then secondDot 0 0 netPrefix else none) with
        | some pos => ip.take pos == netPrefix.take pos
        | none =>
            if prefixLenStr = ascii "8" then
              upTo (find dot netPrefix) netPrefix == upTo (find dot ip) ip
            else if prefixLenStr = ascii "0" then true
            else ip == netPrefix

/-! ## Canonical entries -/

/-- An entry of `allowed_client_cidrs` in canonical form: an address, or a block. -/
inductive CidrEntry where
  | address (base : Ipv4)
  | block (base : Ipv4) (len : Fin 33)
  deriving DecidableEq, Repr

namespace CidrEntry

def text : CidrEntry → ByteString
  | address base => base.text
  | block base len => base.text ++ slash :: decimal len

/-- The addresses the entry stands for. -/
def Contains : CidrEntry → Ipv4 → Prop
  | address base, ip => ip = base
  | block base len, ip => SamePrefix len ip base

/-- The addresses outside a `/16` block whose second octet extends the block's in decimal. -/
def Overmatches : CidrEntry → Ipv4 → Prop
  | address _, _ => False
  | block base len, ip =>
      len = 16 ∧ ip.o1 = base.o1 ∧ ip.o2 ≠ base.o2 ∧ decimal base.o2 <+: decimal ip.o2

end CidrEntry

/-! ## Reading the text of an address

The three cuts the filter makes, on canonical text.
-/

lemma slash_notMem_text (x : Ipv4) : slash ∉ x.text := by
  intro h
  rcases mem_text h with h | h
  · exact absurd h (by decide)
  · exact absurd h (by decide)

/-- A block is not written like an address. -/
lemma text_ne_block (x base : Ipv4) (len : Fin 33) :
    x.text ≠ (CidrEntry.block base len).text := by
  intro h
  have hslash : slash ∈ x.text := by
    rw [h]
    simp [CidrEntry.text]
  exact slash_notMem_text x hslash

/-- A canonical entry is determined by its text. -/
lemma CidrEntry.text_inj {e e' : CidrEntry} (h : e.text = e'.text) : e = e' := by
  cases e with
  | address base =>
      cases e' with
      | address base' => rw [text_injective h]
      | block base' len' => exact absurd h (text_ne_block base base' len')
  | block base len =>
      cases e' with
      | address base' => exact absurd h.symm (text_ne_block base' base len)
      | block base' len' =>
          obtain ⟨hbase, hlen⟩ := cut_inj (slash_notMem_text base) (slash_notMem_text base') h
          rw [text_injective hbase, Fin.ext (decimal_injective hlen)]

lemma upTo_find_text (x : Ipv4) : upTo (find dot x.text) x.text = decimal x.o1 := by
  rw [text, find_cut _ (dot_notMem_decimal _), upTo_some_length]

lemma upTo_rfind_text (x : Ipv4) :
    upTo (rfind dot x.text) x.text
      = decimal x.o1 ++ dot :: (decimal x.o2 ++ dot :: decimal x.o3) := by
  have h : x.text
      = (decimal x.o1 ++ dot :: (decimal x.o2 ++ dot :: decimal x.o3)) ++ dot :: decimal x.o4 := by
    simp [text]
  rw [h, rfind_cut (dot_notMem_decimal _), upTo_some_length]

/-- Text without dots only advances the position of the loop. -/
lemma secondDot_append {x : ByteString} (hx : dot ∉ x) (s : ByteString) : ∀ count i : ℕ,
    secondDot count i (x ++ s) = secondDot count (i + x.length) s := by
  induction x with
  | nil => intro count i; rfl
  | cons b x ih =>
      intro count i
      obtain ⟨hb, hx'⟩ := List.ne_and_not_mem_of_not_mem_cons hx
      simp only [List.cons_append, secondDot, hb.symm, if_false]
      rw [ih hx', List.length_cons]
      congr 1
      omega

/-- The first two octets with the dot between them, as the loop of the `/16` branch cuts them. -/
def twoOctets (x : Ipv4) : ByteString :=
  decimal x.o1 ++ dot :: decimal x.o2

lemma secondDot_text (x : Ipv4) : secondDot 0 0 x.text = some (twoOctets x).length := by
  rw [text, secondDot_append (dot_notMem_decimal _)]
  simp only [secondDot, if_true]
  rw [if_neg (by norm_num), secondDot_append (dot_notMem_decimal _)]
  simp only [secondDot, if_true]
  simp [twoOctets]
  omega

lemma take_text (x : Ipv4) : x.text.take (twoOctets x).length = twoOctets x := by
  have h : x.text = twoOctets x ++ dot :: (decimal x.o3 ++ dot :: decimal x.o4) := by
    simp [text, twoOctets]
  rw [h, List.take_left]

/-- The comparison of the `/16` branch, octet by octet: the second one is compared as a prefix of
digits. -/
lemma take_text_eq_twoOctets (ip base : Ipv4) :
    ip.text.take (twoOctets base).length = twoOctets base
      ↔ ip.o1 = base.o1 ∧ decimal base.o2 <+: decimal ip.o2 := by
  rw [eq_comm, ← List.prefix_iff_eq_take]
  constructor
  · rintro ⟨t, ht⟩
    simp only [twoOctets, text, List.append_assoc, List.cons_append] at ht
    obtain ⟨h1, h2⟩ := cut_inj (dot_notMem_decimal _) (dot_notMem_decimal _) ht
    refine ⟨(decimal_octet_inj h1).symm, ?_⟩
    have hbase : decimal base.o2 <+: decimal base.o2 ++ t := List.prefix_append _ _
    have hip : decimal ip.o2 <+: decimal base.o2 ++ t := h2 ▸ List.prefix_append _ _
    rcases List.prefix_or_prefix_of_prefix hbase hip with h | ⟨u, hu⟩
    · exact h
    · -- the block's octet would have to go on with the client's second dot
      rw [← hu, List.append_assoc, List.append_cancel_left_eq] at h2
      cases u with
      | nil => rw [← hu, List.append_nil]
      | cons b u =>
          obtain ⟨rfl, _⟩ := List.cons.inj h2
          exact absurd (hu ▸ by simp) (dot_notMem_decimal base.o2)
  · rintro ⟨h1, u, hu⟩
    refine ⟨u ++ dot :: (decimal ip.o3 ++ dot :: decimal ip.o4), ?_⟩
    simp [twoOctets, text, ← hu, h1]

/-! ## What the filter accepts -/

lemma ipInCidr_address (ip base : Ipv4) :
    ipInCidr ip.text (CidrEntry.address base).text = true ↔ ip = base := by
  simp only [ipInCidr, CidrEntry.text, find_of_notMem (slash_notMem_text base), beq_iff_eq]
  exact text_injective.eq_iff

/-- The length of a block, read back from its text. -/
lemma decimal_len_eq_ascii (len : Fin 33) :
    (decimal len = ascii "24" ↔ len = 24) ∧ (decimal len = ascii "16" ↔ len = 16)
      ∧ (decimal len = ascii "8" ↔ len = 8) ∧ (decimal len = ascii "0" ↔ len = 0) := by
  have h24 : ascii "24" = decimal 24 := by decide
  have h16 : ascii "16" = decimal 16 := by decide
  have h8 : ascii "8" = decimal 8 := by decide
  have h0 : ascii "0" = decimal 0 := by decide
  simp only [h24, h16, h8, h0, decimal_injective.eq_iff]
  omega

/-- An entry with a slash, with the two parts read off its canonical text. -/
lemma ipInCidr_block (ip base : Ipv4) (len : Fin 33) :
    ipInCidr ip.text (CidrEntry.block base len).text = true ↔
      if len = 24 then ip.o1 = base.o1 ∧ ip.o2 = base.o2 ∧ ip.o3 = base.o3
      else if len = 16 then ip.o1 = base.o1 ∧ decimal base.o2 <+: decimal ip.o2
      else if len = 8 then ip.o1 = base.o1
      else if len = 0 then True
      else ip = base := by
  have hslash := find_cut (decimal len) (slash_notMem_text base)
  have hpre : (base.text ++ slash :: decimal len).take base.text.length = base.text :=
    List.take_left
  have hlen : (base.text ++ slash :: decimal len).drop (base.text.length + 1) = decimal len := by
    simp
  obtain ⟨h24, h16, h8, h0⟩ := decimal_len_eq_ascii len
  simp only [ipInCidr, CidrEntry.text, hslash, hpre, hlen, h24, h16, h8, h0]
  by_cases c24 : len = 24
  · -- three octets on either side
    simp only [c24, if_true, upTo_rfind_text, beq_iff_eq]
    constructor
    · intro h
      obtain ⟨h1, h⟩ := cut_inj (dot_notMem_decimal _) (dot_notMem_decimal _) h
      obtain ⟨h2, h3⟩ := cut_inj (dot_notMem_decimal _) (dot_notMem_decimal _) h
      exact ⟨(decimal_octet_inj h1).symm, (decimal_octet_inj h2).symm, (decimal_octet_inj h3).symm⟩
    · rintro ⟨h1, h2, h3⟩
      rw [h1, h2, h3]
  · by_cases c16 : len = 16
    · simp only [if_neg c24, if_pos c16, secondDot_text, take_text, beq_iff_eq]
      exact take_text_eq_twoOctets ip base
    · simp only [if_neg c24, if_neg c16]
      split_ifs with c8 c0
      · rw [upTo_find_text, upTo_find_text, beq_iff_eq, decimal_injective.eq_iff, ← Fin.ext_iff,
          eq_comm]
      · simp
      · rw [beq_iff_eq, text_injective.eq_iff]

/-- **What is accepted is contained or overmatched.** -/
theorem ipInCidr_entry {ip : Ipv4} {e : CidrEntry} (h : ipInCidr ip.text e.text = true) :
    e.Contains ip ∨ e.Overmatches ip := by
  cases e with
  | address base => exact Or.inl ((ipInCidr_address ip base).mp h)
  | block base len =>
      have hacc := (ipInCidr_block ip base len).mp h
      split_ifs at hacc with c24 c16 c8 c0
      · subst c24
        exact Or.inl ((samePrefix_24 ip base).mpr hacc)
      · subst c16
        by_cases h2 : ip.o2 = base.o2
        · exact Or.inl ((samePrefix_16 ip base).mpr ⟨hacc.1, h2⟩)
        · exact Or.inr ⟨rfl, hacc.1, h2, hacc.2⟩
      · subst c8
        exact Or.inl ((samePrefix_8 ip base).mpr hacc)
      · subst c0
        exact Or.inl (samePrefix_0 ip base)
      · subst hacc
        exact Or.inl (samePrefix_refl _ _)

/-! ## Nothing contained is refused -/

/-- The lengths at which a block is decided by its bits. -/
def Supported (len : Fin 33) : Prop :=
  len ∈ [0, 8, 16, 24, 32]

instance (len : Fin 33) : Decidable (Supported len) :=
  inferInstanceAs (Decidable (_ ∈ _))

lemma ipInCidr_of_samePrefix {ip base : Ipv4} {len : Fin 33} (hlen : Supported len)
    (h : SamePrefix len ip base) : ipInCidr ip.text (CidrEntry.block base len).text = true := by
  rw [ipInCidr_block]
  simp only [Supported, List.mem_cons, List.not_mem_nil, or_false] at hlen
  rcases hlen with rfl | rfl | rfl | rfl | rfl
  · simp
  · simpa using (samePrefix_8 ip base).mp h
  · obtain ⟨h1, h2⟩ := (samePrefix_16 ip base).mp h
    simpa [h1] using h2 ▸ List.prefix_refl _
  · simpa using (samePrefix_24 ip base).mp h
  · -- no branch of its own: the exact comparison at the end
    simpa using (samePrefix_32 ip base).mp h

/-- **Every address of a supported block is admitted**, whatever address of the block it is written
with; and an entry without a slash admits its address only. -/
theorem supported_block_admits (ip base : Ipv4) :
    (∀ len : Fin 33, Supported len → SamePrefix len ip base →
        ipInCidr ip.text (CidrEntry.block base len).text = true) ∧
      (ipInCidr ip.text (CidrEntry.address base).text = true ↔ ip = base) := by
  refine ⟨?_, ipInCidr_address ip base⟩
  intro len hlen h
  exact ipInCidr_of_samePrefix hlen h

end Netp2.Routing
