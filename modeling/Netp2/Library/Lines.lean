import Netp2.Library.ByteString

/-!
# Text made of lines

Many protocols send a head made of lines, each ended by CR LF, then an empty line, then anything.
A reader finds the end of the head by the first empty line and takes the head apart at the line
ends.

`cutAt` is the search for the first occurrence of a separator and `lines` takes a text apart.
Both are inverted by what a writer does, if the lines are without CR and LF (`lines_intercalate`)
and none of them is empty (`cutAt_intercalate`); what follows the head may be anything.
-/

namespace Lines

open ByteString

def cr : UInt8 := 13

def lf : UInt8 := 10

def crlf : ByteString := [cr, lf]

/-- Text that can stand on a line. -/
def OneLine (l : ByteString) : Prop :=
  cr ∉ l ∧ lf ∉ l

instance (l : ByteString) : Decidable (OneLine l) :=
  inferInstanceAs (Decidable (_ ∧ _))

/-- What is in front of the first `sep`, and what is behind it. -/
def cutAt (sep : ByteString) : ByteString → Option (ByteString × ByteString)
  | [] => none
  | b :: s =>
      if sep.isPrefixOf (b :: s) then some ([], (b :: s).drop sep.length)
      else (cutAt sep s).map fun p => (b :: p.1, p.2)

/-- The lines of a text, without their ends. -/
def lines : ByteString → List ByteString
  | [] => [[]]
  | [b] => [[b]]
  | b :: c :: s =>
      if b = cr ∧ c = lf then [] :: lines s
      else
        match lines (c :: s) with
        | [] => [[b]]
        | l :: ls => (b :: l) :: ls

/-! ## The lines of a text -/

lemma lines_cons {b : UInt8} (hb : b ≠ cr) {s l : ByteString} {ls : List ByteString}
    (h : lines s = l :: ls) : lines (b :: s) = (b :: l) :: ls := by
  cases s with
  | nil =>
      obtain ⟨rfl, rfl⟩ : [] = l ∧ [] = ls := by simpa [lines] using h
      rfl
  | cons c s => simp [lines, hb, h]

lemma lines_append {l : ByteString} (hl : cr ∉ l) {s l' : ByteString} {ls : List ByteString}
    (h : lines s = l' :: ls) : lines (l ++ s) = (l ++ l') :: ls := by
  induction l with
  | nil => exact h
  | cons b l ih =>
      obtain ⟨hb, hl'⟩ := List.ne_and_not_mem_of_not_mem_cons hl
      exact lines_cons hb.symm (ih hl')

/-- **Lines can be read back.** -/
theorem lines_intercalate : ∀ {ls : List ByteString}, ls ≠ [] → (∀ l ∈ ls, cr ∉ l) →
    lines (crlf.intercalate ls) = ls
  | [], hne, _ => absurd rfl hne
  | [l], _, h => by
      have hl := lines_append (h l (by simp)) (show lines [] = [] :: [] from rfl)
      simpa using hl
  | l :: l' :: ls, _, h => by
      have hrest := lines_intercalate (List.cons_ne_nil l' ls) fun x hx => h x (by simp [hx])
      have hend : lines (crlf ++ crlf.intercalate (l' :: ls)) = [] :: l' :: ls := by
        rw [crlf, List.cons_append, List.cons_append, List.nil_append, lines, if_pos ⟨rfl, rfl⟩,
          ← crlf, hrest]
      rw [List.intercalate_cons_cons, List.append_assoc, lines_append (h l (by simp)) hend,
        List.append_nil]

/-! ## The end of the head -/

lemma cutAt_skip {sep s : ByteString} {b : UInt8} (h : ¬sep <+: b :: s) :
    cutAt sep (b :: s) = (cutAt sep s).map fun p => (b :: p.1, p.2) := by
  rw [cutAt, if_neg]
  simpa using h

/-- Text without the first byte of the separator is passed over. -/
lemma cutAt_append {a : UInt8} {sep l : ByteString} (hsep : sep.head? = some a) (hl : a ∉ l)
    (s : ByteString) : cutAt sep (l ++ s) = (cutAt sep s).map fun p => (l ++ p.1, p.2) := by
  induction l with
  | nil => simp
  | cons b l ih =>
      obtain ⟨hb, hl'⟩ := List.ne_and_not_mem_of_not_mem_cons hl
      have hskip : ¬sep <+: b :: (l ++ s) := by
        rintro ⟨t, ht⟩
        cases sep with
        | nil => simp at hsep
        | cons c sep =>
            simp only [List.head?_cons, Option.some.injEq] at hsep
            exact hb (hsep.symm.trans (List.cons.inj ht).1)
      rw [List.cons_append, cutAt_skip hskip, ih hl', Option.map_map]
      rfl

lemma cutAt_self {sep : ByteString} (hsep : sep ≠ []) (s : ByteString) :
    cutAt sep (sep ++ s) = some ([], s) := by
  cases sep with
  | nil => exact absurd rfl hsep
  | cons a sep => simp [cutAt]

/-- The end of a line does not begin an empty line, if the next line is not empty. -/
lemma cutAt_crlf {b : UInt8} (hb : b ≠ cr) (s : ByteString) :
    cutAt (crlf ++ crlf) (crlf ++ b :: s)
      = (cutAt (crlf ++ crlf) (b :: s)).map fun p => (crlf ++ p.1, p.2) := by
  have hfirst : ¬crlf ++ crlf <+: cr :: lf :: b :: s := by simp [crlf, hb.symm]
  have hsecond : ¬crlf ++ crlf <+: lf :: b :: s := by simp [crlf, cr, lf]
  show cutAt (crlf ++ crlf) (cr :: lf :: b :: s) = _
  rw [cutAt_skip hfirst, cutAt_skip hsecond, Option.map_map]
  rfl

/-- **The head can be read back**, whatever follows it. -/
theorem cutAt_intercalate (body : ByteString) : ∀ {ls : List ByteString}, ls ≠ [] →
    (∀ l ∈ ls, cr ∉ l ∧ l ≠ []) →
      cutAt (crlf ++ crlf) (crlf.intercalate ls ++ (crlf ++ crlf) ++ body)
        = some (crlf.intercalate ls, body)
  | [], hne, _ => absurd rfl hne
  | [l], _, h => by
      have hl : cr ∉ l := (h l (by simp)).1
      rw [List.intercalate_singleton, List.append_assoc,
        cutAt_append (show _ = some cr from rfl) hl, cutAt_self (by simp [crlf])]
      simp
  | l :: l' :: ls, _, h => by
      have hl : cr ∉ l := (h l (by simp)).1
      have hrest := cutAt_intercalate body (List.cons_ne_nil l' ls) fun x hx => h x (by simp [hx])
      -- the next line begins with a byte that is no CR
      obtain ⟨hl', hne⟩ := h l' (by simp)
      obtain ⟨b, t, rfl⟩ := List.exists_cons_of_ne_nil hne
      have hb : b ≠ cr := (List.ne_and_not_mem_of_not_mem_cons hl').1.symm
      rw [List.intercalate_cons_cons_left, List.cons_append, List.cons_append] at hrest
      have hsplit : crlf.intercalate (l :: (b :: t) :: ls) ++ (crlf ++ crlf) ++ body
          = l ++ (crlf ++ b :: (crlf.intercalate (t :: ls) ++ (crlf ++ crlf) ++ body)) := by
        simp
      rw [hsplit, cutAt_append (show _ = some cr from rfl) hl, cutAt_crlf hb, hrest]
      simp

example : cutAt (crlf ++ crlf) (ascii "a\r\nb\r\n\r\nc\r\n\r\n")
      = some (ascii "a\r\nb", ascii "c\r\n\r\n") ∧
    lines (ascii "a\r\nb") = [ascii "a", ascii "b"] := by
  decide

end Lines
