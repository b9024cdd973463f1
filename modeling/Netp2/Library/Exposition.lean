import Netp2.Library.ByteString

/-!
# Text exposition of counters

Monitoring systems scrape counters as text: a line for each sample, with its name and its value, and
lines that begin with `#` for readers.  Samples of one kind share a name and differ in a label.

`render` writes families of samples and `scrape` reads them.  `scrape_render` says that what was
written is read back, as long as names are no comments and nothing contains a line end.
-/

namespace Exposition

open ByteString

def newline : UInt8 := 10

def space : UInt8 := 32

def hash : UInt8 := 35

/-- The samples of one name, by their labels. -/
structure Family where
  name : ByteString
  help : ByteString
  samples : List (ByteString × ℕ)

/-- The name is no comment, and everything fits on a line. -/
structure Printable (name help : ByteString) (labels : List ByteString) : Prop where
  name_ne_nil : name ≠ []
  head_ne_hash : name.head? ≠ some hash
  newline_notMem_name : newline ∉ name
  newline_notMem_help : newline ∉ help
  newline_notMem_label : ∀ label ∈ labels, newline ∉ label

instance (name help : ByteString) (labels : List ByteString) :
    Decidable (Printable name help labels) :=
  decidable_of_iff (name ≠ [] ∧ name.head? ≠ some hash ∧ newline ∉ name ∧ newline ∉ help ∧
      ∀ label ∈ labels, newline ∉ label)
    ⟨fun ⟨hne, hhead, hname, hhelp, hlabels⟩ => ⟨hne, hhead, hname, hhelp, hlabels⟩,
      fun ⟨hne, hhead, hname, hhelp, hlabels⟩ => ⟨hne, hhead, hname, hhelp, hlabels⟩⟩

abbrev Family.WellFormed (f : Family) : Prop :=
  Printable f.name f.help (f.samples.map Prod.fst)

/-! ## Writing -/

/-- The line of a sample, without its end. -/
def sampleLine (name : ByteString) (s : ByteString × ℕ) : ByteString :=
  name ++ s.1 ++ space :: decimal s.2

def Family.lines (f : Family) : List ByteString :=
  (ascii "# HELP " ++ f.name ++ space :: f.help) :: (ascii "# TYPE " ++ f.name ++ ascii " counter")
    :: f.samples.map (sampleLine f.name)

def render (fs : List Family) : ByteString :=
  (fs.flatMap Family.lines).flatMap fun line => line ++ [newline]

/-! ## Reading -/

/-- The sample on a line, if there is one. -/
def sampleOf (line : ByteString) : Option (ByteString × ℕ) :=
  if line.head? = some hash then none
  else (rfind space line).map fun n => (line.take n, decimalValue (line.drop (n + 1)))

def scrape (s : ByteString) : List (ByteString × ℕ) :=
  (s.splitOn newline).filterMap sampleOf

/-- A line is read, and then what follows. -/
lemma scrape_line {line : ByteString} (hline : newline ∉ line) (s : ByteString) :
    scrape (line ++ newline :: s) = (sampleOf line).toList ++ scrape s := by
  rw [scrape, List.splitOn_append_cons_self, List.filterMap_append,
    List.splitOn_eq_singleton hline]
  cases h : sampleOf line <;> simp [h, scrape]

lemma scrape_lines {lines : List ByteString} (hlines : ∀ line ∈ lines, newline ∉ line) :
    scrape (lines.flatMap fun line => line ++ [newline]) = lines.filterMap sampleOf := by
  induction lines with
  | nil => rfl
  | cons line lines ih =>
      have hfirst := hlines line List.mem_cons_self
      have hrest := ih fun l hl => hlines l (List.mem_cons_of_mem line hl)
      rw [List.flatMap_cons, List.append_assoc, List.singleton_append, scrape_line hfirst, hrest]
      cases h : sampleOf line <;> simp [h]

/-! ## Reading back -/

lemma sampleOf_sampleLine {name : ByteString} (hne : name ≠ []) (hhead : name.head? ≠ some hash)
    (s : ByteString × ℕ) : sampleOf (sampleLine name s) = some (name ++ s.1, s.2) := by
  have hdigit : ¬IsDigit space := by decide
  have hspace : space ∉ decimal s.2 := notMem_decimal hdigit s.2
  have hhead' : (sampleLine name s).head? ≠ some hash := by
    rw [sampleLine, List.append_assoc, List.head?_append_of_ne_nil _ hne]
    exact hhead
  rw [sampleOf, if_neg hhead', sampleLine, rfind_cut hspace]
  have hdrop : (name ++ s.1 ++ space :: decimal s.2).drop ((name ++ s.1).length + 1)
      = decimal s.2 := by
    rw [List.drop_append]
    simp
  rw [Option.map_some, hdrop, List.take_left, decimalValue_decimal]

lemma sampleOf_comment (line : ByteString) : sampleOf (ascii "# " ++ line) = none := by
  have hhead : (ascii "# " ++ line).head? = some hash := rfl
  rw [sampleOf, if_pos hhead]

lemma newline_notMem_lines {f : Family} (hf : f.WellFormed) :
    ∀ line ∈ f.lines, newline ∉ line := by
  have hdigit : ¬IsDigit newline := by decide
  have hhelp : newline ∉ ascii "# HELP " := by decide
  have htype : newline ∉ ascii "# TYPE " := by decide
  have hcounter : newline ∉ ascii " counter" := by decide
  have hspace : newline ≠ space := by decide
  intro line hline
  rw [Family.lines, List.mem_cons, List.mem_cons, List.mem_map] at hline
  rcases hline with rfl | rfl | ⟨s, hs, rfl⟩
  · simp [hhelp, hspace, hf.newline_notMem_name, hf.newline_notMem_help]
  · simp [htype, hcounter, hf.newline_notMem_name]
  · have hvalue : newline ∉ decimal s.2 := notMem_decimal hdigit s.2
    have hlabel : newline ∉ s.1 := hf.newline_notMem_label s.1 (List.mem_map_of_mem hs)
    simp [sampleLine, hspace, hf.newline_notMem_name, hlabel, hvalue]

lemma filterMap_lines {f : Family} (hf : f.WellFormed) :
    f.lines.filterMap sampleOf = f.samples.map fun s => (f.name ++ s.1, s.2) := by
  have hhelp : sampleOf (ascii "# HELP " ++ f.name ++ space :: f.help) = none :=
    sampleOf_comment (ascii "HELP " ++ f.name ++ space :: f.help)
  have htype : sampleOf (ascii "# TYPE " ++ f.name ++ ascii " counter") = none :=
    sampleOf_comment (ascii "TYPE " ++ f.name ++ ascii " counter")
  have hsamples : sampleOf ∘ sampleLine f.name = fun s => some (f.name ++ s.1, s.2) :=
    funext fun s => sampleOf_sampleLine hf.name_ne_nil hf.head_ne_hash s
  rw [Family.lines, List.filterMap_cons_none hhelp, List.filterMap_cons_none htype,
    List.filterMap_map, hsamples, List.filterMap_eq_map']

/-- **What was written is read back.** -/
theorem scrape_render {fs : List Family} (hfs : ∀ f ∈ fs, f.WellFormed) :
    scrape (render fs) = fs.flatMap fun f => f.samples.map fun s => (f.name ++ s.1, s.2) := by
  have hlines : ∀ line ∈ fs.flatMap Family.lines, newline ∉ line := by
    intro line hline
    obtain ⟨f, hf, hline⟩ := List.mem_flatMap.mp hline
    exact newline_notMem_lines (hfs f hf) line hline
  rw [render, scrape_lines hlines, List.filterMap_flatMap]
  exact List.flatMap_congr fun f hf => filterMap_lines (hfs f hf)

end Exposition
