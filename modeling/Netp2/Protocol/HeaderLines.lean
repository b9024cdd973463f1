import Netp2.Protocol.HeaderAssembly

/-!
# Header lines

`llhttp` reports a header line as spans of its name followed by spans of its value.  The handlers
find the end of a line only when the next name begins, and only by its value not being empty.
`savedHeaders_lines` says what this comes to, for every way of cutting the lines into spans: the
headers saved are those of `glue`, where a line with an empty value that is not the last has been
merged with its successor.

Hence `headers_of_lines_iff`: the context holds the headers of the request exactly when gluing does
not change what the lines say.
-/

namespace Netp2.Protocol

open ByteString LastWrite StepRun

/-- A header line: the spans of its name, which is not empty, and of its value. -/
structure HeaderLine where
  nameSpans : List ByteString
  valueSpans : List ByteString
  name_ne : nameSpans.flatten ≠ []

namespace HeaderLine

def name (l : HeaderLine) : ByteString :=
  l.nameSpans.flatten

def value (l : HeaderLine) : ByteString :=
  l.valueSpans.flatten

def callbacks (l : HeaderLine) : List Callback :=
  l.nameSpans.map .headerField ++ l.valueSpans.map .headerValue

/-- The line as it is meant: name and value. -/
def pair (l : HeaderLine) : ByteString × ByteString :=
  (l.name, l.value)

end HeaderLine

def lower (p : ByteString × ByteString) : Header :=
  (toLower p.1, p.2)

/-- The lines with every empty-valued line but the last merged into its successor. -/
def glue : List (ByteString × ByteString) → List (ByteString × ByteString)
  | [] => []
  | [p] => [p]
  | p :: q :: ps => if p.2 = [] then glue ((p.1 ++ q.1, q.2) :: ps) else p :: glue (q :: ps)
  termination_by ps => ps.length

/-! ## One line -/

lemma final_nameSpans (f : ByteString) (spans : List ByteString) :
    final collect (f, []) (spans.map .headerField) = (f ++ spans.flatten, []) := by
  induction spans generalizing f with
  | nil => simp [final]
  | cons span spans ih => simpa [final, collect] using ih (f ++ span)

lemma savedHeaders_nameSpans (f : ByteString) (spans : List ByteString) :
    savedHeaders (f, []) (spans.map .headerField) = [] := by
  induction spans generalizing f with
  | nil => rfl
  | cons span spans ih => simpa [savedHeaders, outputs, collect] using ih (f ++ span)

lemma final_valueSpans (f v : ByteString) (spans : List ByteString) :
    final collect (f, v) (spans.map .headerValue) = (f, v ++ spans.flatten) := by
  induction spans generalizing v with
  | nil => simp [final]
  | cons span spans ih => simpa [final, collect] using ih (v ++ span)

lemma savedHeaders_valueSpans (f v : ByteString) (spans : List ByteString) :
    savedHeaders (f, v) (spans.map .headerValue) = [] := by
  induction spans generalizing v with
  | nil => rfl
  | cons span spans ih => simpa [savedHeaders, outputs, collect] using ih (v ++ span)

/-- The spans of a name and a value that find a pending value empty are collected behind the pending
name. -/
lemma collect_spans_of_empty (f : ByteString) (nameSpans valueSpans : List ByteString) :
    savedHeaders (f, []) (nameSpans.map .headerField ++ valueSpans.map .headerValue) = [] ∧
      final collect (f, []) (nameSpans.map .headerField ++ valueSpans.map .headerValue)
        = (f ++ nameSpans.flatten, valueSpans.flatten) := by
  rw [savedHeaders_append, final_append, final_nameSpans, savedHeaders_nameSpans,
    savedHeaders_valueSpans, final_valueSpans]
  exact ⟨rfl, rfl⟩

/-- Those that find a pending value save it and start anew. -/
lemma collect_spans_of_ne (f : ByteString) {v : ByteString} (hv : v ≠ [])
    {nameSpans : List ByteString} (hname : nameSpans ≠ []) (valueSpans : List ByteString) :
    savedHeaders (f, v) (nameSpans.map .headerField ++ valueSpans.map .headerValue)
        = [(toLower f, v)] ∧
      final collect (f, v) (nameSpans.map .headerField ++ valueSpans.map .headerValue)
        = (nameSpans.flatten, valueSpans.flatten) := by
  cases nameSpans with
  | nil => exact absurd rfl hname
  | cons span spans =>
      -- the first span of the name saves the header, the rest is as after an empty value
      have hfirst : collect (f, v) (.headerField span) = (some (toLower f, v), (span, [])) := by
        simp [collect, hv]
      obtain ⟨hsaved, hfinal⟩ := collect_spans_of_empty span spans valueSpans
      rw [List.map_cons, List.cons_append, ← List.singleton_append, savedHeaders_append,
        final_append, savedHeaders_singleton]
      simp only [final, hfirst, hsaved, hfinal]
      exact ⟨rfl, rfl⟩

/-- A line that finds a pending value empty is collected behind the pending name. -/
lemma collect_line_of_empty (f : ByteString) (l : HeaderLine) :
    savedHeaders (f, []) l.callbacks = [] ∧
      final collect (f, []) l.callbacks = (f ++ l.name, l.value) :=
  collect_spans_of_empty f l.nameSpans l.valueSpans

/-- A line that finds a pending value saves it and starts anew. -/
lemma collect_line_of_ne {f v : ByteString} (hv : v ≠ []) (l : HeaderLine) :
    savedHeaders (f, v) l.callbacks = [(toLower f, v)] ∧
      final collect (f, v) l.callbacks = (l.name, l.value) := by
  refine collect_spans_of_ne f hv ?_ l.valueSpans
  intro h
  exact l.name_ne (by rw [h, List.flatten_nil])

/-! ## All lines -/

def linesCallbacks (ls : List HeaderLine) : List Callback :=
  ls.flatMap HeaderLine.callbacks ++ [.headersComplete]

lemma linesCallbacks_cons (l : HeaderLine) (ls : List HeaderLine) :
    linesCallbacks (l :: ls) = l.callbacks ++ linesCallbacks ls := by
  simp [linesCallbacks]

/-- **What is saved of a pending name and the lines after it**, by induction on the lines. -/
theorem collect_lines {f : ByteString} (hf : f ≠ []) (v : ByteString) (ls : List HeaderLine) :
    savedHeaders (f, v) (linesCallbacks ls)
        = (glue ((f, v) :: ls.map HeaderLine.pair)).map lower ∧
      final collect (f, v) (linesCallbacks ls) = ([], []) := by
  induction ls generalizing f v with
  | nil => simp [linesCallbacks, savedHeaders_singleton, final, collect, hf, glue, lower]
  | cons l ls ih =>
      rw [linesCallbacks_cons, savedHeaders_append, final_append, List.map_cons, glue]
      by_cases hv : v = []
      · subst hv
        obtain ⟨hsaved, hfinal⟩ := collect_line_of_empty f l
        rw [hsaved, hfinal, if_pos rfl]
        exact ih (by simp [hf]) l.value
      · obtain ⟨hsaved, hfinal⟩ := collect_line_of_ne (f := f) hv l
        have hname : l.name ≠ [] := l.name_ne
        obtain ⟨ihsaved, ihfinal⟩ := ih hname l.value
        rw [hsaved, hfinal, if_neg hv]
        exact ⟨congrArg ((toLower f, v) :: ·) ihsaved, ihfinal⟩

/-- **What is saved of the header lines of a message.** -/
theorem savedHeaders_lines (ls : List HeaderLine) :
    savedHeaders ([], []) (linesCallbacks ls) = (glue (ls.map HeaderLine.pair)).map lower ∧
      final collect ([], []) (linesCallbacks ls) = ([], []) := by
  cases ls with
  | nil => simp [linesCallbacks, savedHeaders_singleton, final, collect, glue]
  | cons l ls =>
      obtain ⟨hsaved, hfinal⟩ := collect_line_of_empty [] l
      rw [linesCallbacks_cons, savedHeaders_append, final_append, hsaved, hfinal]
      exact collect_lines l.name_ne l.value ls

/-! ## Gluing -/

lemma glue_eq_self : ∀ {ps : List (ByteString × ByteString)}, (∀ p ∈ ps.dropLast, p.2 ≠ []) →
    glue ps = ps
  | [], _ => by rw [glue]
  | [p], _ => by rw [glue]
  | p :: q :: ps, h => by
      have hp : p.2 ≠ [] := h p (by simp)
      rw [glue, if_neg hp, glue_eq_self fun r hr => h r (by simp [hr])]

lemma length_glue_le : ∀ ps : List (ByteString × ByteString), (glue ps).length ≤ ps.length
  | [] => by simp [glue]
  | [p] => by simp [glue]
  | p :: q :: ps => by
      rw [glue]
      split_ifs
      · have := length_glue_le ((p.1 ++ q.1, q.2) :: ps)
        simp only [List.length_cons] at this ⊢
        omega
      · simpa using length_glue_le (q :: ps)
  termination_by ps => ps.length

/-- Otherwise it loses a line. -/
lemma length_glue_lt : ∀ {ps : List (ByteString × ByteString)}, (∃ p ∈ ps.dropLast, p.2 = []) →
    (glue ps).length < ps.length
  | [], ⟨_, hr, _⟩ => by simp at hr
  | [p], ⟨_, hr, _⟩ => by simp at hr
  | p :: q :: ps, ⟨r, hr, hempty⟩ => by
      rw [glue]
      split_ifs with hp
      · have := length_glue_le ((p.1 ++ q.1, q.2) :: ps)
        simp only [List.length_cons] at this ⊢
        omega
      · rw [List.dropLast_cons_cons] at hr
        rcases List.mem_cons.mp hr with rfl | hr
        · exact absurd hempty hp
        · simpa using length_glue_lt ⟨r, hr, hempty⟩

/-- Lines with different names cannot be glued without losing a name. -/
lemma no_empty_of_glue_agrees {ps : List (ByteString × ByteString)}
    (hnodup : (ps.map fun p => toLower p.1).Nodup)
    (h : ∀ k, lastValue k ((glue ps).map lower) = lastValue k (ps.map lower)) :
    ∀ p ∈ ps.dropLast, p.2 ≠ [] := by
  intro p hp hempty
  have hkeys : ∀ qs : List (ByteString × ByteString),
      (qs.map lower).map Prod.fst = qs.map fun p => toLower p.1 := by
    intro qs
    rw [List.map_map]
    rfl
  have hsub : (ps.map fun p => toLower p.1) ⊆ (glue ps).map fun p => toLower p.1 := by
    intro k hk
    rw [← hkeys] at hk ⊢
    obtain ⟨v, hv⟩ := Option.isSome_iff_exists.mp (isSome_lastValue_of_mem hk)
    exact mem_keys_of_lastValue ((h k).trans hv)
  have hle := (List.subperm_of_subset hnodup hsub).length_le
  have hlt := length_glue_lt ⟨p, hp, hempty⟩
  simp only [List.length_map] at hle
  omega

/-! ## The headers of a request -/

/-- The callbacks up to the end of the head of a message. -/
def headCallbacks (urls : List ByteString) (ls : List HeaderLine) : List Callback :=
  .messageBegin :: urls.map .url ++ linesCallbacks ls

/-- The context has exactly the headers of these lines, each name in lower case with the value of
its last occurrence, and the host among them. -/
def HoldsHeaders (ctx : RequestContext) (ls : List HeaderLine) : Prop :=
  (∀ k, ctx.headers.lookup k = lastValue k ((ls.map HeaderLine.pair).map lower)) ∧
    ctx.host = (lastValue (ascii "host") ((ls.map HeaderLine.pair).map lower)).getD []

lemma savedHeaders_urls (p : Pending) (urls : List ByteString) :
    savedHeaders p (urls.map .url) = [] ∧ final collect p (urls.map .url) = p := by
  induction urls with
  | nil => exact ⟨rfl, rfl⟩
  | cons span urls ih => exact ih

lemma savedHeaders_head (urls : List ByteString) (ls : List HeaderLine) :
    savedHeaders ([], []) (headCallbacks urls ls) = (glue (ls.map HeaderLine.pair)).map lower ∧
      final collect ([], []) (headCallbacks urls ls) = ([], []) := by
  have hcut : headCallbacks urls ls = [.messageBegin] ++ (urls.map .url ++ linesCallbacks ls) := rfl
  have hbegin : savedHeaders ([], []) [.messageBegin] = [] ∧
      final collect ([], []) [.messageBegin] = ([], []) := ⟨rfl, rfl⟩
  obtain ⟨husaved, hufinal⟩ := savedHeaders_urls ([], []) urls
  rw [hcut, savedHeaders_append, final_append, hbegin.1, hbegin.2, savedHeaders_append,
    final_append, husaved, hufinal]
  exact savedHeaders_lines ls

def linesSize (ls : List HeaderLine) : ℕ :=
  (ls.map fun l => l.name.length + l.value.length).sum

lemma headerBytes_line (l : HeaderLine) :
    (l.callbacks.map Impl.headerBytes).sum = l.name.length + l.value.length := by
  simp [HeaderLine.callbacks, HeaderLine.name, HeaderLine.value, List.length_flatten,
    Function.comp_def, Impl.headerBytes]

lemma headerBytes_lines (ls : List HeaderLine) :
    ((ls.flatMap HeaderLine.callbacks).map Impl.headerBytes).sum = linesSize ls := by
  induction ls with
  | nil => rfl
  | cons l ls ih =>
      rw [List.flatMap_cons, List.map_append, List.sum_append, headerBytes_line, ih]
      rfl

lemma headerBytes_urls (urls : List ByteString) :
    ((urls.map Callback.url).map Impl.headerBytes).sum = 0 := by
  simp [Function.comp_def, Impl.headerBytes]

lemma headerBytes_head (urls : List ByteString) (ls : List HeaderLine) :
    ((headCallbacks urls ls).map Impl.headerBytes).sum = linesSize ls := by
  simp only [headCallbacks, linesCallbacks, List.map_append, List.sum_append, List.map_cons,
    List.sum_cons, headerBytes_urls, headerBytes_lines]
  simp [Impl.headerBytes]

/-- A head within the size limit is taken in up to and including its end. -/
lemma madeCallbacks_head {s : Impl} (ctx : RequestContext) (urls : List ByteString)
    {ls : List HeaderLine} (hsize : linesSize ls ≤ s.config.maxHeaderSize) :
    (s.beginParse ctx).madeCallbacks (headCallbacks urls ls) = headCallbacks urls ls := by
  have hcut : headCallbacks urls ls =
      (.messageBegin :: urls.map .url ++ ls.flatMap HeaderLine.callbacks)
        ++ [.headersComplete] := by
    simp [headCallbacks, linesCallbacks]
  have hbytes := headerBytes_head urls ls
  rw [hcut] at hbytes ⊢
  refine Impl.madeCallbacks_concat _ (Impl.runCallbacks_of_fits ?_ ?_)
  · simp [HeaderLine.callbacks]
  · rw [List.map_append, List.sum_append] at hbytes
    have hbegin : (s.beginParse ctx).totalHeaderSize = 0 := rfl
    have hconfig : (s.beginParse ctx).config = s.config := rfl
    rw [hbegin, hconfig]
    omega

/-- **When the headers are those of the request.**  Whatever the lines and however they are cut
into spans, the context holds their headers exactly when gluing changes no last value; this is so
if no line but the last has an empty value, and only if so when the names are different. -/
theorem headers_of_lines_iff (s : Impl) (ctx : RequestContext) (urls : List ByteString)
    (ls : List HeaderLine) (hsize : linesSize ls ≤ s.config.maxHeaderSize) :
    (HoldsHeaders (s.contextAfter ctx (headCallbacks urls ls)) ls ↔
      ∀ k, lastValue k ((glue (ls.map HeaderLine.pair)).map lower)
        = lastValue k ((ls.map HeaderLine.pair).map lower)) ∧
    ((∀ l ∈ ls.dropLast, l.value ≠ []) →
      HoldsHeaders (s.contextAfter ctx (headCallbacks urls ls)) ls) ∧
    ((ls.map fun l => toLower l.name).Nodup →
      (HoldsHeaders (s.contextAfter ctx (headCallbacks urls ls)) ls ↔
        ∀ l ∈ ls.dropLast, l.value ≠ [])) := by
  have hctx := Impl.contextAfter_eq (madeCallbacks_head ctx urls hsize)
  rw [(savedHeaders_head urls ls).1] at hctx
  have hiff : HoldsHeaders (s.contextAfter ctx (headCallbacks urls ls)) ls ↔
      ∀ k, lastValue k ((glue (ls.map HeaderLine.pair)).map lower)
        = lastValue k ((ls.map HeaderLine.pair).map lower) := by
    rw [hctx, HoldsHeaders]
    simp only [RequestContext.storeAll_headers, RequestContext.storeAll_host,
      RequestContext.cleared, Finmap.lookup_empty, Option.or_none]
    exact and_iff_left_of_imp fun h => by rw [h]
  have hdrop : ∀ p ∈ (ls.map HeaderLine.pair).dropLast, ∃ l ∈ ls.dropLast, l.pair = p := by
    intro p hp
    rw [← List.map_dropLast] at hp
    exact List.mem_map.mp hp
  have hself : (∀ l ∈ ls.dropLast, l.value ≠ []) →
      HoldsHeaders (s.contextAfter ctx (headCallbacks urls ls)) ls := by
    intro h
    have hnonempty : ∀ p ∈ (ls.map HeaderLine.pair).dropLast, p.2 ≠ [] := by
      intro p hp
      obtain ⟨l, hl, rfl⟩ := hdrop p hp
      exact h l hl
    rw [hiff, glue_eq_self hnonempty]
    exact fun _ => rfl
  refine ⟨hiff, hself, ?_⟩
  intro hnodup
  refine ⟨?_, hself⟩
  intro h l hl
  refine no_empty_of_glue_agrees ?_ (hiff.mp h) l.pair ?_
  · rwa [List.map_map]
  · rw [← List.map_dropLast]
    exact List.mem_map_of_mem hl

def hostLine (host : ByteString) : HeaderLine :=
  ⟨[ascii "Host"], [host], by decide⟩

def chunkedLine : HeaderLine :=
  ⟨[ascii "Transfer-Encoding"], [ascii "chunked"], by decide⟩

/-- A line cut in the middle of its name and of its value, and a last line without a value. -/
def cutLines : List HeaderLine :=
  [⟨[ascii "Ho", ascii "st"], [ascii "a.", ascii "b"], by decide⟩, ⟨[ascii "X"], [], by decide⟩]

theorem headers_of_lines_cut :
    HoldsHeaders (Impl.contextAfter { config := {} } {} (headCallbacks [ascii "/"] cutLines))
      cutLines :=
  (headers_of_lines_iff { config := {} } {} [ascii "/"] cutLines (by decide +kernel)).2.1
    (by decide +kernel)

/-- A line without a value in front of the host. -/
def emptyBeforeHost : List HeaderLine :=
  [⟨[ascii "X-A"], [], by decide⟩, hostLine (ascii "h")]

/-- No limit is exceeded, but the host is lost: its name becomes `x-ahost`. -/
theorem host_line_lost :
    (Impl.runCallbacks (Impl.beginParse { config := {} } {})
        (headCallbacks [ascii "/"] emptyBeforeHost)).1 = none ∧
      ¬HoldsHeaders
        (Impl.contextAfter { config := {} } {} (headCallbacks [ascii "/"] emptyBeforeHost))
        emptyBeforeHost := by
  refine ⟨by decide +kernel, ?_⟩
  intro h
  have hhost := h.2
  revert hhost
  decide +kernel

end Netp2.Protocol
