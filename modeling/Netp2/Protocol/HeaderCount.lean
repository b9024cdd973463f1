import Netp2.Protocol.BodySpans
import Netp2.Protocol.HeaderLimits
import Netp2.Protocol.HostRecords
import Netp2.Protocol.Incremental

/-!
# The number of header lines

`max_headers` bounds the number of headers, but what `on_headers_complete` compares with it is the
size of a map.  The map has one entry for all lines of one name, and for lines that are glued
together; and the comparison is made once, at the end of the head, when the trailer lines of a
chunked body are still to come.  So what is bounded is `MessageReport.checkedNames` and not
`MessageReport.lineCount`; `checkedNames_eq_lineCount_iff` says when the two are the same.

`parse_success_iff` says of any callbacks when `parse` returns `kSuccess`.  For the callbacks of one
message each of its conditions is one on the lines, and `lines_within_limit_iff` puts them together.
-/

namespace Netp2.Protocol

open ByteString LastWrite StepRun

/-! ## When a parse succeeds -/

/-- A body of this length is what the headers say, if they say anything. -/
def LengthFits (hs : List Header) (body : ByteString) : Prop :=
  ∀ n, lastSome RequestContext.lengthOf hs = some n → body.length = n

namespace Http1Codec

variable {L : Llhttp} (c : Http1Codec L) (buffer : ByteString) (ctx : RequestContext)

/-- These headers have a host, if one is required of the request. -/
def HostGiven (hs : List Header) : Prop :=
  c.impl.config.requireHostHeader = true → L.httpMajor (L.execute c.parser buffer).state = 1 →
    1 ≤ L.httpMinor (L.execute c.parser buffer).state →
      (lastValue (ascii "host") hs).getD [] ≠ []

/-- What a stored length demands of the body, in terms of the headers. -/
lemma stored_length_iff (ctx : RequestContext) (hs : List Header) (body : ByteString) :
    ((ctx.cleared.storeAll hs).hasContentLength = true →
        body.length = (ctx.cleared.storeAll hs).contentLength) ↔ LengthFits hs body := by
  have hstored := RequestContext.storeAll_length ctx.cleared hs
  rw [RequestContext.length, Prod.ext_iff] at hstored
  obtain ⟨hlength, hhas⟩ := hstored
  simp only at hlength hhas
  rw [hlength, hhas, LengthFits]
  cases lastSome RequestContext.lengthOf hs with
  | none => simp [RequestContext.length, RequestContext.cleared]
  | some n => simp

/-- **When a parse succeeds.**  `llhttp` reports no error, no limit is crossed, and the headers have
a host where they must and the length of the body. -/
theorem parse_success_iff :
    (c.parse buffer ctx).1 = .kSuccess ↔
      (L.execute c.parser buffer).errno.Accepted ∧
        ¬ExceedsLimits c.impl.config (L.execute c.parser buffer).callbacks ∧
        c.HostGiven buffer (savedHeaders ([], []) (L.execute c.parser buffer).callbacks) ∧
        LengthFits (savedHeaders ([], []) (L.execute c.parser buffer).callbacks)
          ((bodySpans (L.execute c.parser buffer).callbacks).getLast?.getD []) := by
  by_cases hexceeds : ExceedsLimits c.impl.config (L.execute c.parser buffer).callbacks
  · rw [c.parse_of_exceedsLimits buffer ctx hexceeds]
    exact iff_of_false (by decide) fun h => h.2.1 hexceeds
  · have hrun : (c.callbackRun buffer ctx).1 = none :=
      Impl.runCallbacks_of_not_exceedsLimits c.impl ctx hexceeds
    by_cases herrno : (L.execute c.parser buffer).errno.Accepted
    · have hcheck := (c.executed buffer ctx).checkRequest_eq_success_iff (c.received buffer ctx)
      rw [(parse_of_ok hrun herrno).1, hcheck, executed_config]
      have hctx := Impl.contextAfter_eq (Impl.madeCallbacks_of_none hrun)
      simp only [received, fillRequestLine, hctx, ← lastSome_bodySpan, herrno, hexceeds, true_and,
        not_false_eq_true, stored_length_iff, RequestContext.storeAll_host]
      rfl
    · refine iff_of_false ?_ fun h => herrno h.1
      intro h
      exact herrno (of_parse_success h).2

end Http1Codec

/-! ## One message -/

/-- What is reported of a message behind the end of its head. -/
structure AfterHead where
  bodies : List ByteString
  trailers : List HeaderLine
  complete : Bool

/-- What is reported of one message, of which the buffer may have only the beginning. -/
structure MessageReport where
  urls : List ByteString
  lines : List HeaderLine
  afterHead : Option AfterHead

def AfterHead.callbacks (a : AfterHead) : List Callback :=
  a.bodies.map .body ++ (a.trailers.flatMap HeaderLine.callbacks
    ++ if a.complete then [.messageComplete] else [])

/-- The names that the headers of these lines are stored under. -/
def storedNames (ls : List HeaderLine) : Finset ByteString :=
  (((glue (ls.map HeaderLine.pair)).map lower).map Prod.fst).toFinset

namespace MessageReport

def callbacks (m : MessageReport) : List Callback :=
  match m.afterHead with
  | none => .messageBegin :: m.urls.map .url ++ m.lines.flatMap HeaderLine.callbacks
  | some a => headCallbacks m.urls m.lines ++ a.callbacks

/-- The number of header and trailer lines. -/
def lineCount (m : MessageReport) : ℕ :=
  m.lines.length + (m.afterHead.map fun a => a.trailers.length).getD 0

/-- The number that is compared with `max_headers`, if the comparison is reached. -/
def checkedNames (m : MessageReport) : ℕ :=
  (m.afterHead.map fun _ => (storedNames m.lines).card).getD 0

/-- The bytes of all names and values. -/
def size (m : MessageReport) : ℕ :=
  linesSize m.lines + (m.afterHead.map fun a => linesSize a.trailers).getD 0

/-- The headers that are saved.  Lines without an end of the head behind them leave their last one
pending. -/
def headers (m : MessageReport) : List Header :=
  match m.afterHead with
  | none => (glue (m.lines.map HeaderLine.pair)).dropLast.map lower
  | some a => (glue (m.lines.map HeaderLine.pair)).map lower
      ++ (glue (a.trailers.map HeaderLine.pair)).dropLast.map lower

/-- What is left of the body. -/
def body (m : MessageReport) : ByteString :=
  ((m.afterHead.map AfterHead.bodies).bind List.getLast?).getD []

end MessageReport

/-! ### What is saved -/

/-- A line leaves a name pending. -/
lemma final_line_ne (p : Pending) (l : HeaderLine) : (final collect p l.callbacks).1 ≠ [] := by
  obtain ⟨f, v⟩ := p
  have hname : l.name ≠ [] := l.name_ne
  by_cases hv : v = []
  · subst hv
    rw [(collect_line_of_empty f l).2]
    simp [hname]
  · rw [(collect_line_of_ne hv l).2]
    exact hname

/-- Of lines that no end of a head follows, the last stays pending. -/
lemma savedHeaders_unended (ls : List HeaderLine) :
    savedHeaders ([], []) (ls.flatMap HeaderLine.callbacks)
      = (glue (ls.map HeaderLine.pair)).dropLast.map lower := by
  rcases List.eq_nil_or_concat ls with rfl | ⟨front, l, rfl⟩
  · simp [savedHeaders, outputs, glue]
  · have hended := (savedHeaders_lines (front.concat l)).1
    have hpending : (final collect ([], [])
        ((front.concat l).flatMap HeaderLine.callbacks)).1 ≠ [] := by
      rw [List.concat_eq_append, List.flatMap_append, final_append, List.flatMap_singleton]
      exact final_line_ne _ l
    rw [linesCallbacks, savedHeaders_append, savedHeaders_singleton, collect, if_pos hpending]
      at hended
    rw [List.map_dropLast, ← hended, Option.toList_some, List.dropLast_concat]

namespace AfterHead

variable (a : AfterHead)

lemma isTail_bodies : ∀ d ∈ a.bodies.map Callback.body, d.IsTail := by
  intro d hd
  obtain ⟨span, -, rfl⟩ := List.mem_map.mp hd
  trivial

lemma isTail_ending : ∀ d ∈ (if a.complete then [Callback.messageComplete] else []), d.IsTail := by
  intro d hd
  split_ifs at hd
  · rw [List.mem_singleton.mp hd]
    trivial
  · exact absurd hd List.not_mem_nil

lemma savedHeaders_callbacks : savedHeaders ([], []) a.callbacks
    = (glue (a.trailers.map HeaderLine.pair)).dropLast.map lower := by
  rw [callbacks, savedHeaders_append, savedHeaders_append, savedHeaders_tail _ a.isTail_bodies,
    savedHeaders_tail _ a.isTail_ending, final_tail _ a.isTail_bodies, savedHeaders_unended,
    List.nil_append, List.append_nil]

end AfterHead

/-- **What is saved of a message**, in terms of its lines. -/
theorem savedHeaders_report (m : MessageReport) :
    savedHeaders ([], []) m.callbacks = m.headers := by
  rw [MessageReport.callbacks, MessageReport.headers]
  cases m.afterHead with
  | none =>
      obtain ⟨hsaved, hfinal⟩ := savedHeaders_urls ([], []) m.urls
      have hbegin : savedHeaders ([], []) (.messageBegin :: m.urls.map .url) = [] := hsaved
      have hpending : final collect ([], []) (.messageBegin :: m.urls.map .url) = ([], []) := hfinal
      rw [savedHeaders_append, hbegin, hpending, List.nil_append]
      exact savedHeaders_unended m.lines
  | some a =>
      obtain ⟨hsaved, hfinal⟩ := savedHeaders_head m.urls m.lines
      rw [savedHeaders_append, hsaved, hfinal, a.savedHeaders_callbacks]

/-! ### The size and the body -/

lemma headerBytes_report (m : MessageReport) :
    (m.callbacks.map Impl.headerBytes).sum = m.size := by
  rw [MessageReport.callbacks, MessageReport.size]
  cases m.afterHead with
  | none =>
      simp only [List.map_append, List.map_cons, List.sum_append, List.sum_cons, headerBytes_urls,
        headerBytes_lines]
      simp [Impl.headerBytes]
  | some a =>
      simp only [AfterHead.callbacks, List.map_append, List.sum_append, headerBytes_head,
        headerBytes_tail a.isTail_bodies, headerBytes_tail a.isTail_ending, headerBytes_lines]
      simp

lemma bodySpans_lines (ls : List HeaderLine) :
    bodySpans (ls.flatMap HeaderLine.callbacks) = [] := by
  refine List.filterMap_eq_nil_iff.mpr ?_
  intro d hd
  simp only [HeaderLine.callbacks, List.mem_flatMap, List.mem_append, List.mem_map] at hd
  rcases hd with ⟨_, -, ⟨_, -, rfl⟩ | ⟨_, -, rfl⟩⟩ <;> rfl

lemma bodySpans_front (urls : List ByteString) (ls : List HeaderLine) :
    bodySpans (.messageBegin :: urls.map .url ++ ls.flatMap HeaderLine.callbacks) = [] := by
  have hurls : bodySpans (.messageBegin :: urls.map .url) = [] := by
    refine List.filterMap_eq_nil_iff.mpr ?_
    intro d hd
    simp only [List.mem_cons, List.mem_map] at hd
    rcases hd with rfl | ⟨_, -, rfl⟩ <;> rfl
  rw [bodySpans_append, hurls, bodySpans_lines, List.nil_append]

lemma bodySpans_afterHead (a : AfterHead) : bodySpans a.callbacks = a.bodies := by
  have hending : bodySpans (if a.complete then [.messageComplete] else []) = [] := by
    split_ifs <;> rfl
  rw [AfterHead.callbacks, bodySpans_append, bodySpans_append, bodySpans_bodies, bodySpans_lines,
    hending, List.append_nil, List.append_nil]

lemma body_report (m : MessageReport) :
    (bodySpans m.callbacks).getLast?.getD [] = m.body := by
  rw [MessageReport.callbacks, MessageReport.body]
  cases m.afterHead with
  | none =>
      show (bodySpans (.messageBegin :: m.urls.map .url ++ _)).getLast?.getD [] = _
      rw [bodySpans_front]
      rfl
  | some a =>
      have hhead : bodySpans (headCallbacks m.urls m.lines) = [] := by
        rw [headCallbacks, linesCallbacks, ← List.append_assoc, bodySpans_append, bodySpans_front]
        rfl
      show (bodySpans (headCallbacks m.urls m.lines ++ a.callbacks)).getLast?.getD [] = _
      rw [bodySpans_append, hhead, List.nil_append, bodySpans_afterHead]
      rfl

/-! ### The number -/

lemma notMem_headersComplete_line (l : HeaderLine) : .headersComplete ∉ l.callbacks := by
  simp [HeaderLine.callbacks]

lemma notMem_headersComplete_afterHead (a : AfterHead) : .headersComplete ∉ a.callbacks := by
  have hending : .headersComplete ∉ (if a.complete then [Callback.messageComplete] else []) := by
    split_ifs <;> simp
  simp [AfterHead.callbacks, notMem_headersComplete_line, hending]

/-- **What the limit sees of a message**: the names stored at the end of its head. -/
theorem exceedsHeaderCount_report (config : Http1CodecConfig) (m : MessageReport) :
    ExceedsHeaderCount config m.callbacks ↔ config.maxHeaders < m.checkedNames := by
  rw [MessageReport.callbacks, MessageReport.checkedNames]
  cases m.afterHead with
  | none =>
      refine iff_of_false ?_ (Nat.not_lt_zero _)
      rintro ⟨pre, post, hcut, -⟩
      have hmem : .headersComplete ∈ pre ++ .headersComplete :: post := by simp
      simp [← hcut, notMem_headersComplete_line] at hmem
  | some a =>
      obtain ⟨front, hfront, hno⟩ := headCallbacks_eq m.urls m.lines
      have hnames : headerNames (front ++ [.headersComplete]) = storedNames m.lines := by
        rw [headerNames, ← hfront, (savedHeaders_head m.urls m.lines).1]
        rfl
      show ExceedsHeaderCount config (headCallbacks m.urls m.lines ++ a.callbacks) ↔
        config.maxHeaders < (storedNames m.lines).card
      rw [hfront, List.append_assoc, List.singleton_append, ← hnames]
      exact exceedsHeaderCount_iff hno (notMem_headersComplete_afterHead a) config

lemma card_storedNames_le (ls : List HeaderLine) : (storedNames ls).card ≤ ls.length := by
  have hle := length_glue_le (ls.map HeaderLine.pair)
  refine (List.toFinset_card_le _).trans ?_
  simpa using hle

/-- Each line has a name of its own exactly if no two lines do, and none is glued to the next. -/
lemma card_storedNames_eq_iff (ls : List HeaderLine) :
    (storedNames ls).card = ls.length ↔
      (∀ l ∈ ls.dropLast, l.value ≠ []) ∧ (ls.map fun l => toLower l.name).Nodup := by
  have hvalues : (∀ l ∈ ls.dropLast, l.value ≠ []) ↔
      ∀ p ∈ (ls.map HeaderLine.pair).dropLast, p.2 ≠ [] := by
    rw [← List.map_dropLast, List.forall_mem_map]
    rfl
  have hglued : (∀ l ∈ ls.dropLast, l.value ≠ []) →
      storedNames ls = (ls.map fun l => toLower l.name).toFinset := by
    intro h
    rw [storedNames, glue_eq_self (hvalues.mp h), List.map_map, List.map_map]
    rfl
  constructor
  · intro hcard
    have hne : ∀ l ∈ ls.dropLast, l.value ≠ [] := by
      rw [hvalues]
      intro p hp hempty
      have hlt := length_glue_lt ⟨p, hp, hempty⟩
      have hle : (storedNames ls).card ≤ (glue (ls.map HeaderLine.pair)).length := by
        refine (List.toFinset_card_le _).trans ?_
        simp
      rw [List.length_map] at hlt
      omega
    refine ⟨hne, ?_⟩
    rw [hglued hne] at hcard
    refine Multiset.toFinset_card_eq_card_iff_nodup.mp (hcard.trans ?_)
    simp
  · rintro ⟨hne, hnodup⟩
    rw [hglued hne, List.toFinset_card_of_nodup hnodup, List.length_map]

/-- **When the number that is checked is the number of lines.**  There is no trailer line, no line
but the last has an empty value, and no two names are the same. -/
theorem checkedNames_eq_lineCount_iff (m : MessageReport) {a : AfterHead}
    (h : m.afterHead = some a) :
    m.checkedNames = m.lineCount ↔
      a.trailers = [] ∧ (∀ l ∈ m.lines.dropLast, l.value ≠ []) ∧
        (m.lines.map fun l => toLower l.name).Nodup := by
  have hle := card_storedNames_le m.lines
  have hchecked : m.checkedNames = (storedNames m.lines).card := by
    simp [MessageReport.checkedNames, h]
  have hcount : m.lineCount = m.lines.length + a.trailers.length := by
    simp [MessageReport.lineCount, h]
  rw [hchecked, hcount, ← card_storedNames_eq_iff, ← List.length_eq_zero_iff]
  omega

/-! ## Lines and the limit -/

/-- What `parse` asks of a message besides the number of its headers. -/
structure MessageReport.PassesOtherwise {L : Llhttp} (m : MessageReport) (c : Http1Codec L)
    (buffer : ByteString) : Prop where
  errno : (L.execute c.parser buffer).errno.Accepted
  size : m.size ≤ c.impl.config.maxHeaderSize
  host : c.HostGiven buffer m.headers
  length : LengthFits m.headers m.body

/-- **When a message is accepted.** -/
theorem parse_report_success_iff {L : Llhttp} (c : Http1Codec L) (buffer : ByteString)
    (ctx : RequestContext) {m : MessageReport}
    (h : (L.execute c.parser buffer).callbacks = m.callbacks) :
    (c.parse buffer ctx).1 = .kSuccess ↔
      m.PassesOtherwise c buffer ∧ m.checkedNames ≤ c.impl.config.maxHeaders := by
  rw [c.parse_success_iff, h, savedHeaders_report, body_report, ExceedsLimits,
    exceedsHeaderCount_report, ExceedsHeaderSize, headerBytes_report, not_or, not_lt, not_lt]
  constructor
  · rintro ⟨herrno, ⟨hsize, hcount⟩, hhost, hlength⟩
    exact ⟨⟨herrno, hsize, hhost, hlength⟩, hcount⟩
  · rintro ⟨⟨herrno, hsize, hhost, hlength⟩, hcount⟩
    exact ⟨herrno, ⟨hsize, hcount⟩, hhost, hlength⟩

/-- **When `max_headers` bounds the lines of an accepted message.**  There are no more of them, or
there are more names at the end of the head, or something else is wrong with the message. -/
theorem lines_within_limit_iff {L : Llhttp} (c : Http1Codec L) (buffer : ByteString)
    (ctx : RequestContext) (m : MessageReport)
    (h : (L.execute c.parser buffer).callbacks = m.callbacks) :
    ((c.parse buffer ctx).1 = .kSuccess → m.lineCount ≤ c.impl.config.maxHeaders) ↔
      m.lineCount ≤ c.impl.config.maxHeaders ∨ c.impl.config.maxHeaders < m.checkedNames ∨
        ¬m.PassesOtherwise c buffer := by
  rw [parse_report_success_iff c buffer ctx h, ← not_le]
  tauto

/-- A request of three lines, the last two of which have one name. -/
def sameNames : ByteString :=
  ascii "GET /a HTTP/1.1\r\nHost: h\r\nA: 1\r\nA: 2\r\n\r\n"

/-- A chunked request of two lines in front of its body and two behind it. -/
def withTrailers : ByteString :=
  chunkedHead ++ ascii "0\r\nA: 1\r\nA: 2\r\n\r\n"

def lineA (value : ByteString) : HeaderLine :=
  ⟨[ascii "A"], [value], by decide⟩

def sameNamesReport : MessageReport where
  urls := [ascii "/a"]
  lines := [hostLine (ascii "h"), lineA (ascii "1"), lineA (ascii "2")]
  afterHead := some { bodies := [], trailers := [], complete := true }

def withTrailersReport : MessageReport where
  urls := [ascii "/a"]
  lines := [hostLine (ascii "h"), chunkedLine]
  afterHead := some
    { bodies := [], trailers := [lineA (ascii "1"), lineA (ascii "2")], complete := true }

def llhttpOnSameNames : Llhttp :=
  .replay (ascii "GET") [(40, sameNamesReport.callbacks)]

def llhttpOnTrailers : Llhttp :=
  .replay (ascii "POST")
    [(57, headCallbacks [ascii "/a"] [hostLine (ascii "h"), chunkedLine]),
      (72, [lineA (ascii "1"), lineA (ascii "2")].flatMap HeaderLine.callbacks),
      (74, [.messageComplete])]

/-- A limit of three is kept to by the three lines. -/
theorem lines_within_limit_three :
    ((Http1Codec.new { maxHeaders := 3 } : Http1Codec llhttpOnSameNames).parse sameNames {}).1
      = .kSuccess ∧ sameNamesReport.lineCount ≤ 3 := by
  have hsuccess : ((Http1Codec.new { maxHeaders := 3 } : Http1Codec llhttpOnSameNames).parse
      sameNames {}).1 = .kSuccess := by
    decide +kernel
  refine ⟨hsuccess, ?_⟩
  exact (lines_within_limit_iff (Http1Codec.new { maxHeaders := 3 } : Http1Codec llhttpOnSameNames)
    sameNames {} sameNamesReport (by decide +kernel)).mpr (Or.inl (by decide)) hsuccess

/-- One of two is not, whether the third line is in the head or behind the body. -/
theorem more_lines_accepted :
    (llhttpOnSameNames.execute () sameNames).callbacks = sameNamesReport.callbacks ∧
      ¬(((Http1Codec.new { maxHeaders := 2 } : Http1Codec llhttpOnSameNames).parse
          sameNames {}).1 = .kSuccess → sameNamesReport.lineCount ≤ 2) ∧
      (llhttpOnTrailers.execute () withTrailers).callbacks = withTrailersReport.callbacks ∧
      ¬(((Http1Codec.new { maxHeaders := 2 } : Http1Codec llhttpOnTrailers).parse
          withTrailers {}).1 = .kSuccess → withTrailersReport.lineCount ≤ 2) := by
  refine ⟨?_, ?_, ?_, ?_⟩ <;> decide +kernel

end Netp2.Protocol
