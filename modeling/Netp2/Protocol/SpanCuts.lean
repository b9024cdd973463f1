import Netp2.Protocol.BodySpans
import Netp2.Protocol.HeaderLimits
import Netp2.Protocol.Incremental

/-!
# How tokens are cut into spans

`llhttp` may deliver the target, a name or a value in any number of spans, empty ones included.
`collect_cutLine` is the normal form: a line acts on what is pending as `collectLine` says, in terms
of its name and its value alone.  A name without any span would be an exception, since the first
span of a name is what saves the header before it.

So everything that `parse` looks at is a function of the tokens — the size and the number of the
headers (`exceedsLimits_message`) and the context (`contextAfter_message`) — and two ways of cutting
them give the same result (`parse_of_cuts`).
-/

namespace Netp2.Protocol

open ByteString LastWrite StepRun

/-! ## Lines -/

/-- A header line as it is delivered: the spans of its name, at least one, and of its value. -/
structure CutLine where
  nameSpans : List ByteString
  valueSpans : List ByteString
  nameSpans_ne : nameSpans ≠ []

namespace CutLine

def callbacks (l : CutLine) : List Callback :=
  l.nameSpans.map .headerField ++ l.valueSpans.map .headerValue

/-- The two tokens. -/
def pair (l : CutLine) : ByteString × ByteString :=
  (l.nameSpans.flatten, l.valueSpans.flatten)

end CutLine

/-- What a line does with what is pending: a value that is not empty is saved first. -/
def collectLine (p : Pending) (line : ByteString × ByteString) : List Header × Pending :=
  if p.2 = [] then ([], (p.1 ++ line.1, line.2)) else ([(toLower p.1, p.2)], line)

/-- **A line acts as its tokens do**, however it is cut. -/
theorem collect_cutLine (p : Pending) (l : CutLine) :
    savedHeaders p l.callbacks = (collectLine p l.pair).1 ∧
      final collect p l.callbacks = (collectLine p l.pair).2 := by
  obtain ⟨f, v⟩ := p
  by_cases hv : v = []
  · subst hv
    exact collect_spans_of_empty f l.nameSpans l.valueSpans
  · rw [collectLine, if_neg hv]
    exact collect_spans_of_ne f hv l.nameSpans_ne l.valueSpans

lemma collect_cutLines (p : Pending) (ls : List CutLine) :
    savedHeaders p (ls.flatMap CutLine.callbacks)
        = (outputs collectLine p (ls.map CutLine.pair)).flatten ∧
      final collect p (ls.flatMap CutLine.callbacks)
        = final collectLine p (ls.map CutLine.pair) := by
  induction ls generalizing p with
  | nil => exact ⟨rfl, rfl⟩
  | cons l ls ih =>
      obtain ⟨hsaved, hfinal⟩ := collect_cutLine p l
      obtain ⟨ihsaved, ihfinal⟩ := ih (collectLine p l.pair).2
      rw [List.flatMap_cons, savedHeaders_append, final_append, hsaved, hfinal, ihsaved, ihfinal]
      exact ⟨rfl, rfl⟩

/-! ## Messages -/

/-- What comes before the end of the head. -/
def frontCallbacks (urls : List ByteString) (ls : List CutLine) : List Callback :=
  .messageBegin :: urls.map .url ++ ls.flatMap CutLine.callbacks

def messageCallbacks (urls : List ByteString) (ls : List CutLine) (bodies : List ByteString) :
    List Callback :=
  frontCallbacks urls ls ++ .headersComplete :: bodyCallbacks bodies

/-- The headers that these lines leave. -/
def headersOf (lines : List (ByteString × ByteString)) : List Header :=
  (outputs collectLine ([], []) lines).flatten
    ++ (collect (final collectLine ([], []) lines) .headersComplete).1.toList

section

variable (urls : List ByteString) (ls : List CutLine) (bodies : List ByteString)

lemma savedHeaders_head_of_cuts :
    savedHeaders ([], []) (frontCallbacks urls ls ++ [.headersComplete])
      = headersOf (ls.map CutLine.pair) := by
  have hbegin : savedHeaders ([], []) (.messageBegin :: urls.map .url) = [] ∧
      final collect ([], []) (.messageBegin :: urls.map .url) = ([], []) :=
    savedHeaders_urls ([], []) urls
  obtain ⟨hsaved, hfinal⟩ := collect_cutLines ([], []) ls
  rw [frontCallbacks, savedHeaders_append, savedHeaders_append, final_append, hbegin.1, hbegin.2,
    hsaved, hfinal, savedHeaders_singleton]
  rfl

lemma savedHeaders_message :
    savedHeaders ([], []) (messageCallbacks urls ls bodies) = headersOf (ls.map CutLine.pair) := by
  rw [messageCallbacks, List.append_cons, savedHeaders_append, savedHeaders_head_of_cuts,
    savedHeaders_tail _ (isTail_of_mem_bodyCallbacks bodies), List.append_nil]

lemma urlBytes_message : urlBytes (messageCallbacks urls ls bodies) = urls.flatten := by
  simp [urlBytes, messageCallbacks, frontCallbacks, bodyCallbacks, CutLine.callbacks,
    List.flatMap_map, List.flatMap_assoc, List.flatMap_id']

lemma bodySpans_message : bodySpans (messageCallbacks urls ls bodies) = bodies := by
  have hfront : bodySpans (frontCallbacks urls ls) = [] := by
    refine List.filterMap_eq_nil_iff.mpr ?_
    intro c hc
    simp only [frontCallbacks, CutLine.callbacks, List.mem_append, List.mem_cons, List.mem_map,
      List.mem_flatMap] at hc
    rcases hc with (rfl | ⟨_, -, rfl⟩) | ⟨_, -, ⟨_, -, rfl⟩ | ⟨_, -, rfl⟩⟩ <;> rfl
  have htail : bodySpans (.headersComplete :: bodyCallbacks bodies) = bodies := by
    rw [bodyCallbacks, ← List.cons_append, bodySpans_append]
    calc bodySpans (.headersComplete :: bodies.map .body) ++ bodySpans [.messageComplete]
        = bodySpans (bodies.map .body) ++ [] := rfl
      _ = bodies := by rw [bodySpans_bodies, List.append_nil]
  rw [messageCallbacks, bodySpans_append, hfront, htail, List.nil_append]

/-! ## What `parse` makes of a message -/

/-- The headers of the message cross a limit. -/
def LinesExceedLimits (config : Http1CodecConfig) (lines : List (ByteString × ByteString)) : Prop :=
  config.maxHeaderSize < (lines.map fun line => line.1.length + line.2.length).sum ∨
    config.maxHeaders < ((headersOf lines).map Prod.fst).toFinset.card

lemma headerBytes_message :
    ((messageCallbacks urls ls bodies).map Impl.headerBytes).sum
      = ((ls.map CutLine.pair).map fun line => line.1.length + line.2.length).sum := by
  have hline : ∀ l : CutLine, (l.callbacks.map Impl.headerBytes).sum
      = l.pair.1.length + l.pair.2.length := by
    intro l
    simp [CutLine.callbacks, CutLine.pair, List.length_flatten, Function.comp_def,
      Impl.headerBytes]
  have hlines : ((ls.flatMap CutLine.callbacks).map Impl.headerBytes).sum
      = ((ls.map CutLine.pair).map fun line => line.1.length + line.2.length).sum := by
    induction ls with
    | nil => rfl
    | cons l ls ih =>
        rw [List.flatMap_cons, List.map_append, List.sum_append, hline, ih, List.map_cons,
          List.map_cons, List.sum_cons]
  simp [messageCallbacks, frontCallbacks, bodyCallbacks, hlines, Function.comp_def,
    Impl.headerBytes]

/-- **The limits see the tokens only.** -/
theorem exceedsLimits_message (config : Http1CodecConfig) :
    ExceedsLimits config (messageCallbacks urls ls bodies) ↔
      LinesExceedLimits config (ls.map CutLine.pair) := by
  have hfront : .headersComplete ∉ frontCallbacks urls ls := by
    simp [frontCallbacks, CutLine.callbacks]
  have htail : .headersComplete ∉ bodyCallbacks bodies := by
    simp [bodyCallbacks]
  have hnames : headerNames (frontCallbacks urls ls ++ [.headersComplete])
      = ((headersOf (ls.map CutLine.pair)).map Prod.fst).toFinset := by
    rw [headerNames, savedHeaders_head_of_cuts]
  have hcount : ExceedsHeaderCount config (messageCallbacks urls ls bodies) ↔
      config.maxHeaders < ((headersOf (ls.map CutLine.pair)).map Prod.fst).toFinset.card := by
    rw [← hnames]
    exact exceedsHeaderCount_iff hfront htail config
  rw [ExceedsLimits, hcount, ExceedsHeaderSize, headerBytes_message]
  rfl

/-- **The context sees the tokens only**, and the spans of the body. -/
theorem contextAfter_message {s : Impl} {ctx : RequestContext}
    (h : ((s.beginParse ctx).runCallbacks (messageCallbacks urls ls bodies)).1 = none) :
    s.contextAfter ctx (messageCallbacks urls ls bodies)
      = { ctx.cleared.storeAll (headersOf (ls.map CutLine.pair)) with
          target := urls.flatten
          body := bodies.getLast?.getD [] } := by
  rw [Impl.contextAfter_eq (Impl.madeCallbacks_of_none h), savedHeaders_message, urlBytes_message,
    lastSome_bodySpan, bodySpans_message]

end

/-- What is stored in a cleared context does not depend on what was in it. -/
lemma sameHead_storeAll (ctx ctx' : RequestContext) (hs : List Header) (target body : ByteString) :
    SameHead { ctx.cleared.storeAll hs with target := target, body := body }
      { ctx'.cleared.storeAll hs with target := target, body := body } := by
  have hlength : (ctx.cleared.storeAll hs).length = (ctx'.cleared.storeAll hs).length := by
    rw [RequestContext.storeAll_length, RequestContext.storeAll_length]
    rfl
  have hheaders : (ctx.cleared.storeAll hs).headers = (ctx'.cleared.storeAll hs).headers := by
    refine Finmap.ext_lookup ?_
    intro k
    rw [RequestContext.storeAll_headers, RequestContext.storeAll_headers]
    rfl
  refine ⟨rfl, ?_, hheaders, (Prod.ext_iff.mp hlength).1, (Prod.ext_iff.mp hlength).2⟩
  show (ctx.cleared.storeAll hs).host = (ctx'.cleared.storeAll hs).host
  rw [RequestContext.storeAll_host, RequestContext.storeAll_host]
  rfl

namespace Http1Codec

variable {L L' : Llhttp} {c : Http1Codec L} {c' : Http1Codec L'}

/-- `llhttp` delivers one whole message in these spans, without an error of its own. -/
structure Delivers (c : Http1Codec L) (buffer : ByteString) (urls : List ByteString)
    (ls : List CutLine) (bodies : List ByteString) : Prop where
  callbacks : (L.execute c.parser buffer).callbacks = messageCallbacks urls ls bodies
  errno : (L.execute c.parser buffer).errno.Accepted

/-- The request line as `llhttp` holds it after this buffer. -/
def requestLineOf (c : Http1Codec L) (buffer : ByteString) : ℕ × ℕ × ByteString :=
  L.requestLine (L.execute c.parser buffer).state

lemma checkRequest_congr {ctx ctx' : RequestContext} (hconfig : c.impl.config = c'.impl.config)
    (hline : L.requestLine c.parser = L'.requestLine c'.parser) (hhead : SameHead ctx ctx')
    (hbody : ctx.body = ctx'.body) : c.checkRequest ctx = c'.checkRequest ctx' := by
  simp only [Llhttp.requestLine, Prod.mk.injEq] at hline
  obtain ⟨hmajor, hminor, -⟩ := hline
  obtain ⟨-, hhost, -, hlength, hhas⟩ := hhead
  rw [checkRequest, checkRequest, hconfig, hmajor, hminor, hhost, hbody, hlength, hhas]

/-- What was received of a message within the limits. -/
lemma received_of_delivers {buffer : ByteString} {urls : List ByteString} {ls : List CutLine}
    {bodies : List ByteString} (h : c.Delivers buffer urls ls bodies) (ctx : RequestContext)
    (hrun : (c.callbackRun buffer ctx).1 = none) :
    c.received buffer ctx = (c.executed buffer ctx).fillRequestLine
      { ctx.cleared.storeAll (headersOf (ls.map CutLine.pair)) with
        target := urls.flatten
        body := bodies.getLast?.getD [] } := by
  rw [callbackRun, h.callbacks] at hrun
  rw [received, h.callbacks, contextAfter_message urls ls bodies hrun]

lemma callbackRun_of_delivers {buffer : ByteString} {urls : List ByteString} {ls : List CutLine}
    {bodies : List ByteString} (h : c.Delivers buffer urls ls bodies) (ctx : RequestContext)
    (hfits : ¬LinesExceedLimits c.impl.config (ls.map CutLine.pair)) :
    (c.callbackRun buffer ctx).1 = none := by
  rw [callbackRun, h.callbacks]
  refine Impl.runCallbacks_of_not_exceedsLimits c.impl ctx ?_
  rwa [exceedsLimits_message]

end Http1Codec

/-- **The result does not depend on the cuts.**  Two ways of delivering one message, to codecs of
one configuration, give the same `ParseError`; and when the message is accepted, the same target,
host, headers and content length. -/
theorem parse_of_cuts {L L' : Llhttp} (c : Http1Codec L) (c' : Http1Codec L')
    (buffer buffer' : ByteString) (ctx ctx' : RequestContext) (urls urls' : List ByteString)
    (ls ls' : List CutLine) (bodies : List ByteString)
    (hconfig : c.impl.config = c'.impl.config)
    (hc : c.Delivers buffer urls ls bodies) (hc' : c'.Delivers buffer' urls' ls' bodies)
    (hline : c.requestLineOf buffer = c'.requestLineOf buffer')
    (hurls : urls.flatten = urls'.flatten)
    (hls : ls.map CutLine.pair = ls'.map CutLine.pair) :
    (c.parse buffer ctx).1 = (c'.parse buffer' ctx').1 ∧
      ((c.parse buffer ctx).1 = .kSuccess →
        SameHead (c.parse buffer ctx).2.1 (c'.parse buffer' ctx').2.1) := by
  by_cases hexceeds : LinesExceedLimits c.impl.config (ls.map CutLine.pair)
  · have hfail : (c.parse buffer ctx).1 = .kInternalError := by
      refine c.parse_of_exceedsLimits buffer ctx ?_
      rwa [hc.callbacks, exceedsLimits_message]
    have hfail' : (c'.parse buffer' ctx').1 = .kInternalError := by
      refine c'.parse_of_exceedsLimits buffer' ctx' ?_
      rwa [hc'.callbacks, exceedsLimits_message, ← hls, ← hconfig]
    exact ⟨hfail.trans hfail'.symm, fun h => absurd (hfail.symm.trans h) (by decide)⟩
  · have hrun := Http1Codec.callbackRun_of_delivers hc ctx hexceeds
    rw [hconfig, hls] at hexceeds
    have hrun' := Http1Codec.callbackRun_of_delivers hc' ctx' hexceeds
    obtain ⟨hresult, hctx⟩ := Http1Codec.parse_of_ok hrun hc.errno
    obtain ⟨hresult', hctx'⟩ := Http1Codec.parse_of_ok hrun' hc'.errno
    rw [hresult, hresult', hctx, hctx', Http1Codec.received_of_delivers hc ctx hrun,
      Http1Codec.received_of_delivers hc' ctx' hrun', hurls, hls]
    have hsame := sameHead_storeAll ctx ctx' (headersOf (ls'.map CutLine.pair)) urls'.flatten
      (bodies.getLast?.getD [])
    have hconfig' : (c.executed buffer ctx).impl.config
        = (c'.executed buffer' ctx').impl.config := by
      simp only [Http1Codec.executed, Http1Codec.callbackRun, Impl.runCallbacks_config]
      exact hconfig
    exact ⟨Http1Codec.checkRequest_congr hconfig' hline hsame rfl, fun _ => hsame⟩

/-- `llhttp` on the request for `/a`, delivering it in these spans. -/
def llhttpCutting (urls : List ByteString) (ls : List CutLine) : Llhttp :=
  .replay (ascii "GET") [(28, messageCallbacks urls ls [])]

def wholeSpans : List CutLine :=
  [⟨[ascii "Host"], [ascii "a"], List.cons_ne_nil _ _⟩]

def smallSpans : List CutLine :=
  [⟨[[], ascii "Ho", ascii "st"], [ascii "a", []], List.cons_ne_nil _ _⟩]

lemma delivers_llhttpCutting (urls : List ByteString) (ls : List CutLine) :
    (Http1Codec.new {} : Http1Codec (llhttpCutting urls ls)).Delivers requestA urls ls [] where
  callbacks := by
    have hlength : 28 ≤ requestA.length := by decide +kernel
    simp [llhttpCutting, Llhttp.replay, hlength]
  errno := Or.inl rfl

theorem parse_of_cuts_small :
    ((Http1Codec.new {} : Http1Codec (llhttpCutting [ascii "/a"] wholeSpans)).parse requestA {}).1
      = ((Http1Codec.new {} :
          Http1Codec (llhttpCutting [ascii "/", [], ascii "a"] smallSpans)).parse requestA {}).1 :=
  (parse_of_cuts (Http1Codec.new {}) (Http1Codec.new {}) requestA requestA {} {} _ _ _ _ [] rfl
    (delivers_llhttpCutting _ _) (delivers_llhttpCutting _ _) rfl (by decide) (by decide)).1

end Netp2.Protocol
