import Netp2.Protocol.HeadIsolation

/-!
# Reusing a codec

Between two requests a codec keeps a parser, two partial header buffers, a running size, a pending
error and a pointer to the caller's context, and a parse that is aborted leaves each of them half
filled.  `reused_eq_new` says that `reset` clears all of it, whatever was parsed before: only the
configuration is left, and that never changes.

The caller's context is the other way into a parse.  `parse_relabel` says that a parse uses nothing
of it: the two fields that are not cleared are carried through, the rest is overwritten.
-/

namespace Netp2.Protocol

open ByteString StepRun

/-! ## A parse does not look at the caller's context -/

/-- The context with other values in the two fields that a parse does not fill. -/
def RequestContext.relabel (clientEndpoint traceParent : ByteString) (ctx : RequestContext) :
    RequestContext :=
  { ctx with clientEndpoint := clientEndpoint, traceParent := traceParent }

lemma RequestContext.storeHeader_relabel (e t : ByteString) (ctx : RequestContext)
    (n v : ByteString) :
    (ctx.relabel e t).storeHeader n v = (ctx.storeHeader n v).relabel e t := by
  simp only [RequestContext.storeHeader, RequestContext.relabel]
  split_ifs <;> first | rfl | (cases stoull v <;> rfl)

namespace Impl

def relabel (e t : ByteString) (s : Impl) : Impl :=
  { s with ctx := s.ctx.map (RequestContext.relabel e t) }

lemma saveCurrentHeader_relabel (e t : ByteString) (s : Impl) :
    (s.relabel e t).saveCurrentHeader = s.saveCurrentHeader.relabel e t := by
  obtain ⟨config, ctx, field, value, size, error⟩ := s
  cases ctx with
  | none => rfl
  | some ctx => simp [saveCurrentHeader, relabel, RequestContext.storeHeader_relabel]

lemma checkHeaderSize_relabel (e t : ByteString) (s : Impl) :
    (s.relabel e t).checkHeaderSize
      = (s.checkHeaderSize.1, s.checkHeaderSize.2.relabel e t) := by
  by_cases h : s.config.maxHeaderSize < s.totalHeaderSize
  · simp [checkHeaderSize, relabel, h]
  · simp [checkHeaderSize, relabel, h]

lemma tooManyHeaders_relabel (e t : ByteString) (s : Impl) :
    (s.relabel e t).tooManyHeaders = s.tooManyHeaders := by
  obtain ⟨config, ctx, field, value, size, error⟩ := s
  cases ctx <;> rfl

/-- **The step lemma.** -/
theorem call_relabel (e t : ByteString) (s : Impl) (c : Callback) :
    (s.relabel e t).call c = ((s.call c).1, (s.call c).2.relabel e t) := by
  cases c with
  | messageBegin => rfl
  | messageComplete => rfl
  | url span =>
      simp only [call, onUrl, relabel, Option.map_map]
      rfl
  | body span =>
      simp only [call, onBody, relabel, Option.map_map]
      rfl
  | headerField span =>
      have hvalue : (s.relabel e t).currentHeaderValue = s.currentHeaderValue := rfl
      rw [call, call, onHeaderField, onHeaderField, hvalue]
      split_ifs
      · rw [saveCurrentHeader_relabel]
        exact checkHeaderSize_relabel e t { s.saveCurrentHeader with
          currentHeaderField := s.saveCurrentHeader.currentHeaderField ++ span
          totalHeaderSize := s.saveCurrentHeader.totalHeaderSize + span.length }
      · exact checkHeaderSize_relabel e t { s with
          currentHeaderField := s.currentHeaderField ++ span
          totalHeaderSize := s.totalHeaderSize + span.length }
  | headerValue span =>
      exact checkHeaderSize_relabel e t { s with
        currentHeaderValue := s.currentHeaderValue ++ span
        totalHeaderSize := s.totalHeaderSize + span.length }
  | headersComplete =>
      have hfield : (s.relabel e t).currentHeaderField = s.currentHeaderField := rfl
      simp only [call, onHeadersComplete, hfield, saveCurrentHeader_relabel]
      by_cases hf : s.currentHeaderField = []
      · simp only [hf, ne_eq, not_true_eq_false, if_false, tooManyHeaders_relabel]
        cases s.tooManyHeaders <;> simp [relabel, hf]
      · simp only [hf, ne_eq, not_false_eq_true, if_true, tooManyHeaders_relabel]
        cases s.saveCurrentHeader.tooManyHeaders <;> simp [relabel]

lemma runCallbacks_relabel (e t : ByteString) : ∀ (s : Impl) (cs : List Callback),
    (s.relabel e t).runCallbacks cs = ((s.runCallbacks cs).1, (s.runCallbacks cs).2.relabel e t)
  | _, [] => rfl
  | s, c :: cs => by
      rw [runCallbacks, runCallbacks, call_relabel]
      split_ifs
      · exact runCallbacks_relabel e t _ cs
      · rfl

lemma madeCallbacks_relabel (e t : ByteString) : ∀ (s : Impl) (cs : List Callback),
    (s.relabel e t).madeCallbacks cs = s.madeCallbacks cs
  | _, [] => rfl
  | s, c :: cs => by
      rw [madeCallbacks, madeCallbacks, call_relabel, madeCallbacks_relabel e t _ cs]

end Impl

namespace Http1Codec

variable {L : Llhttp}

def relabel (e t : ByteString) (c : Http1Codec L) : Http1Codec L :=
  { c with impl := c.impl.relabel e t }

lemma execute_relabel (e t : ByteString) (c : Http1Codec L) (buffer : ByteString) :
    (c.relabel e t).execute buffer
      = ((c.execute buffer).1, (c.execute buffer).2.relabel e t) := by
  simp only [execute, relabel, Impl.runCallbacks_relabel, Impl.madeCallbacks_relabel]
  generalize c.impl.runCallbacks (L.execute c.parser buffer).callbacks = run
  obtain ⟨failed, impl⟩ := run
  cases failed <;> rfl

lemma execute_ctx (c : Http1Codec L) (buffer : ByteString) {ctx : RequestContext}
    (h : c.impl.ctx = some ctx) : ∃ x, (c.execute buffer).2.impl.ctx = some x := by
  have hstate := Impl.runCallbacks_state c.impl (L.execute c.parser buffer).callbacks
  obtain ⟨x, hx⟩ := (Impl.pending_callAll h
    (c.impl.madeCallbacks (L.execute c.parser buffer).callbacks)).1
  rw [← hstate] at hx
  refine ⟨x, ?_⟩
  rw [execute]
  cases hrun : c.impl.runCallbacks (L.execute c.parser buffer).callbacks with
  | mk failed impl =>
      rw [hrun] at hx
      cases failed <;> exact hx

/-- The part of `parse` after `llhttp_execute`. -/
def finish (ctx : RequestContext) (r : Errno × Http1Codec L) : ParseError × RequestContext :=
  let ctx := r.2.impl.ctx.getD ctx
  if r.1 ≠ .hpeOk ∧ r.1 ≠ .hpePausedUpgrade then
    if r.1 = .hpeInvalidMethod ∨ r.1 = .hpeInvalidUrl ∨ r.1 = .hpeInvalidVersion then
      (.kInvalidRequestLine, ctx)
    else
      (.kInternalError, ctx)
  else if r.2.impl.parseError ≠ .kSuccess then
    (r.2.impl.parseError, ctx)
  else
    (r.2.checkRequest (r.2.fillRequestLine ctx), r.2.fillRequestLine ctx)

lemma parse_eq_finish (c : Http1Codec L) (buffer : ByteString) (ctx : RequestContext) :
    ((c.parse buffer ctx).1, (c.parse buffer ctx).2.1)
      = finish ctx ({ c with impl := c.impl.beginParse ctx }.execute buffer) := by
  simp only [parse, finish]
  split_ifs <;> rfl

lemma finish_relabel (e t : ByteString) (ctx ctx' : RequestContext) (err : Errno)
    {c : Http1Codec L} {x : RequestContext} (h : c.impl.ctx = some x) :
    finish ctx (err, c.relabel e t)
      = ((finish ctx' (err, c)).1, (finish ctx' (err, c)).2.relabel e t) := by
  have hctx : (c.relabel e t).impl.ctx.getD ctx = (c.impl.ctx.getD ctx').relabel e t := by
    rw [relabel, Impl.relabel, h]
    rfl
  have herror : (c.relabel e t).impl.parseError = c.impl.parseError := rfl
  rw [finish, finish, hctx, herror]
  by_cases herrno : err ≠ .hpeOk ∧ err ≠ .hpePausedUpgrade
  · rw [if_pos herrno, if_pos herrno]
    split_ifs <;> rfl
  · rw [if_neg herrno, if_neg herrno]
    split_ifs <;> rfl

/-- **A parse with another context** gives the same error and the same request. -/
theorem parse_relabel (c : Http1Codec L) (buffer : ByteString) (ctx ctx' : RequestContext) :
    (c.parse buffer ctx).1 = (c.parse buffer ctx').1 ∧
      (c.parse buffer ctx).2.1
        = (c.parse buffer ctx').2.1.relabel ctx.clientEndpoint ctx.traceParent := by
  have hbegin : ({ c with impl := c.impl.beginParse ctx } : Http1Codec L)
      = relabel ctx.clientEndpoint ctx.traceParent { c with impl := c.impl.beginParse ctx' } := rfl
  have hcleared : (c.impl.beginParse ctx').ctx = some ctx'.cleared := rfl
  obtain ⟨x, hx⟩ := execute_ctx { c with impl := c.impl.beginParse ctx' } buffer hcleared
  have hparse := parse_eq_finish c buffer ctx
  rw [hbegin, execute_relabel, finish_relabel _ _ ctx ctx' _ hx] at hparse
  have hparse' := parse_eq_finish c buffer ctx'
  rw [← hparse'] at hparse
  exact Prod.mk.injEq _ _ _ _ ▸ hparse

end Http1Codec

/-! ## A history of calls -/

/-- A call on a codec. -/
inductive CodecCall where
  | parse (buffer : ByteString) (ctx : RequestContext)
  | reset

namespace Http1Codec

variable {L : Llhttp}

/-- A call as a step: what it returns, and the codec it leaves. -/
def codecStep (c : Http1Codec L) : CodecCall → Option (ParseError × RequestContext) × Http1Codec L
  | .parse buffer ctx =>
      let (error, ctx, c) := c.parse buffer ctx
      (some (error, ctx), c)
  | .reset => (none, c.reset)

lemma execute_config (c : Http1Codec L) (buffer : ByteString) :
    (c.execute buffer).2.impl.config = c.impl.config := by
  have hconfig := Impl.runCallbacks_config c.impl (L.execute c.parser buffer).callbacks
  rw [execute]
  cases hrun : c.impl.runCallbacks (L.execute c.parser buffer).callbacks with
  | mk failed impl =>
      rw [hrun] at hconfig
      cases failed <;> exact hconfig

lemma parse_config (c : Http1Codec L) (buffer : ByteString) (ctx : RequestContext) :
    (c.parse buffer ctx).2.2.impl.config = c.impl.config := by
  have hconfig := execute_config { c with impl := c.impl.beginParse ctx } buffer
  simp only [parse]
  split_ifs <;> exact hconfig

lemma codecStep_config (c : Http1Codec L) (call : CodecCall) :
    (c.codecStep call).2.impl.config = c.impl.config := by
  cases call with
  | parse buffer ctx => exact c.parse_config buffer ctx
  | reset => rfl

lemma history_config (c : Http1Codec L) (calls : List CodecCall) :
    (final codecStep c calls).impl.config = c.impl.config := by
  induction calls generalizing c with
  | nil => rfl
  | cons call calls ih =>
      rw [final, ih]
      exact c.codecStep_config call

/-- Only the configuration is left of a codec that is reset. -/
lemma reset_eq_new (hreset : ∀ p, L.reset p = L.init) (c : Http1Codec L) :
    c.reset = new c.impl.config := by
  simp only [reset, new, hreset, Impl.reset]

/-- A codec that was used and then reset. -/
def reused (config : Http1CodecConfig) (calls : List CodecCall) : Http1Codec L :=
  (final codecStep (new config) calls).reset

/-- **A reset erases the history**, whatever has been parsed before. -/
theorem reused_eq_new (hreset : ∀ p, L.reset p = L.init) (config : Http1CodecConfig)
    (calls : List CodecCall) : (reused config calls : Http1Codec L) = new config := by
  rw [reused, reset_eq_new hreset, history_config]
  rfl

end Http1Codec

/-- What a parse fills of its context. -/
def RequestContext.SameRequest (x y : RequestContext) : Prop :=
  x.method = y.method ∧ x.target = y.target ∧ x.version = y.version ∧ x.host = y.host ∧
    x.headers = y.headers ∧ x.body = y.body ∧ x.contentLength = y.contentLength ∧
    x.hasContentLength = y.hasContentLength

lemma RequestContext.sameRequest_relabel (e t : ByteString) (x : RequestContext) :
    (x.relabel e t).SameRequest x :=
  ⟨rfl, rfl, rfl, rfl, rfl, rfl, rfl, rfl⟩

/-- **A reused codec is as good as new.**  After any history, `reset` and a parse give the error and
the request that a new codec gives, whatever the two contexts held before. -/
theorem parse_after_reset {L : Llhttp} (hreset : ∀ p, L.reset p = L.init)
    (config : Http1CodecConfig) (calls : List CodecCall) (buffer : ByteString)
    (ctx ctx' : RequestContext) :
    ((Http1Codec.reused config calls : Http1Codec L).parse buffer ctx).1
        = ((Http1Codec.new config : Http1Codec L).parse buffer ctx').1 ∧
      ((Http1Codec.reused config calls : Http1Codec L).parse buffer ctx).2.1.SameRequest
        ((Http1Codec.new config : Http1Codec L).parse buffer ctx').2.1 := by
  obtain ⟨herror, hctx⟩ :=
    Http1Codec.parse_relabel (Http1Codec.new config : Http1Codec L) buffer ctx ctx'
  rw [Http1Codec.reused_eq_new hreset]
  refine ⟨herror, ?_⟩
  rw [hctx]
  exact RequestContext.sameRequest_relabel _ _ _

/-- Two requests mixed up in one parse leave no trace in the next. -/
theorem parse_after_reset_mixed :
    ((Http1Codec.reused {} [.parse requestA {}, .reset, .parse (requestA ++ requestB) {}] :
        Http1Codec llhttpOnAB).parse requestA { host := ascii "b" }).1
      = ((Http1Codec.new {} : Http1Codec llhttpOnAB).parse requestA {}).1 :=
  (parse_after_reset (fun _ => rfl) {} [.parse requestA {}, .reset, .parse (requestA ++ requestB) {}]
    requestA { host := ascii "b" } {}).1

end Netp2.Protocol
