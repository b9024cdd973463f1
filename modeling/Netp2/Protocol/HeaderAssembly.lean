import Netp2.Library.LastWrite
import Netp2.Library.StepRun
import Netp2.Protocol.Http1Codec

/-!
# From callbacks to headers

The handlers keep a name and a value that are not yet saved.  What they do with them does not
depend on the rest of their state, so it is a step function of its own: `collect` takes the pending
name and value and a callback to the header that is saved, if any, and the new pending pair.

`callAll_ctx` is the refinement: the context after any callbacks is the context before them with
the headers that `collect` saves stored one after the other, the target spans appended and the body
replaced.  Everything the project proves about headers is proved about `savedHeaders`.
-/

namespace Netp2.Protocol

open ByteString LastWrite StepRun

/-- A saved header: its name in lower case and its value. -/
abbrev Header := ByteString × ByteString

/-- A name and a value that are still being collected. -/
abbrev Pending := ByteString × ByteString

def Impl.pending (s : Impl) : Pending :=
  (s.currentHeaderField, s.currentHeaderValue)

/-! ## What is saved -/

/-- The header that a callback saves, and what is pending after it. -/
def collect (p : Pending) : Callback → Option Header × Pending
  | .headerField span =>
      if p.2 ≠ [] then (some (toLower p.1, p.2), (span, [])) else (none, (p.1 ++ span, p.2))
  | .headerValue span => (none, (p.1, p.2 ++ span))
  | .headersComplete => if p.1 ≠ [] then (some (toLower p.1, p.2), ([], [])) else (none, p)
  | _ => (none, p)

def savedHeaders (p : Pending) (cs : List Callback) : List Header :=
  (outputs collect p cs).filterMap id

lemma savedHeaders_append (p : Pending) (cs ds : List Callback) :
    savedHeaders p (cs ++ ds) = savedHeaders p cs ++ savedHeaders (final collect p cs) ds := by
  rw [savedHeaders, outputs_append, List.filterMap_append]
  rfl

lemma savedHeaders_singleton (p : Pending) (c : Callback) :
    savedHeaders p [c] = (collect p c).1.toList := by
  rw [savedHeaders, outputs, outputs]
  cases (collect p c).1 <;> rfl

def urlBytes (cs : List Callback) : ByteString :=
  cs.flatMap fun
    | .url span => span
    | _ => []

def bodySpan : Callback → Option ByteString
  | .body span => some span
  | _ => none

/-! ## The context as a store of headers -/

namespace RequestContext

def storeAll (ctx : RequestContext) (hs : List Header) : RequestContext :=
  hs.foldl (fun ctx h => ctx.storeHeader h.1 h.2) ctx

@[simp] lemma storeHeader_headers (ctx : RequestContext) (n v : ByteString) :
    (ctx.storeHeader n v).headers = ctx.headers.insert n v := by
  simp only [storeHeader]
  split_ifs <;> first | rfl | (cases stoull v <;> rfl)

lemma storeHeader_host (ctx : RequestContext) (n v : ByteString) :
    (ctx.storeHeader n v).host = if n = ascii "host" then v else ctx.host := by
  simp only [storeHeader]
  split_ifs <;> first | rfl | (cases stoull v <;> rfl)

/-- What a header says about the length of the body. -/
def lengthOf (h : Header) : Option ℕ :=
  if h.1 = ascii "content-length" then stoull h.2 else none

/-- The two fields for the length of the body. -/
def length (ctx : RequestContext) : ℕ × Bool :=
  (ctx.contentLength, ctx.hasContentLength)

lemma storeHeader_length (ctx : RequestContext) (h : Header) :
    (ctx.storeHeader h.1 h.2).length = ((lengthOf h).map (·, true)).getD ctx.length := by
  simp only [storeHeader, lengthOf, length]
  split_ifs <;> first | rfl | (cases stoull h.2 <;> rfl)

lemma storeHeader_with (ctx : RequestContext) (n v t b : ByteString) :
    { ctx with target := t, body := b }.storeHeader n v
      = { ctx.storeHeader n v with target := t, body := b } := by
  simp only [storeHeader]
  split_ifs <;> first | rfl | (cases stoull v <;> rfl)

lemma storeAll_append (ctx : RequestContext) (hs hs' : List Header) :
    ctx.storeAll (hs ++ hs') = (ctx.storeAll hs).storeAll hs' :=
  List.foldl_append

lemma storeAll_headers (ctx : RequestContext) (hs : List Header) (k : ByteString) :
    (ctx.storeAll hs).headers.lookup k = (lastValue k hs).or (ctx.headers.lookup k) := by
  have hfold : (ctx.storeAll hs).headers
      = hs.foldl (fun m h => m.insert h.1 h.2) ctx.headers := by
    induction hs generalizing ctx with
    | nil => rfl
    | cons h hs ih =>
        rw [List.foldl_cons, ← storeHeader_headers]
        exact ih _
  rw [hfold, lookup_foldl_insert]

lemma storeAll_host (ctx : RequestContext) (hs : List Header) :
    (ctx.storeAll hs).host = (lastValue (ascii "host") hs).getD ctx.host := by
  refine foldl_register ?_ ctx hs
  intro ctx h
  rw [storeHeader_host]
  split_ifs <;> rfl

lemma storeAll_length (ctx : RequestContext) (hs : List Header) :
    (ctx.storeAll hs).length = ((lastSome lengthOf hs).map (·, true)).getD ctx.length := by
  rw [← lastSome_map]
  exact foldl_register storeHeader_length ctx hs

lemma storeAll_with (ctx : RequestContext) (hs : List Header) (t b : ByteString) :
    { ctx with target := t, body := b }.storeAll hs
      = { ctx.storeAll hs with target := t, body := b } := by
  induction hs generalizing ctx with
  | nil => rfl
  | cons h hs ih =>
      show ({ ctx with target := t, body := b }.storeHeader h.1 h.2).storeAll hs = _
      rw [storeHeader_with, ih]
      rfl

/-- What a callback does to the context, given the header that is saved during it. -/
def receive (ctx : RequestContext) (saved : Option Header) (c : Callback) : RequestContext :=
  let ctx := ctx.storeAll saved.toList
  match c with
  | .url span => { ctx with target := ctx.target ++ span }
  | .body span => { ctx with body := span }
  | _ => ctx

end RequestContext

/-! ## The handlers refine `collect` -/

namespace Impl

lemma saveCurrentHeader_of_ctx {s : Impl} {ctx : RequestContext} (h : s.ctx = some ctx) :
    s.saveCurrentHeader = { s with
      ctx := some (ctx.storeHeader (toLower s.currentHeaderField) s.currentHeaderValue)
      currentHeaderField := []
      currentHeaderValue := [] } := by
  rw [saveCurrentHeader, h]

@[simp] lemma checkHeaderSize_ctx (s : Impl) : s.checkHeaderSize.2.ctx = s.ctx := by
  rw [checkHeaderSize]
  split_ifs <;> rfl

@[simp] lemma checkHeaderSize_pending (s : Impl) : s.checkHeaderSize.2.pending = s.pending := by
  rw [checkHeaderSize]
  split_ifs <;> rfl

/-- **The step lemma.** -/
theorem call_ctx {s : Impl} {ctx : RequestContext} (h : s.ctx = some ctx) (c : Callback) :
    (s.call c).2.ctx = some (ctx.receive (collect s.pending c).1 c) ∧
      (s.call c).2.pending = (collect s.pending c).2 := by
  cases c with
  | messageBegin => exact ⟨h, rfl⟩
  | messageComplete => exact ⟨h, rfl⟩
  | url span => exact ⟨by rw [call, onUrl, h]; rfl, rfl⟩
  | body span => exact ⟨by rw [call, onBody, h]; rfl, rfl⟩
  | headerField span =>
      rw [call, onHeaderField, checkHeaderSize_ctx, checkHeaderSize_pending, collect]
      by_cases hv : s.currentHeaderValue = []
      · simp [pending, hv, h, RequestContext.receive, RequestContext.storeAll]
      · simp [pending, hv, saveCurrentHeader_of_ctx h, RequestContext.receive,
          RequestContext.storeAll]
  | headerValue span =>
      rw [call, onHeaderValue, checkHeaderSize_ctx, checkHeaderSize_pending]
      exact ⟨h, rfl⟩
  | headersComplete =>
      rw [call, onHeadersComplete, collect]
      by_cases hf : s.currentHeaderField = []
      · split_ifs <;>
          simp_all [pending, RequestContext.receive, RequestContext.storeAll]
      · split_ifs <;>
          simp_all [pending, saveCurrentHeader_of_ctx h, RequestContext.receive,
            RequestContext.storeAll]

lemma pending_callAll {s : Impl} {ctx : RequestContext} (h : s.ctx = some ctx)
    (cs : List Callback) :
    (∃ ctx', (s.callAll cs).ctx = some ctx') ∧
      (s.callAll cs).pending = final collect s.pending cs := by
  induction cs generalizing s ctx with
  | nil => exact ⟨⟨ctx, h⟩, rfl⟩
  | cons c cs ih =>
      obtain ⟨hctx, hpending⟩ := call_ctx h c
      rw [callAll_cons, final, ← hpending]
      exact ih hctx

/-- **The refinement.**  Any callbacks store the headers that `collect` saves, append the target
spans and replace the body. -/
theorem callAll_ctx {s : Impl} {ctx : RequestContext} (h : s.ctx = some ctx)
    (cs : List Callback) :
    (s.callAll cs).ctx = some { ctx.storeAll (savedHeaders s.pending cs) with
      target := ctx.target ++ urlBytes cs
      body := (lastSome bodySpan cs).getD ctx.body } := by
  induction cs using List.reverseRecOn with
  | nil => simpa [urlBytes, savedHeaders, outputs, RequestContext.storeAll] using h
  | append_singleton cs c ih =>
      obtain ⟨hctx, -⟩ := call_ctx ih c
      rw [(pending_callAll h cs).2] at hctx
      rw [callAll_append, callAll_cons, callAll_nil, hctx, savedHeaders_append,
        savedHeaders_singleton, RequestContext.storeAll_append, lastSome_append]
      cases c <;>
        simp [RequestContext.receive, RequestContext.storeAll_with, urlBytes, bodySpan, lastSome]

lemma contextAfter_eq {s : Impl} {ctx : RequestContext} {cs : List Callback}
    (h : (s.beginParse ctx).madeCallbacks cs = cs) :
    s.contextAfter ctx cs = { ctx.cleared.storeAll (savedHeaders ([], []) cs) with
      target := urlBytes cs
      body := (lastSome bodySpan cs).getD [] } := by
  have hctx : (s.beginParse ctx).ctx = some ctx.cleared := rfl
  rw [contextAfter, runCallbacks_state, h, callAll_ctx hctx]
  rfl

end Impl

end Netp2.Protocol
