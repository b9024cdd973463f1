import Netp2.Protocol.RequestContext

/-!
# The HTTP/1.1 codec

`Http1Codec` drives `llhttp`, which cuts a buffer into callbacks; the handlers put the request
together in a `RequestContext`.

`llhttp` is not part of the repository.  It is the parameter `Llhttp`: a parser state, and for a
state and a buffer the callbacks that a call of `llhttp_execute` makes, the error code it returns
and the state it leaves.  A handler that returns something other than `0` stops the call; it then
returns `HPE_USER`, or `HPE_CB_HEADERS_COMPLETE` for `on_headers_complete`, and the state it leaves
depends on how far it came (`stopped`).

The handlers are total functions on `Impl`, so the state after any callbacks is a fold (`callAll`).
`runCallbacks` is what `llhttp_execute` does of it, and `madeCallbacks` the part of the callbacks it
makes.
-/

namespace Netp2.Protocol

open ByteString

/-! ## llhttp -/

/-- The callbacks in use, with the bytes of those that have a span. -/
inductive Callback where
  | messageBegin
  | url (span : ByteString)
  | headerField (span : ByteString)
  | headerValue (span : ByteString)
  | headersComplete
  | body (span : ByteString)
  | messageComplete
  deriving DecidableEq, Repr

/-- The codes the codec tells apart, or that a failing callback causes. -/
inductive Errno where
  | hpeOk
  | hpePausedUpgrade
  | hpeInvalidMethod
  | hpeInvalidUrl
  | hpeInvalidVersion
  | hpeUser
  | hpeCbHeadersComplete
  | other (code : ℕ)
  deriving DecidableEq, Repr

/-- A call of `llhttp_execute` in which no callback fails. -/
structure Execution (State : Type) where
  callbacks : List Callback
  errno : Errno
  state : State

structure Llhttp where
  State : Type
  init : State
  reset : State → State
  execute : State → ByteString → Execution State
  stopped : State → ByteString → ℕ → State
  httpMajor : State → ℕ
  httpMinor : State → ℕ
  methodName : State → ByteString

/-- An HTTP/1.1 parser on the beginnings of one known buffer: the callbacks it makes, with the
number of bytes after which it makes them. -/
def Llhttp.replay (method : ByteString) (script : List (ℕ × List Callback)) : Llhttp where
  State := Unit
  init := ()
  reset _ := ()
  execute _ b := ⟨(script.takeWhile fun e => decide (e.1 ≤ b.length)).flatMap Prod.snd, .hpeOk, ()⟩
  stopped _ _ _ := ()
  httpMajor _ := 1
  httpMinor _ := 1
  methodName _ := method

/-- What `llhttp_execute` returns when this callback returns `-1`. -/
def Callback.failure : Callback → Errno
  | .headersComplete => .hpeCbHeadersComplete
  | _ => .hpeUser

/-! ## The handlers -/

structure Http1CodecConfig where
  maxHeaderSize : ℕ := 8192
  maxHeaders : ℕ := 100
  requireHostHeader : Bool := true
  deriving DecidableEq, Repr

/-- `Http1Codec::Impl` without the parser. -/
structure Impl where
  config : Http1CodecConfig
  ctx : Option RequestContext := none
  currentHeaderField : ByteString := []
  currentHeaderValue : ByteString := []
  totalHeaderSize : ℕ := 0
  parseError : ParseError := .kSuccess
  deriving DecidableEq

namespace Impl

def saveCurrentHeader (s : Impl) : Impl :=
  match s.ctx with
  | none => s
  | some ctx =>
      { s with
        ctx := some (ctx.storeHeader (toLower s.currentHeaderField) s.currentHeaderValue)
        currentHeaderField := []
        currentHeaderValue := [] }

/-- The check at the end of `on_header_field` and `on_header_value`. -/
def checkHeaderSize (s : Impl) : ℤ × Impl :=
  if s.config.maxHeaderSize < s.totalHeaderSize then
    (-1, { s with parseError := .kHeaderTooLarge })
  else
    (0, s)

def onMessageBegin (s : Impl) : ℤ × Impl :=
  (0, s)

def onUrl (s : Impl) (span : ByteString) : ℤ × Impl :=
  (0, { s with ctx := s.ctx.map fun ctx => { ctx with target := ctx.target ++ span } })

def onHeaderField (s : Impl) (span : ByteString) : ℤ × Impl :=
  let s := if s.currentHeaderValue ≠ [] then s.saveCurrentHeader else s
  { s with
    currentHeaderField := s.currentHeaderField ++ span
    totalHeaderSize := s.totalHeaderSize + span.length }.checkHeaderSize

def onHeaderValue (s : Impl) (span : ByteString) : ℤ × Impl :=
  { s with
    currentHeaderValue := s.currentHeaderValue ++ span
    totalHeaderSize := s.totalHeaderSize + span.length }.checkHeaderSize

def tooManyHeaders (s : Impl) : Bool :=
  match s.ctx with
  | none => false
  | some ctx => decide (s.config.maxHeaders < ctx.headers.keys.card)

def onHeadersComplete (s : Impl) : ℤ × Impl :=
  let s := if s.currentHeaderField ≠ [] then s.saveCurrentHeader else s
  if s.tooManyHeaders then
    (-1, { s with parseError := .kTooManyHeaders })
  else
    (0, s)

def onBody (s : Impl) (span : ByteString) : ℤ × Impl :=
  (0, { s with ctx := s.ctx.map fun ctx => { ctx with body := span } })

def onMessageComplete (s : Impl) : ℤ × Impl :=
  (0, s)

def call (s : Impl) : Callback → ℤ × Impl
  | .messageBegin => s.onMessageBegin
  | .url span => s.onUrl span
  | .headerField span => s.onHeaderField span
  | .headerValue span => s.onHeaderValue span
  | .headersComplete => s.onHeadersComplete
  | .body span => s.onBody span
  | .messageComplete => s.onMessageComplete

/-- The state after all of these callbacks, whatever they return. -/
def callAll (s : Impl) (cs : List Callback) : Impl :=
  cs.foldl (fun s c => (s.call c).2) s

/-- The callbacks up to the first that does not return `0`. -/
def madeCallbacks (s : Impl) : List Callback → List Callback
  | [] => []
  | c :: cs => c :: if (s.call c).1 = 0 then madeCallbacks (s.call c).2 cs else []

/-- The callbacks as `llhttp_execute` makes them: the first that fails, and the state left. -/
def runCallbacks (s : Impl) : List Callback → Option Callback × Impl
  | [] => (none, s)
  | c :: cs =>
      if (s.call c).1 = 0 then runCallbacks (s.call c).2 cs else (some c, (s.call c).2)

/-- The state in which `parse` calls `llhttp_execute`. -/
def beginParse (s : Impl) (ctx : RequestContext) : Impl :=
  { s with
    ctx := some ctx.cleared
    currentHeaderField := []
    currentHeaderValue := []
    totalHeaderSize := 0
    parseError := .kSuccess }

def reset (s : Impl) : Impl :=
  { s with
    currentHeaderField := []
    currentHeaderValue := []
    totalHeaderSize := 0
    parseError := .kSuccess
    ctx := none }

end Impl

/-! ## The codec -/

structure Http1Codec (L : Llhttp) where
  impl : Impl
  parser : L.State

namespace Http1Codec

variable {L : Llhttp}

def new (config : Http1CodecConfig) : Http1Codec L where
  impl := { config := config }
  parser := L.init

def reset (c : Http1Codec L) : Http1Codec L where
  impl := c.impl.reset
  parser := L.reset c.parser

/-- `llhttp_execute` with the handlers of this codec. -/
def execute (c : Http1Codec L) (buffer : ByteString) : Errno × Http1Codec L :=
  let e := L.execute c.parser buffer
  match c.impl.runCallbacks e.callbacks with
  | (none, impl) => (e.errno, ⟨impl, e.state⟩)
  | (some failed, impl) =>
      let made := (c.impl.madeCallbacks e.callbacks).length
      (failed.failure, ⟨impl, L.stopped c.parser buffer made⟩)

/-- The version and the method, as `parse` fills them in from the parser. -/
def fillRequestLine (c : Http1Codec L) (ctx : RequestContext) : RequestContext :=
  { ctx with
    version := ascii "HTTP/" ++ decimal (L.httpMajor c.parser) ++ ascii "."
      ++ decimal (L.httpMinor c.parser)
    method := L.methodName c.parser }

/-- The checks that `parse` makes on a request that `llhttp` accepts. -/
def checkRequest (c : Http1Codec L) (ctx : RequestContext) : ParseError :=
  if c.impl.config.requireHostHeader ∧ L.httpMajor c.parser = 1 ∧ 1 ≤ L.httpMinor c.parser ∧
      ctx.host = [] then
    .kMissingHost
  else if ctx.hasContentLength ∧ ctx.body.length ≠ ctx.contentLength then
    .kContentLengthMismatch
  else
    .kSuccess

/-- `parse`: the error, the context as it is left, and the codec as it is left. -/
def parse (c : Http1Codec L) (buffer : ByteString) (ctx : RequestContext) :
    ParseError × RequestContext × Http1Codec L :=
  let (err, c) := { c with impl := c.impl.beginParse ctx }.execute buffer
  let ctx := c.impl.ctx.getD ctx
  if err ≠ .hpeOk ∧ err ≠ .hpePausedUpgrade then
    if err = .hpeInvalidMethod ∨ err = .hpeInvalidUrl ∨ err = .hpeInvalidVersion then
      (.kInvalidRequestLine, ctx, c)
    else
      (.kInternalError, ctx, c)
  else if c.impl.parseError ≠ .kSuccess then
    (c.impl.parseError, ctx, c)
  else
    let ctx := c.fillRequestLine ctx
    (c.checkRequest ctx, ctx, { c with impl := { c.impl with ctx := some ctx } })

end Http1Codec

/-! ## Runs of callbacks -/

namespace Impl

@[simp] lemma callAll_nil (s : Impl) : s.callAll [] = s := rfl

lemma callAll_cons (s : Impl) (c : Callback) (cs : List Callback) :
    s.callAll (c :: cs) = (s.call c).2.callAll cs := rfl

lemma callAll_append (s : Impl) (cs ds : List Callback) :
    s.callAll (cs ++ ds) = (s.callAll cs).callAll ds :=
  List.foldl_append

/-- What every handler keeps, all callbacks keep. -/
lemma callAll_invariant {inv : Impl → Prop} (hcall : ∀ s c, inv s → inv (s.call c).2) {s : Impl}
    (hs : inv s) (cs : List Callback) : inv (s.callAll cs) := by
  induction cs generalizing s with
  | nil => exact hs
  | cons c cs ih => exact ih (hcall s c hs)

lemma runCallbacks_state : ∀ (s : Impl) (cs : List Callback),
    (s.runCallbacks cs).2 = s.callAll (s.madeCallbacks cs)
  | _, [] => rfl
  | s, c :: cs => by
      rw [runCallbacks, madeCallbacks, callAll_cons]
      split_ifs
      · exact runCallbacks_state _ cs
      · rfl

/-- And wherever a run of callbacks stops, it holds. -/
lemma runCallbacks_invariant {inv : Impl → Prop} (hcall : ∀ s c, inv s → inv (s.call c).2)
    {s : Impl} (hs : inv s) (cs : List Callback) : inv (s.runCallbacks cs).2 := by
  rw [runCallbacks_state]
  exact callAll_invariant hcall hs _

lemma madeCallbacks_of_none : ∀ {s : Impl} {cs : List Callback},
    (s.runCallbacks cs).1 = none → s.madeCallbacks cs = cs
  | _, [], _ => rfl
  | s, c :: cs, h => by
      rw [runCallbacks] at h
      rw [madeCallbacks]
      split_ifs at h ⊢
      rw [madeCallbacks_of_none h]

/-- What succeeds, succeeds in each of its beginnings. -/
lemma runCallbacks_none_of_append : ∀ {s : Impl} {cs ds : List Callback},
    (s.runCallbacks (cs ++ ds)).1 = none → (s.runCallbacks cs).1 = none
  | _, [], _, _ => rfl
  | s, c :: cs, ds, h => by
      rw [List.cons_append, runCallbacks] at h
      rw [runCallbacks]
      split_ifs at h ⊢
      exact runCallbacks_none_of_append h

lemma runCallbacks_append_of_none : ∀ {s : Impl} {cs : List Callback} (ds : List Callback),
    (s.runCallbacks cs).1 = none → s.runCallbacks (cs ++ ds) = (s.runCallbacks cs).2.runCallbacks ds
  | _, [], _, _ => rfl
  | s, c :: cs, ds, h => by
      rw [runCallbacks] at h
      rw [List.cons_append, runCallbacks, runCallbacks]
      split_ifs at h ⊢
      exact runCallbacks_append_of_none ds h

lemma runCallbacks_append_of_some : ∀ {s : Impl} {cs : List Callback} {failed : Callback}
    (ds : List Callback), (s.runCallbacks cs).1 = some failed →
      s.runCallbacks (cs ++ ds) = s.runCallbacks cs
  | _, [], _, _, h => nomatch h
  | s, c :: cs, failed, ds, h => by
      rw [runCallbacks] at h
      rw [List.cons_append, runCallbacks, runCallbacks]
      split_ifs at h ⊢
      · exact runCallbacks_append_of_some ds h
      · rfl

lemma madeCallbacks_prefix : ∀ (s : Impl) (cs : List Callback), s.madeCallbacks cs <+: cs
  | _, [] => List.prefix_rfl
  | s, c :: cs => by
      rw [madeCallbacks, List.prefix_cons_inj]
      split_ifs
      · exact madeCallbacks_prefix _ cs
      · exact List.nil_prefix

/-- After a run in which nothing fails, the next callback is made as well. -/
lemma madeCallbacks_concat : ∀ {s : Impl} {cs : List Callback} (c : Callback),
    (s.runCallbacks cs).1 = none → s.madeCallbacks (cs ++ [c]) = cs ++ [c]
  | s, [], c, _ => by simp [madeCallbacks]
  | s, d :: cs, c, h => by
      rw [runCallbacks] at h
      rw [List.cons_append, madeCallbacks]
      split_ifs at h ⊢
      rw [madeCallbacks_concat c h]

/-! ## The size limit -/

def headerBytes : Callback → ℕ
  | .headerField span => span.length
  | .headerValue span => span.length
  | _ => 0

@[simp] lemma saveCurrentHeader_config (s : Impl) : s.saveCurrentHeader.config = s.config := by
  rw [saveCurrentHeader]
  cases s.ctx <;> rfl

@[simp] lemma saveCurrentHeader_totalHeaderSize (s : Impl) :
    s.saveCurrentHeader.totalHeaderSize = s.totalHeaderSize := by
  rw [saveCurrentHeader]
  cases s.ctx <;> rfl

@[simp] lemma checkHeaderSize_config (s : Impl) : s.checkHeaderSize.2.config = s.config := by
  rw [checkHeaderSize]
  split_ifs <;> rfl

@[simp] lemma checkHeaderSize_totalHeaderSize (s : Impl) :
    s.checkHeaderSize.2.totalHeaderSize = s.totalHeaderSize := by
  rw [checkHeaderSize]
  split_ifs <;> rfl

lemma checkHeaderSize_eq_zero {s : Impl} (h : s.totalHeaderSize ≤ s.config.maxHeaderSize) :
    s.checkHeaderSize.1 = 0 := by
  rw [checkHeaderSize, if_neg (not_lt.mpr h)]

lemma call_config (s : Impl) (c : Callback) : (s.call c).2.config = s.config := by
  cases c with
  | headerField span =>
      rw [call, onHeaderField, checkHeaderSize_config]
      split_ifs <;> simp
  | headerValue span => rw [call, onHeaderValue, checkHeaderSize_config]
  | headersComplete =>
      rw [call, onHeadersComplete]
      split_ifs <;> simp
  | _ => rfl

lemma callAll_config (s : Impl) (cs : List Callback) : (s.callAll cs).config = s.config := by
  induction cs generalizing s with
  | nil => rfl
  | cons c cs ih => rw [callAll_cons, ih, call_config]

lemma runCallbacks_config (s : Impl) (cs : List Callback) :
    (s.runCallbacks cs).2.config = s.config := by
  rw [runCallbacks_state, callAll_config]

lemma call_totalHeaderSize (s : Impl) (c : Callback) :
    (s.call c).2.totalHeaderSize = s.totalHeaderSize + headerBytes c := by
  cases c with
  | headerField span =>
      rw [call, onHeaderField, checkHeaderSize_totalHeaderSize]
      split_ifs <;> simp [headerBytes]
  | headerValue span => rw [call, onHeaderValue, checkHeaderSize_totalHeaderSize]; rfl
  | headersComplete =>
      rw [call, onHeadersComplete]
      split_ifs <;> simp [headerBytes]
  | _ => rfl

/-- Only the two limits make a handler fail. -/
lemma call_eq_zero {s : Impl} {c : Callback} (hc : c ≠ .headersComplete)
    (hfit : s.totalHeaderSize + headerBytes c ≤ s.config.maxHeaderSize) : (s.call c).1 = 0 := by
  cases c with
  | headersComplete => exact absurd rfl hc
  | headerField span =>
      refine checkHeaderSize_eq_zero ?_
      split_ifs <;> simpa [headerBytes] using hfit
  | headerValue span => exact checkHeaderSize_eq_zero hfit
  | _ => rfl

/-- Callbacks whose header bytes fit, up to the end of the head, all succeed. -/
lemma runCallbacks_of_fits : ∀ {s : Impl} {cs : List Callback}, .headersComplete ∉ cs →
    s.totalHeaderSize + (cs.map headerBytes).sum ≤ s.config.maxHeaderSize →
      (s.runCallbacks cs).1 = none
  | _, [], _, _ => rfl
  | s, c :: cs, hno, hfit => by
      rw [List.map_cons, List.sum_cons] at hfit
      have hc : c ≠ .headersComplete := fun h => hno (h ▸ List.mem_cons_self)
      rw [runCallbacks, if_pos (call_eq_zero hc (by omega))]
      refine runCallbacks_of_fits (fun h => hno (List.mem_cons_of_mem c h)) ?_
      rw [call_totalHeaderSize, call_config]
      omega

/-- The context that `llhttp_execute` leaves, when it makes these callbacks as long as they
succeed. -/
def contextAfter (s : Impl) (ctx : RequestContext) (cs : List Callback) : RequestContext :=
  ((s.beginParse ctx).runCallbacks cs).2.ctx.getD ctx

lemma call_parseError {s : Impl} {c : Callback} (h : (s.call c).1 = 0) :
    (s.call c).2.parseError = s.parseError := by
  have hsave : s.saveCurrentHeader.parseError = s.parseError := by
    rw [saveCurrentHeader]
    cases s.ctx <;> rfl
  have hcheck : ∀ t : Impl, t.checkHeaderSize.1 = 0 → t.checkHeaderSize.2 = t := by
    intro t ht
    rw [checkHeaderSize] at ht ⊢
    split_ifs at ht ⊢
    · exact absurd (show (-1 : ℤ) = 0 from ht) (by decide)
    · rfl
  cases c with
  | headerField span =>
      rw [call, onHeaderField] at h ⊢
      rw [hcheck _ h]
      split_ifs
      · exact hsave
      · rfl
  | headerValue span =>
      rw [call, onHeaderValue] at h ⊢
      rw [hcheck _ h]
  | headersComplete =>
      rw [call, onHeadersComplete] at h ⊢
      split_ifs at h ⊢ with h1 h2 h3
      · exact absurd (show (-1 : ℤ) = 0 from h) (by decide)
      · exact hsave
      · exact absurd (show (-1 : ℤ) = 0 from h) (by decide)
      · rfl
  | _ => rfl

lemma runCallbacks_parseError : ∀ {s : Impl} {cs : List Callback},
    (s.runCallbacks cs).1 = none → (s.runCallbacks cs).2.parseError = s.parseError
  | _, [], _ => rfl
  | s, c :: cs, h => by
      rw [runCallbacks] at h ⊢
      split_ifs at h ⊢ with hc
      rw [runCallbacks_parseError h, call_parseError hc]

end Impl

/-! ## What `parse` returns -/

namespace Http1Codec

variable {L : Llhttp} (c : Http1Codec L) (buffer : ByteString) (ctx : RequestContext)

def callbackRun : Option Callback × Impl :=
  (c.impl.beginParse ctx).runCallbacks (L.execute c.parser buffer).callbacks

/-- The codec after `llhttp_execute` if no handler fails. -/
def executed : Http1Codec L where
  impl := (c.callbackRun buffer ctx).2
  parser := (L.execute c.parser buffer).state

/-- The request line and the headers, as far as `llhttp_execute` reported them. -/
def received : RequestContext :=
  (c.executed buffer ctx).fillRequestLine
    (c.impl.contextAfter ctx (L.execute c.parser buffer).callbacks)

variable {c buffer ctx}

lemma runCallbacks_of_callbackRun {failed : Option Callback}
    (h : (c.callbackRun buffer ctx).1 = failed) :
    (c.impl.beginParse ctx).runCallbacks (L.execute c.parser buffer).callbacks
      = (failed, (c.callbackRun buffer ctx).2) :=
  Prod.ext h rfl

/-- A failing handler always ends in `kInternalError`. -/
lemma parse_of_failed {failed : Callback} (h : (c.callbackRun buffer ctx).1 = some failed) :
    (c.parse buffer ctx).1 = .kInternalError := by
  simp only [parse, execute, runCallbacks_of_callbackRun h]
  cases failed <;> rfl

/-- An error of the parser is told by its code. -/
lemma parse_of_errno (h : (c.callbackRun buffer ctx).1 = none)
    (hok : (L.execute c.parser buffer).errno ≠ .hpeOk)
    (hup : (L.execute c.parser buffer).errno ≠ .hpePausedUpgrade) :
    (c.parse buffer ctx).1 = .kInvalidRequestLine ∨ (c.parse buffer ctx).1 = .kInternalError := by
  simp only [parse, execute, runCallbacks_of_callbackRun h, hok, hup, ne_eq, not_false_eq_true,
    and_self, if_true]
  split_ifs
  · exact Or.inl rfl
  · exact Or.inr rfl

/-- Otherwise the request is what was received, and its checks decide. -/
lemma parse_of_ok (h : (c.callbackRun buffer ctx).1 = none)
    (herrno : (L.execute c.parser buffer).errno = .hpeOk ∨
      (L.execute c.parser buffer).errno = .hpePausedUpgrade) :
    (c.parse buffer ctx).1 = (c.executed buffer ctx).checkRequest (c.received buffer ctx) ∧
      (c.parse buffer ctx).2.1 = c.received buffer ctx := by
  have herror : (c.callbackRun buffer ctx).2.parseError = .kSuccess :=
    Impl.runCallbacks_parseError h
  rcases herrno with he | he <;>
    simp [parse, execute, runCallbacks_of_callbackRun h, he, herror, executed, received,
      Impl.contextAfter]

lemma checkRequest_mem (c : Http1Codec L) (ctx : RequestContext) :
    c.checkRequest ctx ∈ [ParseError.kMissingHost, .kContentLengthMismatch, .kSuccess] := by
  rw [checkRequest]
  split_ifs <;> simp

/-- What the checks ask of a request. -/
lemma checkRequest_eq_success_iff (c : Http1Codec L) (ctx : RequestContext) :
    c.checkRequest ctx = .kSuccess ↔
      (c.impl.config.requireHostHeader = true → L.httpMajor c.parser = 1 →
        1 ≤ L.httpMinor c.parser → ctx.host ≠ []) ∧
      (ctx.hasContentLength = true → ctx.body.length = ctx.contentLength) := by
  rw [checkRequest]
  split_ifs with hhost hlength
  · simp only [false_iff, not_and]
    intro h
    exact absurd hhost.2.2.2 (h hhost.1 hhost.2.1 hhost.2.2.1)
  · simp only [false_iff, not_and]
    intro _ h
    exact hlength.2 (h hlength.1)
  · simp only [true_iff]
    refine ⟨?_, ?_⟩
    · intro hrequire hmajor hminor hempty
      exact hhost ⟨hrequire, hmajor, hminor, hempty⟩
    · intro hhas
      by_contra hne
      exact hlength ⟨hhas, hne⟩

/-- Three of the codes of `ParseError` are never returned. -/
lemma parse_mem (c : Http1Codec L) (buffer : ByteString) (ctx : RequestContext) :
    (c.parse buffer ctx).1 ∈ [ParseError.kInvalidRequestLine, .kInternalError, .kMissingHost,
      .kContentLengthMismatch, .kSuccess] := by
  cases hrun : (c.callbackRun buffer ctx).1 with
  | some failed => simp [parse_of_failed hrun]
  | none =>
      by_cases herrno : (L.execute c.parser buffer).errno = .hpeOk ∨
          (L.execute c.parser buffer).errno = .hpePausedUpgrade
      · rw [(parse_of_ok hrun herrno).1]
        exact List.mem_append_right [.kInvalidRequestLine, .kInternalError] (checkRequest_mem _ _)
      · rw [not_or] at herrno
        rcases parse_of_errno hrun herrno.1 herrno.2 with he | he <;> simp [he]

/-- A request that is accepted was received without an error. -/
lemma of_parse_success (h : (c.parse buffer ctx).1 = .kSuccess) :
    (c.callbackRun buffer ctx).1 = none ∧
      ((L.execute c.parser buffer).errno = .hpeOk ∨
        (L.execute c.parser buffer).errno = .hpePausedUpgrade) := by
  cases hrun : (c.callbackRun buffer ctx).1 with
  | some failed =>
      rw [parse_of_failed hrun] at h
      exact absurd h (by decide)
  | none =>
      refine ⟨rfl, ?_⟩
      by_contra herrno
      rw [not_or] at herrno
      rcases parse_of_errno hrun herrno.1 herrno.2 with he | he <;>
        exact absurd (he.symm.trans h) (by decide)

end Http1Codec

end Netp2.Protocol
