import Netp2.Protocol.HeaderLines

/-!
# What comes after the head of a request

A buffer may go on after the head of its first message: with trailer lines, and with further
messages.  All of it goes into the same context.  `on_message_begin` does nothing, so a later
message appends to the target and overwrites headers, and a trailer line overwrites headers as soon
as the next line begins.

`head_fields_final_iff` says exactly when this does no harm: when what follows carries no target
bytes and every header saved of it repeats what the head said.
-/

namespace Netp2.Protocol

open ByteString LastWrite StepRun

/-- The fields of a context that routing and framing use. -/
def SameHead (a b : RequestContext) : Prop :=
  a.target = b.target ∧ a.host = b.host ∧ a.headers = b.headers ∧
    a.contentLength = b.contentLength ∧ a.hasContentLength = b.hasContentLength

/-- What follows a head leaves it alone: no target bytes, and every header saved of it has the
value that the head last gave to that name, every valid length the one that the head recorded. -/
structure Repeats (head post : List Callback) : Prop where
  url : urlBytes post = []
  value : ∀ k v, lastValue k (savedHeaders ([], []) post) = some v →
    lastValue k (savedHeaders ([], []) head) = some v
  length : ∀ n, lastSome RequestContext.lengthOf (savedHeaders ([], []) post) = some n →
    lastSome RequestContext.lengthOf (savedHeaders ([], []) head) = some n

lemma or_eq_right_iff {α : Type} (a b : Option α) : a.or b = b ↔ ∀ v, a = some v → b = some v := by
  cases a with
  | none => simp
  | some v => simp [eq_comm]

lemma lengthFields_injective :
    Function.Injective fun o : Option ℕ => (o.map (·, true)).getD (0, false) := by
  rintro (_ | m) (_ | n) h <;> simp_all

/-- Storing more headers changes nothing exactly when they are repeated. -/
lemma storeAll_sameHead_iff (ctx : RequestContext) (hs hs' : List Header) :
    ((ctx.cleared.storeAll (hs ++ hs')).host = (ctx.cleared.storeAll hs).host ∧
      (ctx.cleared.storeAll (hs ++ hs')).headers = (ctx.cleared.storeAll hs).headers ∧
      (ctx.cleared.storeAll (hs ++ hs')).length = (ctx.cleared.storeAll hs).length) ↔
    (∀ k v, lastValue k hs' = some v → lastValue k hs = some v) ∧
      (∀ n, lastSome RequestContext.lengthOf hs' = some n →
        lastSome RequestContext.lengthOf hs = some n) := by
  have hheaders : (ctx.cleared.storeAll (hs ++ hs')).headers = (ctx.cleared.storeAll hs).headers ↔
      ∀ k v, lastValue k hs' = some v → lastValue k hs = some v := by
    have hlookup : ∀ k l, (ctx.cleared.storeAll l).headers.lookup k = lastValue k l := by
      intro k l
      rw [RequestContext.storeAll_headers]
      exact Option.or_none
    constructor
    · intro h k
      rw [← or_eq_right_iff, ← lastValue_append, ← hlookup, ← hlookup, h]
    · intro h
      refine Finmap.ext_lookup ?_
      intro k
      rw [hlookup, hlookup, lastValue_append]
      exact (or_eq_right_iff _ _).mpr (h k)
  have hlength : (ctx.cleared.storeAll (hs ++ hs')).length = (ctx.cleared.storeAll hs).length ↔
      ∀ n, lastSome RequestContext.lengthOf hs' = some n →
        lastSome RequestContext.lengthOf hs = some n := by
    have hcleared : ctx.cleared.length = (0, false) := rfl
    rw [RequestContext.storeAll_length, RequestContext.storeAll_length, lastSome_append,
      ← or_eq_right_iff, hcleared]
    exact lengthFields_injective.eq_iff
  rw [hheaders, hlength]
  constructor
  · exact fun h => h.2
  · intro h
    refine ⟨?_, h⟩
    -- the host follows the headers
    rw [RequestContext.storeAll_host, RequestContext.storeAll_host, lastValue_append,
      (or_eq_right_iff _ _).mpr (h.1 (ascii "host"))]

/-- **The head is final exactly if it is repeated.**  In a parse that succeeds, the target, the
host, the headers and the content length are those of the head of the first message if and only if
what follows it in the buffer leaves them alone. -/
theorem head_fields_final_iff {L : Llhttp} (c : Http1Codec L) (buffer : ByteString)
    (ctx : RequestContext) (urls : List ByteString) (ls : List HeaderLine) (post : List Callback)
    (hcalls : (L.execute c.parser buffer).callbacks = headCallbacks urls ls ++ post)
    (hsuccess : (c.parse buffer ctx).1 = .kSuccess) :
    SameHead (c.parse buffer ctx).2.1 (c.impl.contextAfter ctx (headCallbacks urls ls)) ↔
      Repeats (headCallbacks urls ls) post := by
  obtain ⟨hrun, herrno⟩ := Http1Codec.of_parse_success hsuccess
  rw [(Http1Codec.parse_of_ok hrun herrno).2, Http1Codec.received, hcalls]
  rw [Http1Codec.callbackRun, hcalls] at hrun
  have hwhole := Impl.contextAfter_eq (Impl.madeCallbacks_of_none hrun)
  have hhead := Impl.contextAfter_eq
    (Impl.madeCallbacks_of_none (Impl.runCallbacks_none_of_append hrun))
  rw [savedHeaders_append, (savedHeaders_head urls ls).2] at hwhole
  have hiff := storeAll_sameHead_iff ctx (savedHeaders ([], []) (headCallbacks urls ls))
    (savedHeaders ([], []) post)
  have hurl : urlBytes (headCallbacks urls ls ++ post) = urlBytes (headCallbacks urls ls) ↔
      urlBytes post = [] := by
    rw [urlBytes, List.flatMap_append]
    exact List.append_right_eq_self
  rw [hwhole, hhead]
  constructor
  · rintro ⟨ht, hhost, hheaders, hlength, hhas⟩
    obtain ⟨hvalue, hlast⟩ := hiff.mp ⟨hhost, hheaders, Prod.ext hlength hhas⟩
    exact ⟨hurl.mp ht, hvalue, hlast⟩
  · rintro ⟨hu, hvalue, hlast⟩
    obtain ⟨hhost, hheaders, hlength⟩ := hiff.mpr ⟨hvalue, hlast⟩
    exact ⟨hurl.mpr hu, hhost, hheaders, (Prod.ext_iff.mp hlength).1, (Prod.ext_iff.mp hlength).2⟩

def headOfA : List Callback :=
  headCallbacks [ascii "/a"] [hostLine (ascii "a")]

def requestA : ByteString :=
  ascii "GET /a HTTP/1.1\r\nHost: a\r\n\r\n"

def requestB : ByteString :=
  ascii "GET /b HTTP/1.1\r\nHost: b\r\n\r\n"

/-- `llhttp` on the first request with the second one behind it. -/
def llhttpOnAB : Llhttp :=
  .replay (ascii "GET") [(28, headOfA ++ [.messageComplete]),
    (56, [.messageBegin, .url (ascii "/b"), .headerField (ascii "Host"), .headerValue (ascii "b"),
      .headersComplete, .messageComplete])]

def versionLine : HeaderLine :=
  ⟨[ascii "V"], [ascii "1"], by decide⟩

def repeatedHead : List HeaderLine :=
  [hostLine (ascii "a"), versionLine, chunkedLine]

/-- The only chunk, and a trailer that repeats a line of the head, twice. -/
def repeatedTail : List Callback :=
  .body (ascii "abc") :: versionLine.callbacks ++ versionLine.callbacks ++ [.messageComplete]

def requestWithTrailers : ByteString :=
  ascii "POST /a HTTP/1.1\r\nHost: a\r\nV: 1\r\nTransfer-Encoding: chunked\r\n\r\n"
    ++ ascii "3\r\nabc\r\n0\r\nV: 1\r\nV: 1\r\n\r\n"

def llhttpOnRepeated : Llhttp :=
  .replay (ascii "POST")
    [(63, headCallbacks [ascii "/a"] repeatedHead), (88, repeatedTail)]

theorem head_fields_final_repeated :
    SameHead ((Http1Codec.new {} : Http1Codec llhttpOnRepeated).parse requestWithTrailers {}).2.1
      (Impl.contextAfter { config := {} } {} (headCallbacks [ascii "/a"] repeatedHead)) := by
  refine (head_fields_final_iff (Http1Codec.new {} : Http1Codec llhttpOnRepeated)
    requestWithTrailers {} [ascii "/a"] repeatedHead repeatedTail (by decide +kernel)
    (by decide +kernel)).mpr ⟨by decide, ?_, ?_⟩
  · intro k v h
    have hkeys : (savedHeaders ([], []) repeatedTail).map Prod.fst = [ascii "v"] := by
      decide +kernel
    have hvalue : lastValue (ascii "v") (savedHeaders ([], []) repeatedTail)
        = some (ascii "1") := by
      decide +kernel
    have hk := mem_keys_of_lastValue h
    rw [hkeys, List.mem_singleton] at hk
    rw [hk] at h ⊢
    rw [← h, hvalue]
    decide +kernel
  · intro n h
    have hnone : lastSome RequestContext.lengthOf (savedHeaders ([], []) repeatedTail) = none := by
      decide +kernel
    rw [hnone] at h
    exact absurd h (by simp)

/-- A second request in the buffer: the parse succeeds with the target `/a/b`. -/
theorem second_request_mixed_in :
    ((Http1Codec.new {} : Http1Codec llhttpOnAB).parse (requestA ++ requestB) {}).1 = .kSuccess ∧
      ¬SameHead ((Http1Codec.new {} : Http1Codec llhttpOnAB).parse (requestA ++ requestB) {}).2.1
        (Impl.contextAfter { config := {} } {} headOfA) := by
  refine ⟨by decide +kernel, ?_⟩
  intro h
  have htarget := h.1
  revert htarget
  decide +kernel

end Netp2.Protocol
