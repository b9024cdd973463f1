import Mathlib.Data.Finmap
import Netp2.Library.ByteString

/-!
# The request context

What the protocol layer hands to the rest of the gateway: the parsed request, and the error codes
with their HTTP status and text.
-/

namespace Netp2.Protocol

open ByteString

/-- `headers` is the source's `unordered_map`; `body` is a copy of the viewed bytes. -/
structure RequestContext where
  method : ByteString := []
  target : ByteString := []
  version : ByteString := []
  host : ByteString := []
  headers : Finmap fun _ : ByteString => ByteString := ∅
  body : ByteString := []
  clientEndpoint : ByteString := []
  traceParent : ByteString := []
  contentLength : ℕ := 0
  hasContentLength : Bool := false
  deriving DecidableEq

inductive ParseError where
  | kSuccess
  | kNeedMoreData
  | kInvalidRequestLine
  | kMissingHost
  | kHeaderTooLarge
  | kTooManyHeaders
  | kContentLengthMismatch
  | kInternalError
  deriving DecidableEq, Repr

def parseErrorToHttpStatus : ParseError → ℕ
  | .kSuccess => 200
  | .kNeedMoreData => 400
  | .kInvalidRequestLine => 400
  | .kMissingHost => 400
  | .kHeaderTooLarge => 431
  | .kTooManyHeaders => 431
  | .kContentLengthMismatch => 400
  | .kInternalError => 500

def parseErrorToString : ParseError → ByteString
  | .kSuccess => ascii "success"
  | .kNeedMoreData => ascii "need more data"
  | .kInvalidRequestLine => ascii "invalid request line"
  | .kMissingHost => ascii "missing host header"
  | .kHeaderTooLarge => ascii "header too large"
  | .kTooManyHeaders => ascii "too many headers"
  | .kContentLengthMismatch => ascii "content-length mismatch"
  | .kInternalError => ascii "internal error"

/-- The context at the start of a parse: everything a parse fills is cleared. -/
def RequestContext.cleared (ctx : RequestContext) : RequestContext :=
  { ctx with
    method := []
    target := []
    version := []
    host := []
    headers := ∅
    body := []
    contentLength := 0
    hasContentLength := false }

/-! ## Numbers in headers -/

/-- `isspace` of the C locale. -/
def isSpace (b : UInt8) : Bool :=
  b = 32 || (9 ≤ b && b ≤ 13)

/-- `std::stoull` in base ten, with `none` for an exception.  Leading white space and a sign are
accepted, what follows the digits is ignored, and a minus sign negates modulo `2 ^ 64`. -/
def stoull (s : ByteString) : Option ℕ :=
  let s := s.dropWhile isSpace
  let negative := s.head? = some 45
  let s := if s.head? = some 45 ∨ s.head? = some 43 then s.tail else s
  let digits := s.takeWhile fun b => decide (IsDigit b)
  if digits = [] then none
  else if 2 ^ 64 ≤ decimalValue digits then none
  else if negative then some ((2 ^ 64 - decimalValue digits) % 2 ^ 64)
  else some (decimalValue digits)

example : stoull (ascii " 13, 14") = some 13 ∧ stoull (ascii "-1") = some (2 ^ 64 - 1) ∧
    stoull (ascii "x1") = none ∧ stoull (ascii "18446744073709551616") = none := by
  decide +kernel

/-! ## Saving a header -/

/-- The effect of `save_current_header` on the context, for a name that is in lower case. -/
def RequestContext.storeHeader (ctx : RequestContext) (fieldLower value : ByteString) :
    RequestContext :=
  let ctx := if fieldLower = ascii "host" then { ctx with host := value } else ctx
  let ctx :=
    if fieldLower = ascii "content-length" then
      match stoull value with
      | some n => { ctx with contentLength := n, hasContentLength := true }
      | none => ctx
    else ctx
  { ctx with headers := ctx.headers.insert fieldLower value }

end Netp2.Protocol
