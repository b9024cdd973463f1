import Netp2.Protocol.HeaderLines

/-!
# Buffers that are cut short

`llhttp` works from left to right: of the beginning of a buffer it reports the beginning of what it
reports of the whole, only that the last span may be cut short.  `Llhttp.Incremental` states this,
and that the request line is known from the end of the head on.

`parse_of_head_received` is what it means for `parse`.  When the head of a message has been
received, and nothing says how long the body is, a buffer that is cut short is parsed like the
whole, but for the body.
-/

namespace Netp2.Protocol

open ByteString LastWrite StepRun

/-! ## The contract of the parser -/

/-- The same callback with a span that is cut short. -/
def Callback.PartOf : Callback → Callback → Prop
  | .url x, .url y => x <+: y
  | .headerField x, .headerField y => x <+: y
  | .headerValue x, .headerValue y => x <+: y
  | .body x, .body y => x <+: y
  | _, _ => False

/-- `cs` is what `ds` becomes when the buffer is cut short. -/
def CutOf (cs ds : List Callback) : Prop :=
  cs <+: ds ∨ ∃ a d d' b, ds = a ++ d :: b ∧ cs = a ++ [d'] ∧ Callback.PartOf d' d

/-- The error codes with which `parse` goes on. -/
def Errno.Accepted (e : Errno) : Prop :=
  e = .hpeOk ∨ e = .hpePausedUpgrade

def Llhttp.requestLine (L : Llhttp) (p : L.State) : ℕ × ℕ × ByteString :=
  (L.httpMajor p, L.httpMinor p, L.methodName p)

/-- **A left-to-right parser.** -/
structure Llhttp.Incremental (L : Llhttp) : Prop where
  callbacks : ∀ p b b', CutOf (L.execute p b).callbacks (L.execute p (b ++ b')).callbacks
  errno : ∀ p b b', (L.execute p (b ++ b')).errno.Accepted → (L.execute p b).errno.Accepted
  requestLine : ∀ p b b', .headersComplete ∈ (L.execute p b).callbacks →
    (L.execute p (b ++ b')).callbacks.count .messageBegin ≤ 1 →
      L.requestLine (L.execute p b).state = L.requestLine (L.execute p (b ++ b')).state

lemma takeWhile_prefix_of_imp {α : Type} {p q : α → Bool} (h : ∀ x, p x = true → q x = true) :
    ∀ l : List α, l.takeWhile p <+: l.takeWhile q
  | [] => List.prefix_rfl
  | x :: l => by
      rw [List.takeWhile_cons, List.takeWhile_cons]
      split_ifs with hp hq
      · exact (List.prefix_cons_inj x).mpr (takeWhile_prefix_of_imp h l)
      · exact absurd (h x hp) hq
      · exact List.nil_prefix
      · exact List.nil_prefix

lemma incremental_replay (method : ByteString) (script : List (ℕ × List Callback)) :
    (Llhttp.replay method script).Incremental where
  callbacks _ b b' := by
    have hle : ∀ e : ℕ × List Callback, decide (e.1 ≤ b.length) = true →
        decide (e.1 ≤ (b ++ b').length) = true := by
      intro e he
      rw [decide_eq_true_iff] at he ⊢
      exact he.trans (by simp)
    obtain ⟨rest, hrest⟩ := takeWhile_prefix_of_imp hle script
    refine Or.inl ⟨rest.flatMap Prod.snd, ?_⟩
    simp only [Llhttp.replay, ← List.flatMap_append, hrest]
  errno _ _ _ _ := Or.inl rfl
  requestLine _ _ _ _ _ := rfl

/-! ## What is reported after the head -/

/-- The callbacks of a body and of the end of a message. -/
def bodyCallbacks (bodies : List ByteString) : List Callback :=
  bodies.map .body ++ [.messageComplete]

/-- A callback that belongs neither to a head nor to a trailer. -/
def Callback.IsTail : Callback → Prop
  | .body _ => True
  | .messageComplete => True
  | _ => False

lemma isTail_of_mem_bodyCallbacks (bodies : List ByteString) :
    ∀ d ∈ bodyCallbacks bodies, d.IsTail := by
  intro d hd
  rcases List.mem_append.mp hd with h | h
  · obtain ⟨span, -, rfl⟩ := List.mem_map.mp h
    trivial
  · rw [List.mem_singleton.mp h]
    trivial

lemma Callback.PartOf.isTail : ∀ {d' d : Callback}, d'.PartOf d → d.IsTail → d'.IsTail
  | .body _, .body _, _, _ => trivial

lemma CutOf.isTail {cs ds : List Callback} (h : CutOf cs ds) (hds : ∀ d ∈ ds, d.IsTail) :
    ∀ d ∈ cs, d.IsTail := by
  rcases h with h | ⟨a, d, d', b, rfl, rfl, hpart⟩
  · exact fun d hd => hds d (h.subset hd)
  · intro x hx
    rcases List.mem_append.mp hx with hx | hx
    · exact hds x (List.mem_append_left _ hx)
    · rw [List.mem_singleton.mp hx]
      exact hpart.isTail (hds d (by simp))

lemma headCallbacks_eq (urls : List ByteString) (ls : List HeaderLine) :
    ∃ front, headCallbacks urls ls = front ++ [.headersComplete] ∧ .headersComplete ∉ front := by
  refine ⟨.messageBegin :: urls.map .url ++ ls.flatMap HeaderLine.callbacks, ?_, ?_⟩
  · simp [headCallbacks, linesCallbacks]
  · simp [HeaderLine.callbacks]

lemma prefix_of_headersComplete_mem {urls : List ByteString} {ls : List HeaderLine}
    {cs tail : List Callback} (h : cs <+: headCallbacks urls ls ++ tail)
    (hmem : .headersComplete ∈ cs) :
    ∃ post, cs = headCallbacks urls ls ++ post ∧ post <+: tail := by
  obtain ⟨rest, hrest⟩ := h
  rcases List.append_eq_append_iff.mp hrest with ⟨as, hhead, -⟩ | ⟨post, hcs, htail⟩
  · -- the head ends with the only `headersComplete` it has, so nothing of it is missing
    obtain ⟨front, hfront, hno⟩ := headCallbacks_eq urls ls
    rcases List.eq_nil_or_concat as with rfl | ⟨as', d, rfl⟩
    · exact ⟨[], by simpa using hhead.symm, List.nil_prefix⟩
    · rw [hfront, List.concat_eq_append, ← List.append_assoc] at hhead
      have hsame := (List.append_inj' hhead rfl).1
      exact absurd (hsame ▸ List.mem_append_left as' hmem) hno
  · exact ⟨post, hcs, ⟨rest, htail.symm⟩⟩

/-- A cut after the end of the head leaves the head. -/
lemma CutOf.of_headersComplete_mem {urls : List ByteString} {ls : List HeaderLine}
    {cs tail : List Callback} (h : CutOf cs (headCallbacks urls ls ++ tail))
    (hmem : .headersComplete ∈ cs) :
    ∃ post, cs = headCallbacks urls ls ++ post ∧ CutOf post tail := by
  rcases h with h | ⟨a, d, d', b, hds, rfl, hpart⟩
  · obtain ⟨post, hcs, hpost⟩ := prefix_of_headersComplete_mem h hmem
    exact ⟨post, hcs, Or.inl hpost⟩
  · have hd' : d' ≠ .headersComplete := by
      rintro rfl
      exact hpart
    have hmem' : .headersComplete ∈ a := by simpa [hd'.symm] using hmem
    obtain ⟨post, rfl, -⟩ := prefix_of_headersComplete_mem ⟨d :: b, hds.symm⟩ hmem'
    rw [List.append_assoc, List.append_cancel_left_eq] at hds
    exact ⟨post ++ [d'], List.append_assoc .., Or.inr ⟨post, d, d', b, hds, rfl, hpart⟩⟩

/-! ## Parsing it -/

lemma call_tail (s : Impl) : ∀ {c : Callback}, c.IsTail → (s.call c).1 = 0
  | .body _, _ => rfl
  | .messageComplete, _ => rfl

lemma collect_tail (p : Pending) : ∀ {c : Callback}, c.IsTail → collect p c = (none, p)
  | .body _, _ => rfl
  | .messageComplete, _ => rfl

/-- A body and the end of a message do not fail. -/
lemma runCallbacks_tail : ∀ {s : Impl} {post : List Callback}, (∀ d ∈ post, d.IsTail) →
    (s.runCallbacks post).1 = none
  | _, [], _ => rfl
  | s, c :: cs, h => by
      rw [Impl.runCallbacks, if_pos (call_tail s (h c List.mem_cons_self))]
      exact runCallbacks_tail fun d hd => h d (List.mem_cons_of_mem c hd)

lemma savedHeaders_tail (p : Pending) : ∀ {post : List Callback}, (∀ d ∈ post, d.IsTail) →
    savedHeaders p post = []
  | [], _ => rfl
  | c :: cs, h => by
      rw [savedHeaders, outputs, collect_tail p (h c List.mem_cons_self),
        List.filterMap_cons_none rfl]
      exact savedHeaders_tail p fun d hd => h d (List.mem_cons_of_mem c hd)

lemma final_tail (p : Pending) : ∀ {post : List Callback}, (∀ d ∈ post, d.IsTail) →
    final collect p post = p
  | [], _ => rfl
  | c :: cs, h => by
      rw [final, collect_tail p (h c List.mem_cons_self)]
      exact final_tail p fun d hd => h d (List.mem_cons_of_mem c hd)

lemma headerBytes_tail {post : List Callback} (h : ∀ d ∈ post, d.IsTail) :
    (post.map Impl.headerBytes).sum = 0 := by
  refine List.sum_eq_zero ?_
  intro n hn
  obtain ⟨d, hd, rfl⟩ := List.mem_map.mp hn
  have htail := h d hd
  cases d with
  | headerField span => exact htail.elim
  | headerValue span => exact htail.elim
  | _ => rfl

lemma urlBytes_tail {post : List Callback} (h : ∀ d ∈ post, d.IsTail) : urlBytes post = [] := by
  refine List.flatMap_eq_nil_iff.mpr ?_
  intro d hd
  have htail := h d hd
  cases d with
  | url span => exact htail.elim
  | _ => rfl

lemma urlBytes_head (urls : List ByteString) (ls : List HeaderLine) :
    urlBytes (headCallbacks urls ls) = urls.flatten := by
  simp [urlBytes, headCallbacks, linesCallbacks, HeaderLine.callbacks, List.flatMap_map,
    List.flatMap_assoc, List.flatMap_id']

lemma runCallbacks_head_tail {s : Impl} {head post : List Callback}
    (htail : ∀ d ∈ post, d.IsTail) :
    (s.runCallbacks (head ++ post)).1 = (s.runCallbacks head).1 := by
  cases hrun : (s.runCallbacks head).1 with
  | none => rw [Impl.runCallbacks_append_of_none _ hrun, runCallbacks_tail htail]
  | some failed => rw [Impl.runCallbacks_append_of_some _ hrun, hrun]

/-- The request of a head, with whatever body came after it. -/
lemma contextAfter_head_tail {s : Impl} {ctx : RequestContext} {head post : List Callback}
    (htail : ∀ d ∈ post, d.IsTail) (hrun : ((s.beginParse ctx).runCallbacks head).1 = none) :
    s.contextAfter ctx (head ++ post)
      = { ctx.cleared.storeAll (savedHeaders ([], []) head) with
          target := urlBytes head
          body := (lastSome bodySpan (head ++ post)).getD [] } := by
  have hurl : urlBytes (head ++ post) = urlBytes head := by
    have happend : urlBytes (head ++ post) = urlBytes head ++ urlBytes post := List.flatMap_append
    rw [happend, urlBytes_tail htail, List.append_nil]
  rw [Impl.contextAfter_eq (Impl.madeCallbacks_of_none ((runCallbacks_head_tail htail).trans hrun)),
    savedHeaders_append, savedHeaders_tail _ htail, List.append_nil, hurl]

lemma count_messageBegin_head (urls : List ByteString) (ls : List HeaderLine)
    (bodies : List ByteString) :
    (headCallbacks urls ls ++ bodyCallbacks bodies).count .messageBegin = 1 := by
  have hrest :
      .messageBegin ∉ urls.map Callback.url ++ linesCallbacks ls ++ bodyCallbacks bodies := by
    simp [linesCallbacks, HeaderLine.callbacks, bodyCallbacks]
  have hcut : headCallbacks urls ls ++ bodyCallbacks bodies
      = .messageBegin :: (urls.map Callback.url ++ linesCallbacks ls ++ bodyCallbacks bodies) := rfl
  rw [hcut, List.count_cons_self, List.count_eq_zero_of_not_mem hrest]

lemma no_bodySpan_of_cutOf {cs : List Callback} (h : CutOf cs (bodyCallbacks [])) :
    lastSome bodySpan cs = none := by
  have hmem : ∀ d ∈ cs, bodySpan d = none := by
    intro d hd
    rcases h with h | ⟨a, x, x', b, hds, rfl, hpart⟩
    · rw [List.mem_singleton.mp (h.subset hd)]
      rfl
    · -- the end of a message has no span that could be cut
      have hx : x ∈ bodyCallbacks [] := hds ▸ List.mem_append_right a List.mem_cons_self
      rw [List.mem_singleton.mp hx] at hpart
      cases x' <;> exact False.elim hpart
  cases hlast : lastSome bodySpan cs with
  | none => rfl
  | some span =>
      obtain ⟨d, hd, hspan⟩ := exists_of_lastSome hlast
      exact absurd ((hmem d hd).symm.trans hspan) (by simp)

/-- **A request cut after its head.**  If nothing says how long the body is, or there is none, the
part that has the head gives the same result as the whole, with the same method, target and host. -/
theorem parse_of_head_received {L : Llhttp} (hL : L.Incremental) (c : Http1Codec L)
    (ctx : RequestContext) {b b' : ByteString} {urls : List ByteString} {ls : List HeaderLine}
    {bodies : List ByteString}
    (hwhole : (L.execute c.parser (b ++ b')).callbacks
      = headCallbacks urls ls ++ bodyCallbacks bodies)
    (haccepted : (L.execute c.parser (b ++ b')).errno.Accepted)
    (hhead : .headersComplete ∈ (L.execute c.parser b).callbacks)
    (hframe : lastSome RequestContext.lengthOf (savedHeaders ([], []) (headCallbacks urls ls)) = none
      ∨ bodies = []) :
    (c.parse b ctx).1 = (c.parse (b ++ b') ctx).1 ∧
      ((c.parse (b ++ b') ctx).1 = .kSuccess →
        (c.parse b ctx).2.1.method = (c.parse (b ++ b') ctx).2.1.method ∧
        (c.parse b ctx).2.1.target = urls.flatten ∧
        (c.parse (b ++ b') ctx).2.1.target = urls.flatten ∧
        (c.parse b ctx).2.1.host = (c.parse (b ++ b') ctx).2.1.host) := by
  have hcut := hL.callbacks c.parser b b'
  rw [hwhole] at hcut
  obtain ⟨post, hpart, hpost⟩ := hcut.of_headersComplete_mem hhead
  have htail := hpost.isTail (isTail_of_mem_bodyCallbacks bodies)
  have hline := hL.requestLine c.parser b b' hhead
    (hwhole ▸ (count_messageBegin_head urls ls bodies).le)
  have hrunPart : (c.callbackRun b ctx).1
      = ((c.impl.beginParse ctx).runCallbacks (headCallbacks urls ls)).1 := by
    rw [Http1Codec.callbackRun, hpart, runCallbacks_head_tail htail]
  have hrunWhole : (c.callbackRun (b ++ b') ctx).1
      = ((c.impl.beginParse ctx).runCallbacks (headCallbacks urls ls)).1 := by
    rw [Http1Codec.callbackRun, hwhole, runCallbacks_head_tail (isTail_of_mem_bodyCallbacks bodies)]
  cases hrun : ((c.impl.beginParse ctx).runCallbacks (headCallbacks urls ls)).1 with
  | some failed =>
      have hp := Http1Codec.parse_of_failed (hrunPart.trans hrun)
      have hw := Http1Codec.parse_of_failed (hrunWhole.trans hrun)
      exact ⟨hp.trans hw.symm, fun h => absurd (hw.symm.trans h) (by decide)⟩
  | none =>
      obtain ⟨hp, hpctx⟩ := Http1Codec.parse_of_ok (hrunPart.trans hrun)
        (hL.errno c.parser b b' haccepted)
      obtain ⟨hw, hwctx⟩ := Http1Codec.parse_of_ok (hrunWhole.trans hrun) haccepted
      have hpartCtx := contextAfter_head_tail htail hrun
      have hwholeCtx := contextAfter_head_tail (isTail_of_mem_bodyCallbacks bodies) hrun
      simp only [Llhttp.requestLine, Prod.mk.injEq] at hline
      obtain ⟨hmajor, hminor, hmethod⟩ := hline
      rw [hp, hw, hpctx, hwctx]
      simp only [Http1Codec.received, Http1Codec.fillRequestLine, Http1Codec.checkRequest,
        Http1Codec.executed, Http1Codec.callbackRun, Impl.runCallbacks_config, hpart, hwhole,
        hpartCtx, hwholeCtx, hmajor, hminor, hmethod, urlBytes_head, and_self, and_true,
        implies_true]
      rcases hframe with hnone | rfl
      · have hlength := RequestContext.storeAll_length ctx.cleared
          (savedHeaders ([], []) (headCallbacks urls ls))
        rw [hnone] at hlength
        have hno := (Prod.ext_iff.mp hlength).2
        simp only [RequestContext.length, RequestContext.cleared, Option.map_none,
          Option.getD_none] at hno
        simp [hno, RequestContext.cleared]
      · rw [lastSome_append, lastSome_append, no_bodySpan_of_cutOf hpost,
          no_bodySpan_of_cutOf (Or.inl List.prefix_rfl)]

end Netp2.Protocol
