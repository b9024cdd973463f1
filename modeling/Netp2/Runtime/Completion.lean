import Netp2.Library.Agenda
import Netp2.Runtime.Affinity

/-!
# How a connection ends

`handle_connection` waits for its first turn, for the read, for one or two turns more, and for the
write, and then it is over: a connection is not kept alive.  What it is woken for, and when, is not
up to the worker.

`connection_ends` says that a connection moves at most five times, that it has ended once it was
woken for all that it waits for, in this order and with anything in between, and that it ends
without a response exactly if an executor check, the read or the write fails in its time.
-/

namespace Netp2.Runtime

open StepRun Netp2.Observability Netp2.Protocol

/-- What a connection can wait for. -/
inductive WakeupKind where
  | start
  | read
  | resume
  | write
  deriving DecidableEq, Repr

def Wakeup.kind : Wakeup → WakeupKind
  | .start _ _ => .start
  | .read _ => .read
  | .resume _ => .resume
  | .write _ => .write

/-- What a connection waits for until it ends, with the upstream and without a failure. -/
def Phase.awaits : Phase → List WakeupKind
  | .spawned => [.start, .read, .resume, .resume, .write]
  | .reading => [.read, .resume, .resume, .write]
  | .upstream _ _ => [.resume, .resume, .write]
  | .posted _ _ => [.resume, .write]
  | .writing _ _ => [.write]
  | .written _ _ => []
  | .left _ => []

/-- The wakeup is in its time, and then the check, the read or the write fails. -/
def Phase.fails (checks : Bool) : Phase → Wakeup → Bool
  | .reading, .read arrivals => (asyncReadSome arrivals).1 = some .other
  | .writing _ _, .write succeeds => !succeeds
  | phase, wakeup => checks && phase.failsCheck wakeup

/-! ## One piece -/

section Piece

variable (L : Llhttp) (w : Worker) (phase : Phase) (wakeup : Wakeup)

/-- A piece goes on to what comes later, or ends the connection. -/
lemma awaits_advance : (advance L w phase wakeup).2.1.awaits <:+ phase.awaits := by
  fun_cases advance L w phase wakeup
  case case5 arrivals readError requestView unread hsome hread w' built phase' =>
      simp only [phase']
      split_ifs
      · exact List.suffix_cons _ _
      · exact ⟨[.read, .resume], rfl⟩
  case case11 => exact List.suffix_rfl
  all_goals simp [Phase.awaits, List.suffix_cons_iff]

/-- Who is woken for what it waits for does not wait for this any more. -/
lemma awaits_advance_of_kind {kind : WakeupKind} {kinds : List WakeupKind}
    (hphase : phase.awaits = kind :: kinds) (hwakeup : wakeup.kind = kind) :
    (advance L w phase wakeup).2.1.awaits <:+ kinds := by
  subst hwakeup
  fun_cases advance L w phase wakeup
  case case5 arrivals readError requestView unread hsome hread w' built phase' =>
      obtain ⟨-, rfl⟩ := List.cons.inj hphase
      simp only [phase']
      split_ifs
      · exact List.suffix_rfl
      · exact List.suffix_cons _ _
  case case11 hspawned hreading hupstream hposted hwriting =>
      -- what does not fit is not of the kind
      exfalso
      cases phase <;> cases wakeup <;> simp_all [Phase.awaits, Wakeup.kind]
  all_goals
    obtain ⟨-, rfl⟩ := List.cons.inj hphase
    simp [Phase.awaits]

/-- Who leaves has failed. -/
lemma left_advance :
    (∃ view, (advance L w phase wakeup).2.1 = .left view) ↔
      (∃ view, phase = .left view) ∨
        phase.fails w.enableExecutorAffinityChecks wakeup = true := by
  fun_cases advance L w phase wakeup
  case case5 arrivals readError requestView unread hsome hread w' built phase' =>
      have hbuilt : ∀ view, phase' ≠ .left view := by
        intro view
        simp only [phase']
        split_ifs <;> simp
      simp [Phase.fails, hsome, hread, hbuilt]
  case case11 hspawned hreading hupstream hposted hwriting =>
      cases phase <;> cases wakeup <;> simp_all [Phase.fails, Phase.failsCheck]
  all_goals simp_all [Phase.fails, Phase.failsCheck]

end Piece

/-! ## One connection in a run -/

/-- What an action wakes connection `k` for, as far as the connection knows. -/
def SpineAction.kindFor (k : ℕ) (a : SpineAction) : Option WakeupKind :=
  (a.wakes k).map Wakeup.kind

namespace RuntimeSpine

variable {L : Llhttp} {s : RuntimeSpine} {k : ℕ} {phase : Phase}

def awaits (k : ℕ) (s : RuntimeSpine) : List WakeupKind :=
  (s.connections[k]?.map Phase.awaits).getD []

/-- The connection is woken in its time, and fails. -/
def Fails (k : ℕ) (s : RuntimeSpine) (a : SpineAction) : Prop :=
  ∃ phase wakeup, s.connections[k]? = some phase ∧ a = .handle k wakeup ∧
    phase.fails s.worker.enableExecutorAffinityChecks wakeup = true

/-- The connection has ended, and its response is written. -/
def HasWritten (s : RuntimeSpine) (k : ℕ) : Prop :=
  ∃ view built, s.connections[k]? = some (.written view built)

lemma awaits_of_getElem? (hk : s.connections[k]? = some phase) : awaits k s = phase.awaits := by
  rw [awaits, hk]
  rfl

lemma kept_step (hk : (s.connections[k]?).isSome) (a : SpineAction) :
    ((s.step L a).2.connections[k]?).isSome := by
  obtain ⟨phase, hphase⟩ := Option.isSome_iff_exists.mp hk
  rw [connection_step hphase]
  rfl

variable (L k) in
/-- **A connection works off what it waits for**, whatever happens to the others. -/
lemma worksOff : WorksOff (step L) (fun s => (s.connections[k]?).isSome) (awaits k)
    (SpineAction.kindFor k) where
  kept _ a hk := kept_step hk a
  shrinks s a hk := by
    obtain ⟨phase, hphase⟩ := Option.isSome_iff_exists.mp hk
    rw [awaits_of_getElem? hphase, awaits_of_getElem? (connection_step hphase a)]
    cases a.wakes k with
    | none => exact List.suffix_rfl
    | some wakeup => exact awaits_advance L s.worker phase wakeup
  first s a kind kinds hk hawaits hkind := by
    obtain ⟨phase, hphase⟩ := Option.isSome_iff_exists.mp hk
    obtain ⟨wakeup, hwakes, hwakeup⟩ := Option.map_eq_some_iff.mp hkind
    rw [awaits_of_getElem? hphase] at hawaits
    rw [awaits_of_getElem? (connection_step hphase a), hwakes]
    exact awaits_advance_of_kind L s.worker phase wakeup hawaits hwakeup

lemma ended_of_awaits_nil (hk : (s.connections[k]?).isSome) (h : awaits k s = []) :
    s.HasLeft k ∨ s.HasWritten k := by
  obtain ⟨phase, hphase⟩ := Option.isSome_iff_exists.mp hk
  rw [awaits_of_getElem? hphase] at h
  cases phase with
  | written view built => exact .inr ⟨view, built, hphase⟩
  | left view => exact .inl ⟨view, hphase⟩
  | _ => exact absurd h (by simp [Phase.awaits])

/-- **Who leaves has failed in this step**, or had left before. -/
lemma hasLeft_step_iff (hk : (s.connections[k]?).isSome) (a : SpineAction) :
    (s.step L a).2.HasLeft k ↔ s.HasLeft k ∨ Fails k s a := by
  obtain ⟨phase, hphase⟩ := Option.isSome_iff_exists.mp hk
  have hleft : s.HasLeft k ↔ ∃ view, phase = .left view := by
    simp only [HasLeft, hphase, Option.some.injEq]
  have hnext : (s.step L a).2.HasLeft k ↔
      ∃ view, next L s.worker phase (a.wakes k) = .left view := by
    simp only [HasLeft, connection_step hphase, Option.some.injEq]
  rw [hleft, hnext]
  cases hwakes : a.wakes k with
  | none =>
      have hidle : ¬Fails k s a := by
        rintro ⟨_, wakeup, -, rfl, -⟩
        exact absurd hwakes (by simp)
      simp only [next, hidle, or_false]
  | some wakeup =>
      obtain rfl := SpineAction.eq_of_wakes hwakes
      rw [next, left_advance]
      have hfails : Fails k s (.handle k wakeup) ↔
          phase.fails s.worker.enableExecutorAffinityChecks wakeup = true := by
        simp [Fails, hphase]
      rw [hfails]

end RuntimeSpine

/-! ## The end -/

open RuntimeSpine

/-- **Every connection ends.**  A connection waits somewhere, and the run goes on, whatever happens
to the worker and to the other connections:
* it moves at most once for each thing it waits for, five times in all;
* if it is woken for these things, in their order and with anything in between, it ends;
* it ends without a response exactly if it had done so before, or if an executor check, the read or
  the write fails when it is woken for it. -/
theorem connection_ends (L : Llhttp) (w : Worker) (before after : List SpineAction) (k : ℕ)
    (phase : Phase) (hk : (reached L w before).connections[k]? = some phase) :
    (trace (step L) (reached L w before) after).countP (moves (awaits k)) ≤ phase.awaits.length ∧
      phase.awaits.length ≤ 5 ∧
      (phase.awaits.Sublist (after.filterMap (SpineAction.kindFor k)) →
        (reached L w (before ++ after)).HasLeft k ∨
          (reached L w (before ++ after)).HasWritten k) ∧
      ((reached L w (before ++ after)).HasLeft k ↔ (reached L w before).HasLeft k ∨
        ∃ during a rest, after = during ++ a :: rest ∧
          Fails k (reached L w (before ++ during)) a) := by
  have hreached : ∀ as, reached L w (before ++ as) = final (step L) (reached L w before) as :=
    fun as => final_append _ before as
  have hsome : ((reached L w before).connections[k]?).isSome := by simp [hk]
  have hoff := worksOff L k
  simp only [hreached]
  rw [← awaits_of_getElem? hk]
  refine ⟨?_, ?_, ?_, ?_⟩
  · have hmoves := hoff.moves_le hsome after
    omega
  · rw [awaits_of_getElem? hk]
    cases phase <;> simp [Phase.awaits]
  · intro hwakeups
    obtain ⟨hfinal, hnone⟩ := hoff.done hsome hwakeups
    exact ended_of_awaits_nil hfinal hnone
  · exact lasting_iff (P := fun s => s.HasLeft k) hoff.kept (fun _ a hs => hasLeft_step_iff hs a)
      hsome after

/-- The first of two connections that take turns. -/
theorem connection_ends_two :
    (reached llhttpOnRoot defaultWorker twoConnections).HasLeft 0 ∨
      (reached llhttpOnRoot defaultWorker twoConnections).HasWritten 0 :=
  (connection_ends llhttpOnRoot defaultWorker (twoConnections.take 1) (twoConnections.drop 1) 0
    .spawned rfl).2.2.1 (by decide)

end Netp2.Runtime
