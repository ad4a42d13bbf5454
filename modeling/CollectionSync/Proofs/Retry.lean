import CollectionSync.Proofs.Backoff
import CollectionSync.Proofs.Program
import CollectionSync.Retry.Timed

/-! # Which calls a retried call comes to

A call that is retried is followed through surroundings in which calls take time, waits may run
longer than they are asked to, and an interrupt may come at any moment. `Attempted` says which calls
are made, and when; how many there are, what they are waited for and what an interrupt still lets
through follows from it. -/

namespace CollectionSync.Retrying

variable {α : Type}

/-! ## Surroundings -/

/-- How the surroundings of a call that is retried behave. All times are in nanoseconds. -/
structure Scene (α : Type) where
  /-- What call number `n`, counted from zero, brings. -/
  results : Nat → Except RemoteError α
  /-- How long call number `n` takes. -/
  takes : Nat → Nat
  /-- How much longer than asked the wait after call number `n` runs. -/
  late : Nat → Span → Nat
  interrupt : Option Nat
  /-- Whether the interrupt still cuts the wait after call number `n` short where it comes when the
  wait has run as long as asked, and is about to end. -/
  cuts : Nat → Bool

structure Call where
  started : Nat
  ended : Nat
  deriving DecidableEq

/-- The calls made so far, and the time now. -/
structure Timeline where
  now : Nat
  calls : List Call
  deriving DecidableEq

def Timeline.start : Timeline := ⟨0, []⟩

namespace Scene

/-- Call number `n`, started at `now`. -/
def call (scene : Scene α) (n now : Nat) : Call := ⟨now, now + scene.takes n⟩

/-- Whether the wait after call number `n`, started at `now`, is interrupted, and when it ends. -/
def wait (scene : Scene α) (n now : Nat) (length : Span) : Bool × Nat :=
  let due := now + length.nanos
  let ends := due + scene.late n length
  match scene.interrupt with
  | none => (false, ends)
  | some t =>
    if max t now < due ∨ (t ≤ ends ∧ scene.cuts n = true) then (true, max t now) else (false, ends)

/-- The timeline after one more call. -/
def called (scene : Scene α) (s : Timeline) : Timeline :=
  ⟨(scene.call s.calls.length s.now).ended, s.calls ++ [scene.call s.calls.length s.now]⟩

def handle (scene : Scene α) : (q : RetryAsk) → Timeline → q.Answer α × Timeline
  | .call, s => (scene.results s.calls.length, scene.called s)
  | .pause length, s =>
    let (interrupted, now) := scene.wait (s.calls.length - 1) s.now length
    (interrupted, { s with now })

variable {scene : Scene α} {n now stop : Nat} {length : Span}

/-- A wait that is not interrupted has run as long as asked, and the interrupt came later, or just
when the wait was about to end. -/
theorem wait_elapsed (h : scene.wait n now length = (false, stop)) :
    now + length.nanos ≤ stop ∧ ∀ t, scene.interrupt = some t → 0 < length.nanos →
      stop < t ∨ now + length.nanos ≤ t ∧ t ≤ stop := by
  unfold wait at h
  cases ht : scene.interrupt with
  | none =>
    rw [ht] at h
    obtain rfl := (Prod.mk.inj h).2
    exact ⟨Nat.le_add_right _ _, nofun⟩
  | some t =>
    simp only [ht] at h
    split at h
    · cases h
    · next hkept =>
      obtain rfl := (Prod.mk.inj h).2
      refine ⟨Nat.le_add_right _ _, fun t' ht' hpos => ?_⟩
      obtain rfl := Option.some.inj ht'
      omega

/-- A wait is interrupted only by an interrupt, before it ends. -/
theorem wait_cut (h : (scene.wait n now length).1 = true) :
    ∃ t, scene.interrupt = some t ∧ t ≤ now + length.nanos + scene.late n length := by
  unfold wait at h
  cases ht : scene.interrupt with
  | none =>
    rw [ht] at h
    cases h
  | some t =>
    simp only [ht] at h
    split at h
    · exact ⟨t, rfl, by omega⟩
    · cases h

end Scene

/-! ## The calls of a run -/

/-- Whether the attempts are over with call number `n`, counted from zero. -/
def EndsWith (policy : RetryPolicy) (results : Nat → Except RemoteError α) (n : Nat) : Prop :=
  n = policy.maxRetries ∨ ∀ e, results n = .error e → e.isTransient = false

/-- From call number `n`, started at `now`, these calls are made, and this is the result. -/
inductive Attempted (policy : RetryPolicy) (scene : Scene α) :
    (n now : Nat) → List Call → Except RemoteError α → Prop
  | last {n now : Nat} (hends : EndsWith policy scene.results n) :
    Attempted policy scene n now [scene.call n now] (scene.results n)
  | abandoned {n now : Nat} {e : RemoteError} (hends : ¬ EndsWith policy scene.results n)
      (herror : scene.results n = .error e)
      (hwait : (scene.wait n (scene.call n now).ended (policy.delayFor n e)).1 = true) :
    Attempted policy scene n now [scene.call n now] (.error e)
  | again {n now next : Nat} {e : RemoteError} {calls : List Call} {result : Except RemoteError α}
      (hends : ¬ EndsWith policy scene.results n) (herror : scene.results n = .error e)
      (hwait : scene.wait n (scene.call n now).ended (policy.delayFor n e) = (false, next))
      (hrest : Attempted policy scene (n + 1) next calls result) :
    Attempted policy scene n now (scene.call n now :: calls) result

variable {policy : RetryPolicy} {scene : Scene α}

/-- The attempts with `left` retries still to go, from call number `n` on. -/
def attempting (α : Type) (policy : RetryPolicy) (left n : Nat) :
    Program RetryAsk (RetryAsk.Answer α) (Except RemoteError α) :=
  policy.attempts (fun length => .question (RetryAsk.pause length)) (.question RetryAsk.call) left n

variable {left : Nat} {s : Timeline} {e : RemoteError}

theorem run_call :
    (Program.question RetryAsk.call : Program RetryAsk (RetryAsk.Answer α) _).run scene.handle s
    = (scene.results s.calls.length, scene.called s) := rfl

theorem run_pause (length : Span) :
    (Program.question (RetryAsk.pause length) : Program RetryAsk (RetryAsk.Answer α) Bool).run
      scene.handle (scene.called s) =
    ((scene.wait s.calls.length (scene.called s).now length).1,
      ⟨(scene.wait s.calls.length (scene.called s).now length).2, (scene.called s).calls⟩) := by
  have hcount : (scene.called s).calls.length - 1 = s.calls.length := by simp [Scene.called]
  rw [← hcount]
  rfl

/-- The attempts are over with what is no error that passes. -/
theorem run_attempting_final (h : ∀ e, scene.results s.calls.length = .error e →
      e.isTransient = false) :
    (attempting α policy left s.calls.length).run scene.handle s
      = (scene.results s.calls.length, scene.called s) := by
  cases left with
  | zero => exact run_call
  | succ left =>
    rw [attempting, RetryPolicy.attempts, Program.run_bind, run_call]
    cases hresult : scene.results s.calls.length with
    | ok a => rfl
    | error e =>
      dsimp only
      rw [h e hresult]
      rfl

/-- After an error that passes there is a wait, and another call where nothing interrupts it. -/
theorem run_attempting_transient (hresult : scene.results s.calls.length = .error e)
    (he : e.isTransient = true) {interrupted : Bool} {next : Nat}
    (hwait : scene.wait s.calls.length (scene.called s).now (policy.delayFor s.calls.length e)
      = (interrupted, next)) :
    (attempting α policy (left + 1) s.calls.length).run scene.handle s =
      if interrupted then (.error e, ⟨next, (scene.called s).calls⟩)
      else (attempting α policy left (s.calls.length + 1)).run scene.handle ⟨next,
        (scene.called s).calls⟩ := by
  rw [attempting, RetryPolicy.attempts, Program.run_bind, run_call, hresult]
  dsimp only
  rw [if_pos he, Program.run_bind, run_pause, hwait]
  cases interrupted <;> rfl

/-- What a run of the attempts makes of the calls and of their results. -/
theorem attempted_of_run (left : Nat) (s : Timeline)
    (hleft : s.calls.length + left = policy.maxRetries) :
    ∃ calls, ((attempting α policy left s.calls.length).run scene.handle s).2.calls =
      s.calls ++ calls ∧
      Attempted policy scene s.calls.length s.now calls
        ((attempting α policy left s.calls.length).run scene.handle s).1 := by
  induction left generalizing s with
  | zero => exact ⟨_, rfl, .last (.inl hleft)⟩
  | succ left ih =>
    by_cases hfinal : ∀ e, scene.results s.calls.length = .error e → e.isTransient = false
    · rw [run_attempting_final hfinal]
      exact ⟨_, rfl, .last (.inr hfinal)⟩
    have hends : ¬ EndsWith policy scene.results s.calls.length := by
      rintro (hlast | h)
      · omega
      · exact hfinal h
    obtain ⟨e, hresult, he⟩ : ∃ e, scene.results s.calls.length = .error e ∧
      e.isTransient = true := by
      simpa using hfinal
    obtain ⟨⟨interrupted, next⟩, hwait⟩ : ∃ w,
        scene.wait s.calls.length (scene.called s).now (policy.delayFor s.calls.length e) = w :=
      ⟨_, rfl⟩
    rw [run_attempting_transient hresult he hwait]
    cases interrupted with
    | true => exact ⟨_, rfl, .abandoned hends hresult (congrArg Prod.fst hwait)⟩
    | false =>
      have hcount : (scene.called s).calls.length = s.calls.length + 1 := by simp [Scene.called]
      obtain ⟨calls, hcalls, hrest⟩ := ih ⟨next, (scene.called s).calls⟩ (by dsimp only; omega)
      dsimp only at hcalls hrest
      rw [hcount] at hcalls hrest
      exact ⟨_, hcalls.trans (List.append_assoc _ _ _), .again hends hresult hwait hrest⟩

/-! ## What follows for the calls -/

namespace Attempted

variable {n now : Nat} {calls : List Call} {result : Except RemoteError α}

/-- The first call is made at once. -/
theorem head (h : Attempted policy scene n now calls result) :
    calls[0]? = some (scene.call n now) := by
  cases h <;> rfl

/-- Each call is over when it has taken its time. -/
theorem timed (h : Attempted policy scene n now calls result) :
    ∀ k c, calls[k]? = some c → c = scene.call (n + k) c.started := by
  -- A list of one call has no call but the first.
  have hfirst : ∀ {n now : Nat} {k : Nat} {c : Call}, [scene.call n now][k]? = some c →
      c = scene.call (n + k) c.started := by
    intro n now k c hc
    cases k with
    | zero =>
      obtain rfl := Option.some.inj hc
      rfl
    | succ k => cases hc
  induction h with
  | last => exact fun k c => hfirst
  | abandoned => exact fun k c => hfirst
  | @again n now next e calls result _ _ _ _ ih =>
    intro k c hc
    cases k with
    | zero =>
      obtain rfl := Option.some.inj hc
      rfl
    | succ k =>
      have hc := ih k c hc
      rwa [Nat.add_right_comm] at hc

/-- The result is that of the last call, which ended the attempts unless the wait after it was cut
short. -/
theorem result_eq (h : Attempted policy scene n now calls result) :
    ∃ k c, calls.length = k + 1 ∧ calls[k]? = some c ∧ result = scene.results (n + k) ∧
      (EndsWith policy scene.results (n + k) ∨
        ∃ e, result = .error e ∧ (scene.wait (n + k) c.ended (policy.delayFor (n + k) e)).1 =
          true) := by
  induction h with
  | last hends => exact ⟨0, _, rfl, rfl, rfl, .inl hends⟩
  | abandoned hends herror hwait => exact ⟨0, _, rfl, rfl, herror.symm, .inr ⟨_, rfl, hwait⟩⟩
  | again hends herror hwait hrest ih =>
    obtain ⟨k, c, hlength, hc, hresult, hover⟩ := ih
    rw [Nat.add_right_comm] at hresult hover
    exact ⟨k + 1, c, congrArg (· + 1) hlength, hc, hresult, hover⟩

/-- Each call but the last is followed by a wait that was not interrupted. -/
theorem next (h : Attempted policy scene n now calls result) :
    ∀ k c c', calls[k]? = some c → calls[k + 1]? = some c' →
      ¬ EndsWith policy scene.results (n + k) ∧ ∃ e, scene.results (n + k) = .error e ∧
        scene.wait (n + k) c.ended (policy.delayFor (n + k) e) = (false, c'.started) := by
  induction h with
  | last hends => nofun
  | abandoned hends herror hwait => nofun
  | @again n now next e calls result hends herror hwait hrest ih =>
    intro k c c' hc hc'
    cases k with
    | zero =>
      obtain rfl := Option.some.inj hc
      obtain rfl := Option.some.inj (hrest.head.symm.trans hc')
      exact ⟨hends, e, herror, hwait⟩
    | succ k =>
      have hnext := ih k c c' hc hc'
      rwa [Nat.add_right_comm] at hnext

end Attempted

/-- With a base delay, every wait takes time. -/
theorem delayFor_pos (h : 0 < policy.baseDelay.nanos) (n : Nat) (e : RemoteError) :
    0 < (policy.delayFor n e).nanos := by
  have hbackoff : 0 < (policy.backoff n).nanos :=
    Nat.lt_min.mpr ⟨Nat.mul_pos h (RetryPolicy.factor_pos n), by decide⟩
  rw [RetryPolicy.delayFor]
  cases e.hint? with
  | none => exact hbackoff
  | some hint => exact Nat.lt_of_lt_of_le hbackoff (Nat.le_max_left _ _)

/-! ## Every run -/

/-- What the calls of the attempts are like in a scene where call number `n` is the last one. -/
structure RightCalls (policy : RetryPolicy) (scene : Scene α) (n : Nat)
    (calls : List Call) : Prop where
  count : calls.length = n + 1
  timed : ∀ k c, calls[k]? = some c → c = scene.call k c.started
  goesOn : ∀ k < n, ¬ EndsWith policy scene.results k
  /-- Only an interrupt that comes before a wait is over leaves out the retry after it. -/
  stops : EndsWith policy scene.results n ∨ ∃ t e c, scene.interrupt = some t ∧
    scene.results n = .error e ∧ calls[n]? = some c ∧
    t ≤ c.ended + (policy.delayFor n e).nanos + scene.late n (policy.delayFor n e)
  waited : ∀ k c c', calls[k]? = some c → calls[k + 1]? = some c' →
  ∃ e, scene.results k = .error e ∧
    c.ended + (policy.delayFor k e).nanos ≤ c'.started ∧
    -- No retry starts after the interrupt, unless it came when the wait was about to end.
    ∀ t, scene.interrupt = some t → 0 < policy.baseDelay.nanos →
      c'.started < t ∨ c.ended + (policy.delayFor k e).nanos ≤ t ∧ t ≤ c'.started

theorem Attempted.rightCalls {calls : List Call} {result : Except RemoteError α}
    (h : Attempted policy scene 0 0 calls result) :
    ∃ n, result = scene.results n ∧ RightCalls policy scene n calls := by
  obtain ⟨n, c, hcount, hc, hresult, hover⟩ := h.result_eq
  have htimed := h.timed
  have hnext := h.next
  simp only [Nat.zero_add] at hresult hover htimed hnext
  refine ⟨n, hresult, hcount, htimed, fun k hk => ?_, hover.imp_right ?_, fun k c c' hc hc' => ?_⟩
  · obtain ⟨c, hc⟩ : ∃ c, calls[k]? = some c := ⟨_, List.getElem?_eq_getElem (by omega)⟩
    obtain ⟨c', hc'⟩ : ∃ c', calls[k + 1]? = some c' := ⟨_, List.getElem?_eq_getElem (by omega)⟩
    exact (hnext k c c' hc hc').1
  · rintro ⟨e, he, hwait⟩
    obtain ⟨t, ht, hle⟩ := Scene.wait_cut hwait
    exact ⟨t, e, c, ht, hresult ▸ he, hc, hle⟩
  · obtain ⟨-, e, herror, hwait⟩ := hnext k c c' hc hc'
    obtain ⟨hlong, hcut⟩ := Scene.wait_elapsed hwait
    exact ⟨e, herror, hlong, fun t ht hpos => hcut t ht (delayFor_pos hpos k e)⟩

/-- Whatever calls bring, however long they take and whenever an interrupt comes, the right calls
are made, and the last of them decides the result. -/
theorem makes_right_calls (policy : RetryPolicy) (scene : Scene α) :
    ∃ n calls now, (policy.retrying α).run scene.handle .start = (scene.results n, ⟨now, calls⟩) ∧
      RightCalls policy scene n calls := by
  obtain ⟨calls, hcalls, hattempted⟩ :=
    @attempted_of_run _ policy scene policy.maxRetries .start (Nat.zero_add _)
  obtain ⟨n, hresult, hright⟩ := hattempted.rightCalls
  exact ⟨n, calls, _, Prod.ext hresult (congrArg (Timeline.mk _) hcalls), hright⟩

/-! ## The clock that counts milliseconds -/

/-- Calls take no time, waits end with the millisecond, and an interrupt cuts short whatever it
meets. -/
def Scene.ofMillis (results : Nat → Except RemoteError α) (interrupt : Option Nat) : Scene α where
  results := results
  takes _ := 0
  late _ length := length.millisCeil * 1000000 - length.nanos
  interrupt := interrupt.map (· * 1000000)
  cuts _ := true

variable {results : Nat → Except RemoteError α} {interrupt : Option Nat}

theorem wait_ofMillis (n now : Nat) (length : Span) :
    (Scene.ofMillis results interrupt).wait n (now * 1000000) length =
      ((endOfPause interrupt now length).1, (endOfPause interrupt now length).2 * 1000000) := by
  have hceil : length.nanos ≤ length.millisCeil * 1000000 := by
    rw [Span.millisCeil]
    omega
  have hends : now * 1000000 + length.nanos + (length.millisCeil * 1000000 - length.nanos)
      = (now + length.millisCeil) * 1000000 := by omega
  unfold Scene.wait endOfPause
  cases interrupt with
  | none => exact congrArg (Prod.mk false) hends
  | some t =>
    simp only [Scene.ofMillis, Option.map_some, hends, and_true]
    by_cases hbefore : t ≤ now
    · rw [if_pos (.inr (by omega)), if_pos hbefore, Nat.max_eq_right (by omega)]
    rw [if_neg hbefore]
    by_cases hmeets : t ≤ now + length.millisCeil
    · rw [if_pos (.inr (by omega)), if_pos hmeets, Nat.max_eq_left (by omega)]
    · have hkept : ¬ (max (t * 1000000) (now * 1000000) < now * 1000000 + length.nanos ∨
          t * 1000000 ≤ (now + length.millisCeil) * 1000000) := by
        omega
      rw [if_neg hkept, if_neg hmeets]

/-- The same calls, in milliseconds and in nanoseconds. -/
structure SameTimes (s : CallTimes) (s' : Timeline) : Prop where
  now : s'.now = s.now * 1000000
  calls : s'.calls.map Call.started = s.calls.map (· * 1000000)

theorem SameTimes.handle {s : CallTimes} {s' : Timeline} (h : SameTimes s s') (q : RetryAsk) :
    (CallTimes.handle results interrupt q s).1 =
    ((Scene.ofMillis results interrupt).handle q s').1 ∧
      SameTimes (CallTimes.handle results interrupt q s).2
        ((Scene.ofMillis results interrupt).handle q s').2 := by
  have hcount : s'.calls.length = s.calls.length := by
    have := congrArg List.length h.calls
    rwa [List.length_map, List.length_map] at this
  cases q with
  | call =>
    refine ⟨congrArg results hcount.symm, h.now, ?_⟩
    simp only [CallTimes.handle, Scene.handle, Scene.called, Scene.call, List.map_append, h.calls,
      List.map_cons, List.map_nil, h.now]
  | pause length =>
    simp only [CallTimes.handle, Scene.handle, h.now, wait_ofMillis]
    exact ⟨trivial, rfl, h.calls⟩

/-- Retries on that clock are retries in such a scene. -/
theorem timed_eq (policy : RetryPolicy) (results : Nat → Except RemoteError α)
    (interrupt : Option Nat) :
    (policy.timed results interrupt).1
        = ((policy.retrying α).run (Scene.ofMillis results interrupt).handle .start).1 ∧
      SameTimes (policy.timed results interrupt).2
        ((policy.retrying α).run (Scene.ofMillis results interrupt).handle .start).2 :=
  Program.run_related (fun q _ _ h => h.handle q) (policy.retrying α) ⟨rfl, rfl⟩

end CollectionSync.Retrying
