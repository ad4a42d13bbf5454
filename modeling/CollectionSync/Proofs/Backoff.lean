import CollectionSync.Proofs.Time.Words
import CollectionSync.Retry
import CollectionSync.Settings.Fault

/-! # How long a retry is waited for

The wait doubles from one attempt to the next and meets two limits on its way: the power of two is
cut at what 32 bits hold, the product at the longest span. It grows across both, and settings that
pass their checks stay below either. -/

namespace CollectionSync.RetryPolicy

/-! ## The factor -/

/-- The power of two, cut at what 32 bits hold. -/
theorem factor_eq (attempt : Nat) : factor attempt = min (Nat.pow 2 attempt) (UInt32.size - 1) := by
  unfold factor
  split
  · next hlt =>
    have hpow : Nat.pow 2 attempt ≤ Nat.pow 2 31 := Nat.pow_le_pow_right (by decide) (by omega)
    have hsmall : Nat.pow 2 31 ≤ UInt32.size - 1 := by decide
    rw [Nat.min_eq_left (Nat.le_trans hpow hsmall)]
    exact Nat.one_shiftLeft attempt
  · next hge =>
    have hpow : Nat.pow 2 32 ≤ Nat.pow 2 attempt := Nat.pow_le_pow_right (by decide) (by omega)
    have hlarge : UInt32.size - 1 ≤ Nat.pow 2 32 := by decide
    rw [Nat.min_eq_right (Nat.le_trans hlarge hpow)]

theorem factor_pos (attempt : Nat) : 0 < factor attempt := by
  rw [factor_eq]
  exact Nat.lt_min.mpr ⟨Nat.two_pow_pos attempt, by decide⟩

theorem factor_mono {m n : Nat} (h : m ≤ n) : factor m ≤ factor n := by
  have hpow : Nat.pow 2 m ≤ Nat.pow 2 n := Nat.pow_le_pow_right (by decide) h
  rw [factor_eq, factor_eq]
  omega

/-- Doubling in 32 bits, cut at the largest word. -/
def doubled : Nat → UInt32
  | 0 => 1
  | n + 1 => if (doubled n).toNat * 2 < UInt32.size then doubled n * 2 else .ofNat (UInt32.size - 1)

theorem toNat_doubled (n : Nat) : (doubled n).toNat = factor n := by
  rw [factor_eq]
  induction n with
  | zero => rfl
  | succ n ih =>
    have hpow : Nat.pow 2 (n + 1) = Nat.pow 2 n * 2 := rfl
    have hsize : UInt32.size = 4294967296 := rfl
    rw [doubled]
    split
    · next hlt =>
      have hdouble : (doubled n * 2).toNat = (doubled n).toNat * 2 := by
        rw [UInt32.toNat_mul]
        exact Nat.mod_eq_of_lt hlt
      rw [hdouble]
      omega
    · next hge =>
      have hlargest : (UInt32.ofNat (UInt32.size - 1)).toNat = UInt32.size - 1 := by decide
      rw [hlargest]
      omega

/-! ## The wait in words -/

variable {policy : RetryPolicy} {error : RemoteError}

/-- The wait before retry number `attempt`, worked out in words; none if an operation broke down. -/
def delayWords? (policy : RetryPolicy) (attempt : UInt32)
    (error : RemoteError) : Option SpanWords :=
  ((SpanWords.ofSpan policy.baseDelay).scale? (doubled attempt.toNat)).map fun backoff =>
    match error.hint? with
    | some hint => backoff.longer (.ofSpan hint)
    | none => backoff

theorem delayWords?_eq (hbase : policy.baseDelay ≤ Span.limit)
    (hhint : ∀ hint ∈ error.hint?, hint ≤ Span.limit) (attempt : UInt32) :
    ∃ words, policy.delayWords? attempt error = some words ∧
      words.span = policy.delayFor attempt.toNat error := by
  obtain ⟨backoff, hbackoff, hspan⟩ :=
    (SpanWords.ofSpan policy.baseDelay).scale?_eq (doubled attempt.toNat)
  rw [SpanWords.span_ofSpan hbase, toNat_doubled] at hspan
  refine ⟨_, by rw [delayWords?, hbackoff, Option.map_some], ?_⟩
  rw [delayFor]
  cases herror : error.hint? with
  | none => exact hspan
  | some hint =>
    dsimp only
    rw [SpanWords.span_longer, hspan, SpanWords.span_ofSpan (hhint hint herror)]
    rfl

/-! ## How the wait grows -/

theorem nanos_backoff (policy : RetryPolicy) (attempt : Nat) :
    (policy.backoff attempt).nanos =
      min (policy.baseDelay.nanos * factor attempt) Span.limit.nanos := rfl

theorem nanos_delayFor (policy : RetryPolicy) (attempt : Nat) (error : RemoteError) :
    (policy.delayFor attempt error).nanos =
      max (policy.backoff attempt).nanos ((error.hint?.map Span.nanos).getD 0) := by
  rw [delayFor]
  cases error.hint? with
  | none => exact (Nat.max_zero _).symm
  | some hint => exact nanos_max _ _

theorem backoff_mono (policy : RetryPolicy) {m n : Nat} (h : m ≤ n) :
    (policy.backoff m).nanos ≤ (policy.backoff n).nanos := by
  rw [nanos_backoff, nanos_backoff]
  have := Nat.mul_le_mul_left policy.baseDelay.nanos (factor_mono h)
  omega

theorem base_le_backoff (hbase : policy.baseDelay ≤ Span.limit) (attempt : Nat) :
    policy.baseDelay.nanos ≤ (policy.backoff attempt).nanos :=
  Nat.le_min.mpr ⟨Nat.le_mul_of_pos_right _ (factor_pos attempt), hbase⟩

/-- What the waits are like after an error. -/
structure Paced (policy : RetryPolicy) (error : RemoteError) : Prop where
  /-- No operation on words breaks down. -/
  unbroken : ∀ attempt : UInt32, ∃ words, policy.delayWords? attempt error = some words ∧
    words.span = policy.delayFor attempt.toNat error
  value : ∀ attempt, (policy.delayFor attempt error).nanos =
    max ((error.hint?.map Span.nanos).getD 0)
      (min (policy.baseDelay.nanos * min (Nat.pow 2 attempt) (UInt32.size - 1))
        (UInt64.size * 1000000000 - 1))
  grows : ∀ m n, m ≤ n → policy.delayFor m error ≤ policy.delayFor n error
  base_le : ∀ attempt, policy.baseDelay ≤ policy.delayFor attempt error
  hint_le : ∀ attempt, ∀ hint ∈ error.hint?, hint ≤ policy.delayFor attempt error

theorem paced (hbase : policy.baseDelay ≤ Span.limit)
    (hhint : ∀ hint ∈ error.hint?, hint ≤ Span.limit) :
    Paced policy error where
  unbroken := delayWords?_eq hbase hhint
  value attempt := by
    rw [nanos_delayFor, nanos_backoff, factor_eq, Nat.max_comm]
    rfl
  grows m n h := by
    show (policy.delayFor m error).nanos ≤ (policy.delayFor n error).nanos
    rw [nanos_delayFor, nanos_delayFor]
    have := backoff_mono policy h
    omega
  base_le attempt := by
    show policy.baseDelay.nanos ≤ (policy.delayFor attempt error).nanos
    rw [nanos_delayFor]
    exact Nat.le_trans (base_le_backoff hbase attempt) (Nat.le_max_left _ _)
  hint_le attempt hint hmem := by
    show hint.nanos ≤ (policy.delayFor attempt error).nanos
    rw [nanos_delayFor, Option.mem_def.mp hmem]
    exact Nat.le_max_right _ _

end RetryPolicy

/-! ## Settings that pass their checks -/

theorem Settings.isValid_iff {s : Settings} : s.isValid = true ↔ ∀ c ∈ s.checks, c.1 = false := by
  simp [isValid, faults, List.filter_eq_nil_iff]

theorem Settings.maxRetries_le {s : Settings} (h : s.isValid = true) :
    s.retry.maxRetries.toNat ≤ 10 := by
  have hcheck := isValid_iff.mp h
    (s.retry.maxRetries > retryLimit, ⟨"retry.max_retries", "must be at most 10"⟩)
      (by simp [checks])
  exact UInt32.le_iff_toNat_le.mp (UInt32.not_lt.mp (of_decide_eq_false hcheck))

namespace RetryPolicy

variable {policy : RetryPolicy} {error : RemoteError} {settings : Settings}

/-- With at most ten retries neither limit is met: 2^64 milliseconds, doubled nine times, are less
than 2^64 seconds. -/
theorem backoff_exact (h : settings.isValid = true) {attempt : Nat}
    (hattempt : attempt < settings.retry.maxRetries.toNat) :
    Nat.pow 2 attempt < UInt32.size - 1 ∧
    settings.retryPolicy.baseDelay.nanos * Nat.pow 2 attempt < Span.limit.nanos ∧
    settings.retryPolicy.backoff attempt
      = .ofMillis (settings.retry.baseDelayMillis.toNat * Nat.pow 2 attempt) := by
  have hretries := Settings.maxRetries_le h
  have hpow : Nat.pow 2 attempt ≤ Nat.pow 2 9 := Nat.pow_le_pow_right (by decide) (by omega)
  have hword : Nat.pow 2 attempt < UInt32.size - 1 := Nat.lt_of_le_of_lt hpow (by decide)
  have hmillis : settings.retry.baseDelayMillis.toNat * Nat.pow 2 attempt ≤
      (UInt64.size - 1) * Nat.pow 2 9 :=
    Nat.mul_le_mul (Nat.le_pred_of_lt settings.retry.baseDelayMillis.toNat_lt_size) hpow
  have hproduct : settings.retryPolicy.baseDelay.nanos * Nat.pow 2 attempt
      = settings.retry.baseDelayMillis.toNat * Nat.pow 2 attempt * 1000000 :=
    Nat.mul_right_comm _ _ _
  have hspan : settings.retryPolicy.baseDelay.nanos * Nat.pow 2 attempt < Span.limit.nanos := by
    rw [hproduct]
    exact Nat.lt_of_le_of_lt (Nat.mul_le_mul_right _ hmillis) (by decide)
  refine ⟨hword, hspan, congrArg Span.mk ?_⟩
  rw [factor_eq, Nat.min_eq_left (Nat.le_of_lt hword)]
  exact (Nat.min_eq_left (Nat.le_of_lt hspan)).trans hproduct

/-- After every error the waits are sound and grow, and with settings that pass their checks the
wait before each retry is the base delay doubled once for each retry before it. -/
theorem waits_grow_soundly (hbase : policy.baseDelay ≤ Span.limit)
    (hhint : ∀ hint ∈ error.hint?, hint ≤ Span.limit) :
    Paced policy error ∧
    ∀ settings : Settings, settings.isValid = true → ∀ attempt < settings.retry.maxRetries.toNat,
      Nat.pow 2 attempt < UInt32.size - 1 ∧
      settings.retryPolicy.baseDelay.nanos * Nat.pow 2 attempt < Span.limit.nanos ∧
      settings.retryPolicy.backoff attempt
        = .ofMillis (settings.retry.baseDelayMillis.toNat * Nat.pow 2 attempt) :=
  ⟨paced hbase hhint, fun _ h _ hattempt => backoff_exact h hattempt⟩

/-- Settings with the longest base delay and as many retries as there may be. -/
def slowest : Settings :=
  { Settings.initial ⟨"/etc", "/var"⟩ with
    retry := { maxRetries := 10, baseDelayMillis := .ofNat (UInt64.size - 1) } }

theorem waits_grow_soundly_slowest :
    slowest.retryPolicy.baseDelay ≤ Span.limit ∧ Span.ofSeconds 3600 ≤ Span.limit ∧
    Paced slowest.retryPolicy (.throttled (.ofSeconds 3600)) ∧
    slowest.isValid = true ∧ 9 < slowest.retry.maxRetries.toNat ∧
    slowest.retryPolicy.backoff 9 = .ofMillis (18446744073709551615 * 512) := by
  have hbase : slowest.retryPolicy.baseDelay ≤ Span.limit := by decide
  have hhint : ∀ hint ∈ (RemoteError.throttled (.ofSeconds 3600)).hint?, hint ≤ Span.limit := by
    intro hint hmem
    rw [← Option.some.inj hmem]
    decide
  have hvalid : slowest.isValid = true := by decide +kernel
  have hsound := waits_grow_soundly hbase hhint
  exact ⟨hbase, by decide, hsound.1, hvalid, by decide, (hsound.2 slowest hvalid 9 (by decide)).2.2⟩

end RetryPolicy

end CollectionSync
