import CollectionSync.Time.Span

/-! # Spans in machine words

A machine keeps a span as its whole seconds, in 64 bits, and the nanoseconds of the second that has
begun, in 32. Multiplying such a span takes a product for each word and a carry. Here every
operation on words gives the exact result or none, and the outcome is that of `Span.scale`: what is
cut at the limit is cut, and nothing else goes wrong on the way. -/

namespace CollectionSync

theorem nanos_scale (s : Span) (n : Nat) :
    (s.scale n).nanos = min (s.nanos * n) Span.limit.nanos := rfl

theorem nanos_max (a b : Span) : (a.max b).nanos = max a.nanos b.nanos := rfl

/-! ## Operations on words -/

namespace Word

/-- The product, where 64 bits hold it. -/
def mul? (a b : UInt64) : Option UInt64 :=
  if a.toNat * b.toNat < UInt64.size then some (a * b) else none

/-- The sum, where 64 bits hold it. -/
def add? (a b : UInt64) : Option UInt64 :=
  if a.toNat + b.toNat < UInt64.size then some (a + b) else none

variable {a b c : UInt64}

theorem mul?_eq_some (h : a.toNat * b.toNat < UInt64.size) :
    ∃ c, mul? a b = some c ∧ c.toNat = a.toNat * b.toNat := by
  refine ⟨a * b, if_pos h, ?_⟩
  rw [UInt64.toNat_mul]
  exact Nat.mod_eq_of_lt h

theorem mul?_eq_none (h : UInt64.size ≤ a.toNat * b.toNat) : mul? a b = none :=
  if_neg (Nat.not_lt.mpr h)

theorem add?_eq_some (h : a.toNat + b.toNat < UInt64.size) :
    ∃ c, add? a b = some c ∧ c.toNat = a.toNat + b.toNat := by
  refine ⟨a + b, if_pos h, ?_⟩
  rw [UInt64.toNat_add]
  exact Nat.mod_eq_of_lt h

theorem add?_eq_none (h : UInt64.size ≤ a.toNat + b.toNat) : add? a b = none :=
  if_neg (Nat.not_lt.mpr h)

/-- The product with a carry, where 64 bits hold it. -/
def mulAdd? (a b c : UInt64) : Option UInt64 := (mul? a b).bind fun product => add? product c

theorem mulAdd?_eq_some (h : a.toNat * b.toNat + c.toNat < UInt64.size) :
    ∃ r, mulAdd? a b c = some r ∧ r.toNat = a.toNat * b.toNat + c.toNat := by
  obtain ⟨product, hproduct, hvalue⟩ := mul?_eq_some (Nat.lt_of_le_of_lt (Nat.le_add_right _ _) h)
  rw [mulAdd?, hproduct, Option.bind_some, ← hvalue]
  exact add?_eq_some (by rwa [hvalue])

theorem mulAdd?_eq_none (h : UInt64.size ≤ a.toNat * b.toNat + c.toNat) : mulAdd? a b c = none := by
  unfold mulAdd?
  rcases Nat.lt_or_ge (a.toNat * b.toNat) UInt64.size with hlt | hge
  · obtain ⟨product, hproduct, hvalue⟩ := mul?_eq_some hlt
    rw [hproduct, Option.bind_some, add?_eq_none (by rwa [hvalue])]
  · rw [mul?_eq_none hge, Option.bind_none]

end Word

/-! ## Spans -/

/-- Whole seconds and the nanoseconds of a further one that has begun. -/
structure SpanWords where
  seconds : UInt64
  nanos : UInt32
  nanos_lt : nanos.toNat < 1000000000

namespace SpanWords

def span (w : SpanWords) : Span := ⟨w.seconds.toNat * 1000000000 + w.nanos.toNat⟩

theorem toNat_subsecond (n : UInt64) : (n % 1000000000).toUInt32.toNat = n.toNat % 1000000000 := by
  have hmod : (n % 1000000000).toNat = n.toNat % 1000000000 := UInt64.toNat_mod n 1000000000
  rw [UInt64.toNat_toUInt32, hmod]
  omega

/-- A number of seconds, with the nanoseconds of `n` that make up no whole second. -/
def ofParts (seconds n : UInt64) : SpanWords where
  seconds
  nanos := (n % 1000000000).toUInt32
  nanos_lt := by
    rw [toNat_subsecond]
    exact Nat.mod_lt _ (by decide)

theorem nanos_span_ofParts (seconds n : UInt64) :
    (ofParts seconds n).span.nanos = seconds.toNat * 1000000000 + n.toNat % 1000000000 :=
  congrArg (seconds.toNat * 1000000000 + ·) (toNat_subsecond n)

/-- The words of a span that they can hold. -/
def ofSpan (s : Span) : SpanWords := ofParts (.ofNat s.seconds) (.ofNat s.subsecNanos)

theorem span_ofSpan {s : Span} (h : s ≤ Span.limit) : (ofSpan s).span = s := by
  have hlimit : s.nanos ≤ UInt64.size * 1000000000 - 1 := h
  have hseconds : (UInt64.ofNat s.seconds).toNat = s.nanos / 1000000000 :=
    UInt64.toNat_ofNat_of_lt (show s.nanos / 1000000000 < UInt64.size by
      rw [Nat.div_lt_iff_lt_mul (by decide)]
      have : 0 < UInt64.size := by decide
      omega)
  have hnanos : (UInt64.ofNat s.subsecNanos).toNat = s.nanos % 1000000000 :=
    UInt64.toNat_ofNat_of_lt (show s.nanos % 1000000000 < UInt64.size by
      have : 1000000000 ≤ UInt64.size := by decide
      omega)
  have hspan : (ofSpan s).span.nanos = s.nanos := by
    rw [ofSpan, nanos_span_ofParts, hseconds, hnanos]
    omega
  exact congrArg Span.mk hspan

/-- The most that the words hold. -/
def limit : SpanWords := ofParts (.ofNat (UInt64.size - 1)) 999999999

theorem span_limit : limit.span = Span.limit := by decide

/-- The longer of two spans. -/
def longer (a b : SpanWords) : SpanWords :=
  if a.seconds < b.seconds ∨ (a.seconds = b.seconds ∧ a.nanos < b.nanos) then b else a

theorem span_longer (a b : SpanWords) : (a.longer b).span = a.span.max b.span := by
  have ha := a.nanos_lt
  have hb := b.nanos_lt
  -- The order of the words is the order of the spans.
  have horder : (a.seconds < b.seconds ∨ (a.seconds = b.seconds ∧ a.nanos < b.nanos)) ↔
      a.span.nanos < b.span.nanos := by
    simp only [span, UInt64.lt_iff_toNat_lt, UInt32.lt_iff_toNat_lt, ← UInt64.toNat_inj]
    omega
  have hnanos : (a.longer b).span.nanos = (a.span.max b.span).nanos := by
    rw [longer, nanos_max]
    split
    · next hlt => exact (Nat.max_eq_right (Nat.le_of_lt (horder.mp hlt))).symm
    · next hge => exact (Nat.max_eq_left (Nat.not_lt.mp (mt horder.mpr hge))).symm
  exact congrArg Span.mk hnanos

/-- The span `n` times. The product of the nanoseconds must not overflow; where the seconds do, the
span is cut at the limit. -/
def scale? (w : SpanWords) (n : UInt32) : Option SpanWords := do
  let nanos ← Word.mul? w.nanos.toUInt64 n.toUInt64
  match Word.mulAdd? w.seconds n.toUInt64 (nanos / 1000000000) with
  | some seconds => some (ofParts seconds nanos)
  | none => some limit

/-- Multiplying never breaks down, and gives the span that is due. -/
theorem scale?_eq (w : SpanWords) (n : UInt32) :
    ∃ scaled, w.scale? n = some scaled ∧ scaled.span = w.span.scale n.toNat := by
  have hfits : w.nanos.toUInt64.toNat * n.toUInt64.toNat < UInt64.size := by
    rw [UInt32.toNat_toUInt64, UInt32.toNat_toUInt64]
    calc w.nanos.toNat * n.toNat ≤ 1000000000 * UInt32.size :=
          Nat.mul_le_mul (Nat.le_of_lt w.nanos_lt) (Nat.le_of_lt n.toNat_lt_size)
      _ < UInt64.size := by decide
  obtain ⟨nanos, hnanos, hproduct⟩ := Word.mul?_eq_some hfits
  have hcarry : (nanos / 1000000000).toNat = nanos.toNat / 1000000000 :=
    UInt64.toNat_div nanos 1000000000
  rw [UInt32.toNat_toUInt64, UInt32.toNat_toUInt64] at hproduct
  have htotal : w.span.nanos * n.toNat = w.seconds.toNat * n.toNat * 1000000000 + nanos.toNat := by
    rw [span, Nat.add_mul, Nat.mul_right_comm, hproduct]
  have hlimit : Span.limit.nanos = UInt64.size * 1000000000 - 1 := rfl
  rw [scale?, hnanos]
  rcases Nat.lt_or_ge
    (w.seconds.toNat * n.toNat + nanos.toNat / 1000000000) UInt64.size with hlt | hge
  · obtain ⟨seconds, hseconds, hvalue⟩ := Word.mulAdd?_eq_some (a := w.seconds) (b := n.toUInt64)
      (c := nanos / 1000000000) (by rwa [UInt32.toNat_toUInt64, hcarry])
    rw [UInt32.toNat_toUInt64, hcarry] at hvalue
    refine ⟨ofParts seconds nanos, by simp only [Option.bind_eq_bind, Option.bind_some, hseconds],
      ?_⟩
    have hspan : (ofParts seconds nanos).span.nanos = (w.span.scale n.toNat).nanos := by
      rw [nanos_span_ofParts, hvalue, nanos_scale, htotal, hlimit, Nat.min_eq_left (by omega)]
      omega
    exact congrArg Span.mk hspan
  · have hover := Word.mulAdd?_eq_none (a := w.seconds) (b := n.toUInt64) (c := nanos / 1000000000)
      (by rwa [UInt32.toNat_toUInt64, hcarry])
    refine ⟨limit, by simp only [Option.bind_eq_bind, Option.bind_some, hover], ?_⟩
    have hspan : Span.limit.nanos = (w.span.scale n.toNat).nanos := by
      rw [nanos_scale, htotal, hlimit, Nat.min_eq_right (by omega)]
    exact span_limit.trans (congrArg Span.mk hspan)

end SpanWords

end CollectionSync
