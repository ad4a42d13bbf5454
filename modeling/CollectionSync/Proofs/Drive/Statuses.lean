import CollectionSync.Drive.Response

/-! # What a run makes of the status of a response

A status becomes an error of the drive service, and that error becomes one that a run decides by:
whether it tries again, how long it waits, and whether the root is listed from scratch. `Judged` is
the table of both steps taken together. -/

namespace CollectionSync.Drive

/-- All bytes are visible ASCII, blanks or tabs. -/
def IsReadable (value : List UInt8) : Prop := ∀ b ∈ value, (0x20 ≤ b ∧ b < 0x7F) ∨ b = 0x09

/-- A response that asks to wait, in a header that can be read as text. -/
def HttpResponse.AsksToWait (r : HttpResponse) : Prop :=
  ∃ value, r.header? "retry-after" = some value ∧ IsReadable value

/-- The error of a response as a run sees it; none for success. -/
def remoteError? (url : Url) (r : HttpResponse) (now : Instant) : Option RemoteError :=
  (statusError? url r now).map DriveError.toRemote

variable {url : Url} {r : HttpResponse} {now : Instant}

/-! ## Waits -/

theorem min_le_right (a b : Span) : a.min b ≤ b := Nat.min_le_right a.nanos b.nanos

/-- No header makes a client wait longer than the longest wait. -/
theorem retryAfter_le (value : String) {default : Span} (h : default ≤ longestWait) :
    retryAfter value default now ≤ longestWait := by
  simp only [retryAfter]
  cases readSeconds? (Text.trim value.toList) with
  | some n => exact min_le_right _ _
  | none =>
    cases Time.readHeaderDate? (String.ofList (Text.trim value.toList)) with
    | some date => exact min_le_right _ _
    | none => exact h

theorem usualWait_le : usualWait ≤ longestWait := by decide

theorem headerText?_isSome {value : List UInt8} :
    (headerText? value).isSome ↔ IsReadable value := by
  have hall : (value.all fun b => (0x20 ≤ b && b < 0x7F) || b = 0x09) = true ↔
      IsReadable value := by
    simp only [List.all_eq_true, Bool.or_eq_true, Bool.and_eq_true, decide_eq_true_eq, IsReadable]
  rw [headerText?, ← hall]
  split <;> simp_all

theorem requestedWait?_isSome (r : HttpResponse) (now : Instant) :
    (requestedWait? r now).isSome ↔ r.AsksToWait := by
  rw [requestedWait?, Option.isSome_map, HttpResponse.AsksToWait]
  cases r.header? "retry-after" with
  | none => simp
  | some value => simp [headerText?_isSome]

theorem requestedWait?_le {wait : Span} (h : requestedWait? r now = some wait) :
    wait ≤ longestWait := by
  obtain ⟨value, -, rfl⟩ := Option.map_eq_some_iff.mp h
  exact retryAfter_le value usualWait_le

/-! ## The table -/

/-- What a response comes to, status by status. -/
inductive Judged (r : HttpResponse) : Option RemoteError → Prop
  | success : 200 ≤ r.status → r.status < 300 → Judged r none
  | throttled {wait : Span} :
    wait ≤ longestWait → r.status = 429 → Judged r (some (.throttled wait))
  /-- The service is down and says for how long. -/
  | paused {wait : Span} : wait ≤ longestWait → r.status = 503 → r.AsksToWait →
    Judged r (some (.throttled wait))
  | expired : r.status = 410 → Judged r (some .tokenExpired)
  | late (detail : String) : r.status = 408 ∨ r.status = 504 → Judged r (some (.timeout detail))
  | server (detail : String) : 500 ≤ r.status → r.status < 600 → (r.status = 503 → ¬ r.AsksToWait) →
    Judged r (some (.server detail))
  | permanent {e : RemoteError} : e.isTransient = false → e ≠ .tokenExpired →
    ¬ (200 ≤ r.status ∧ r.status < 300) → ¬ (500 ≤ r.status ∧ r.status < 600) → r.status ≠ 408 →
    r.status ≠ 410 → r.status ≠ 429 → Judged r (some e)

theorem Judged.refused {e : RemoteError} (hstays : e.isTransient = false)
    (hexpired : e ≠ .tokenExpired)
    (h : r.status = 401 ∨ r.status = 403 ∨ r.status = 404) : Judged r (some e) :=
  .permanent hstays hexpired (by omega) (by omega) (by omega) (by omega) (by omega)

theorem remoteError?_judged (url : Url) (r : HttpResponse) (now : Instant) :
    Judged r (remoteError? url r now) := by
  unfold remoteError? statusError?
  by_cases hsuccess : 200 ≤ r.status ∧ r.status < 300
  · rw [if_pos hsuccess]
    exact .success hsuccess.1 hsuccess.2
  rw [if_neg hsuccess]
  by_cases hmany : r.status = 429
  · rw [if_pos hmany]
    refine .throttled ?_ hmany
    cases hwait : requestedWait? r now with
    | none => exact usualWait_le
    | some wait => exact requestedWait?_le hwait
  rw [if_neg hmany]
  by_cases hdown : r.status = 503
  · rw [if_pos hdown]
    cases hwait : requestedWait? r now with
    | none =>
      have hasks : ¬ r.AsksToWait := by simp [← requestedWait?_isSome r now, hwait]
      exact .server _ (by omega) (by omega) fun _ => hasks
    | some wait =>
      have hasks : r.AsksToWait := by simp [← requestedWait?_isSome r now, hwait]
      exact .paused (requestedWait?_le hwait) hdown hasks
  rw [if_neg hdown]
  by_cases hrights : r.status = 401
  · rw [if_pos hrights]
    exact .refused rfl nofun (.inl hrights)
  rw [if_neg hrights]
  by_cases hrefused : r.status = 403
  · rw [if_pos hrefused]
    exact .refused rfl nofun (.inr (.inl hrefused))
  rw [if_neg hrefused]
  by_cases hmissing : r.status = 404
  · rw [if_pos hmissing]
    exact .refused rfl nofun (.inr (.inr hmissing))
  rw [if_neg hmissing]
  by_cases hgone : r.status = 410
  · rw [if_pos hgone]
    exact .expired hgone
  rw [if_neg hgone]
  by_cases hlate : r.status = 408 ∨ r.status = 504
  · rw [if_pos hlate]
    exact .late _ hlate
  rw [if_neg hlate]
  by_cases hserver : 500 ≤ r.status ∧ r.status < 600
  · rw [if_pos hserver]
    exact .server _ hserver.1 hserver.2 fun h => absurd h hdown
  rw [if_neg hserver]
  exact .permanent rfl nofun hsuccess hserver (fun h => hlate (.inl h)) hgone hmany

namespace Judged

variable {outcome : Option RemoteError} {e : RemoteError} {wait : Span}

theorem success_iff (h : Judged r outcome) : outcome = none ↔ 200 ≤ r.status ∧ r.status < 300 := by
  cases h <;> simp_all <;> omega

theorem expired_iff (h : Judged r outcome) : outcome = some .tokenExpired ↔ r.status = 410 := by
  cases h <;> simp_all <;> omega

theorem transient_iff (h : Judged r outcome) :
    (∃ e, outcome = some e ∧ e.isTransient) ↔
      r.status = 408 ∨ r.status = 429 ∨ (500 ≤ r.status ∧ r.status < 600) := by
  cases h <;> simp_all [RemoteError.isTransient] <;> omega

/-- Only an error that may be tried again says how long to wait. -/
theorem hint?_eq_none (h : e.isTransient = false) : e.hint? = none := by
  cases e with
  | throttled => cases h
  | _ => rfl

theorem hint_iff (h : Judged r outcome) :
    (∃ e wait, outcome = some e ∧ e.hint? = some wait) ↔
      r.status = 429 ∨ (r.status = 503 ∧ r.AsksToWait) := by
  cases h with
  | permanent hstays => simp_all [hint?_eq_none hstays]; omega
  | _ => simp_all [RemoteError.hint?] <;> omega

theorem hint_le (h : Judged r (some e)) (hhint : e.hint? = some wait) : wait ≤ longestWait := by
  cases h with
  | throttled hle | paused hle => exact Option.some.inj hhint ▸ hle
  | permanent hstays => simp [hint?_eq_none hstays] at hhint
  | expired | late | server => cases hhint

end Judged

/-- The two layers of errors agree about every response: which is a success, which makes the root be
listed from scratch, which is tried again, and which says how long to wait first. -/
theorem remote_errors_by_status (url : Url) (r : HttpResponse) (now : Instant) :
    (remoteError? url r now = none ↔ 200 ≤ r.status ∧ r.status < 300) ∧
    (remoteError? url r now = some .tokenExpired ↔ r.status = 410) ∧
    ((∃ e, remoteError? url r now = some e ∧ e.isTransient) ↔
      r.status = 408 ∨ r.status = 429 ∨ (500 ≤ r.status ∧ r.status < 600)) ∧
    ((∃ e wait, remoteError? url r now = some e ∧ e.hint? = some wait) ↔
      r.status = 429 ∨ (r.status = 503 ∧ r.AsksToWait)) ∧
    (∀ e wait, remoteError? url r now = some e → e.hint? = some wait → wait ≤ .ofSeconds 3600) := by
  have hjudged := remoteError?_judged url r now
  refine ⟨hjudged.success_iff, hjudged.expired_iff, hjudged.transient_iff, hjudged.hint_iff, ?_⟩
  intro e wait herror hhint
  exact (herror ▸ hjudged).hint_le hhint

/-- A service that is down for three hours is asked again after one. -/
example (url : Url) (now : Instant) :
    let r : HttpResponse := ⟨503, [("Retry-After", [0x31, 0x30, 0x38, 0x30, 0x30])], [], none⟩
    remoteError? url r now = some (.throttled (.ofSeconds 3600)) := by
  cbv

end CollectionSync.Drive
