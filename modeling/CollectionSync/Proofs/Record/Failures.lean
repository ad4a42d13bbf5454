import CollectionSync.Record.Failure

/-! # The failure report accounts for every failure

A log holds the first of the failures that came, as many as its cap lets it, and the number of the
others. `FailureLog.holding` says so in one term, which each push keeps; what a report lists is read
off it, and it makes no difference to a report which reports were taken before. -/

namespace CollectionSync

namespace FailureLog

theorem size_push (log : FailureLog) (item : FailedItem) : (log.push item).size = log.size + 1 := by
  unfold push
  split
  · simp only [size, List.length_append, List.length_cons, List.length_nil]
    omega
  · simp only [size]
    omega

theorem report_of_isEmpty {log : FailureLog} (h : log.isEmpty = true) : log.report = [] := by
  have hsize : log.kept.length + log.dropped = 0 := beq_iff_eq.mp h
  obtain ⟨hkept, hdropped⟩ := Nat.add_eq_zero_iff.mp hsize
  rw [report, if_pos hdropped]
  exact List.length_eq_zero_iff.mp hkept

/-! ## What a log holds -/

/-- The first `cap` of these failures, and the number of the others. -/
def holding (cap : Nat) (items : List FailedItem) : FailureLog :=
  ⟨cap, items.take cap, items.length - cap⟩

variable {cap : Nat} {items : List FailedItem}

@[simp] theorem cap_holding : (holding cap items).cap = cap := rfl

@[simp] theorem kept_holding : (holding cap items).kept = items.take cap := rfl

@[simp] theorem dropped_holding : (holding cap items).dropped = items.length - cap := rfl

theorem size_holding : (holding cap items).size = items.length := by
  simp only [size, kept_holding, dropped_holding, List.length_take]
  omega

theorem push_holding (item : FailedItem) :
    (holding cap items).push item = holding cap (items ++ [item]) := by
  have hlength : (items ++ [item]).length = items.length + 1 := List.length_append
  unfold push
  rw [cap_holding, kept_holding, dropped_holding, List.length_take]
  by_cases hroom : items.length < cap
  · rw [if_pos (show min cap items.length < cap by omega)]
    have hdropped : items.length - cap = items.length + 1 - cap := by omega
    simp only [holding, hlength, hdropped, List.take_of_length_le (Nat.le_of_lt hroom),
      List.take_of_length_le (show (items ++ [item]).length ≤ cap by omega)]
  · rw [if_neg (show ¬ min cap items.length < cap by omega)]
    have hdropped : items.length - cap + 1 = items.length + 1 - cap := by omega
    simp only [holding, hlength, hdropped, List.take_append_of_le_length (Nat.le_of_not_lt hroom)]

/-- What pushes make of an empty log. -/
theorem foldl_push (cap : Nat) (items : List FailedItem) :
    items.foldl push (.empty cap) = holding cap items := by
  have hgrown : ∀ rest came : List FailedItem,
      rest.foldl push (holding cap came) = holding cap (came ++ rest) := by
    intro rest
    induction rest with
    | nil => exact fun came => congrArg (holding cap) (List.append_nil came).symm
    | cons item rest ih =>
      intro came
      rw [List.foldl_cons, push_holding, ih, List.append_assoc]
      rfl
  have hempty : FailureLog.empty cap = holding cap [] := by simp [empty, holding]
  rw [hempty, hgrown, List.nil_append]

/-! ## What a report lists -/

/-- Failures for which there is room are all listed. -/
theorem report_holding (h : items.length ≤ cap) : (holding cap items).report = items := by
  rw [report, dropped_holding, if_pos (show items.length - cap = 0 by omega)]
  exact List.take_of_length_le h

theorem report_foldl_push (h : items.length ≤ cap) :
    (items.foldl push (.empty cap)).report = items := by
  rw [foldl_push, report_holding h]

/-- A log without room lists nothing. -/
theorem report_holding_zero : (holding 0 items).report = [] := by
  unfold report
  split <;> rfl

/-- Where there are more failures than room, the last entry that would fit gives way to a count. -/
theorem report_holding_summary (h : cap < items.length) (hcap : 0 < cap) :
    (holding cap items).report =
      items.take (cap - 1) ++ [summary (items.length - (cap - 1)) items[cap - 1]] := by
  have hlast : (items.take cap).getLast? = some items[cap - 1] := by
    rw [List.getLast?_take, if_neg (Nat.ne_of_gt hcap), List.getElem?_eq_getElem (by omega),
      Option.some_or]
  have hcount : items.length - cap + 1 = items.length - (cap - 1) := by omega
  rw [report, dropped_holding, if_neg (show ¬ items.length - cap = 0 by omega), kept_holding]
  simp only [hlast, List.dropLast_take h, hcount]

/-- The report that is due for `items` where at most `cap` entries may be listed. -/
structure Accounts (cap : Nat) (items report : List FailedItem) : Prop where
  length : report.length = min items.length cap
  whole : items.length ≤ cap → report = items
  summed : 0 < cap → ∀ h : cap < items.length, ∃ more,
    more = items.length - (cap - 1) ∧ (cap - 1) + more = items.length ∧
    report = items.take (cap - 1) ++ [⟨toString more ++ " more", items[cap - 1].kind,
      toString more ++ " further failures were not listed"⟩]

theorem accounts_holding (cap : Nat) (items : List FailedItem) :
    Accounts cap items (holding cap items).report where
  length := by
    rcases Nat.lt_or_ge cap items.length with hlt | hle
    · rcases Nat.eq_zero_or_pos cap with rfl | hcap
      · rw [report_holding_zero, List.length_nil, Nat.min_zero]
      · rw [report_holding_summary hlt hcap, List.length_append, List.length_take,
          List.length_singleton]
        omega
    · rw [report_holding hle, Nat.min_eq_left hle]
  whole := report_holding
  summed hcap h := ⟨_, rfl, by omega, report_holding_summary h hcap⟩

end FailureLog

/-! ## Reports taken on the way -/

/-- What is done with a log: a failure is pushed, or the report is taken. -/
inductive LogUse where
  | push (item : FailedItem)
  | report

namespace LogUse

/-- The failures among what is done. -/
def pushed (uses : List LogUse) : List FailedItem :=
  uses.filterMap fun
    | push item => some item
    | report => none

end LogUse

namespace FailureLog

/-- The log after one use, and the report if it was taken. -/
def use (log : FailureLog) : LogUse → FailureLog × Option (List FailedItem)
  | .push item => (log.push item, none)
  | .report => (log, some log.report)

/-- The log after all uses, and the reports that were taken. -/
def useAll (log : FailureLog) : List LogUse → FailureLog × List (List FailedItem)
  | [] => (log, [])
  | u :: rest =>
    let (next, report?) := log.use u
    let (last, reports) := next.useAll rest
    (last, report?.toList ++ reports)

variable {log : FailureLog}

theorem useAll_append (before later : List LogUse) :
    log.useAll (before ++ later) =
      (((log.useAll before).1.useAll later).1,
        (log.useAll before).2 ++ ((log.useAll before).1.useAll later).2) := by
  induction before generalizing log with
  | nil => rfl
  | cons u rest ih => simp only [List.cons_append, useAll, ih, List.append_assoc]

/-- Reports leave the log as the pushes make it. -/
theorem useAll_log (uses : List LogUse) :
    (log.useAll uses).1 = (LogUse.pushed uses).foldl push log := by
  induction uses generalizing log with
  | nil => rfl
  | cons u rest ih =>
    cases u with
    | push item => exact ih
    | report => exact ih

/-- Whatever is done with a log before a report and after it, the report accounts for the failures
that were pushed until then, and the log counts them. Reports taken earlier make no difference to
it. -/
theorem every_failure_accounted_for (cap : Nat) (before later : List LogUse) :
    ((empty cap).useAll before).1.size = (LogUse.pushed before).length ∧
    ((empty cap).useAll before).1 = (LogUse.pushed before).foldl push (.empty cap) ∧
    ∃ report,
      ((empty cap).useAll (before ++ .report :: later)).2[((empty cap).useAll before).2.length]? =
        some report ∧
      Accounts cap (LogUse.pushed before) report := by
  have hlog : ((empty cap).useAll before).1 = holding cap (LogUse.pushed before) :=
    (useAll_log before).trans (foldl_push cap _)
  refine ⟨by rw [hlog, size_holding], useAll_log before, _, ?_, accounts_holding cap _⟩
  rw [useAll_append, hlog, List.getElem?_append_right (Nat.le_refl _), Nat.sub_self]
  rfl

end FailureLog

end CollectionSync
