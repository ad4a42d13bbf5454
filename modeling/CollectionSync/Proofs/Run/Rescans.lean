import CollectionSync.Proofs.Run.Observing
import CollectionSync.Proofs.Run.Turns
import CollectionSync.Proofs.Store.Ending

/-! # An expired token is followed by one listing from scratch

A root is listed from the token of the claimed record. Where the answer is that the token has
expired, it is listed once more without a token, and whatever the last answer is counts: its changes
are planned, or the root is noted as failed and keeps its token. -/

namespace CollectionSync

/-- The roots of a request that is accepted have different ids. -/
theorem nodup_of_check {request : RunRequest} (h : request.check = .ok ()) :
    (request.roots.map (·.id)).Nodup := by
  unfold RunRequest.check at h
  split at h
  · cases h
  · split at h
    · cases h
    · next hnone => exact (repeated?_eq_none.mp hnone).1

namespace Interleaving

open Program

variable {env : Surroundings} {rules : RunRules} {order : RunOrder} {root : SourceRoot}
  {h h₁ h₂ h₃ : List RunHeard} {k : RootId}

/-- What a run has heard, where it has come beyond its work: the listing of the roots, what was done
about it, and the rest. -/
theorem work_stages {m m' : List RunHeard} {listing : Listing}
    {r : Running (Except RunError Record)}
    (hy : Yields (order.work rules) m listing) (hf : Follows (order.finish listing) m' r) :
    ∃ h₁ h₂ h₃, m ++ m' = ⟨.startWatch, ()⟩ :: (h₁ ++ (h₂ ++ h₃)) ∧
      Yields (order.listRoots rules) h₁ listing ∧ Yields (order.carryOut rules listing) h₂ () ∧
      ∀ e ∈ h₂ ++ h₃, IsLater e.1 := by
  obtain ⟨h₁, h₂, rfl, hl, hc⟩ := work_split hy
  refine ⟨h₁, h₂, ⟨.endWatch, ()⟩ :: m', ?_, hl, hc, List.forall_mem_append.mpr ⟨?_, ?_⟩⟩
  · simp only [List.cons_append, List.append_assoc, List.nil_append]
  · exact ((carryOut_later listing).of_follows hc).1
  · exact List.forall_mem_cons.mpr ⟨trivial, ((finish_later listing).of_follows hf).1⟩

section

variable (hlater : ∀ e ∈ h₂ ++ h₃, IsLater e.1)

include hlater

theorem listCalls_stages :
    listCalls k (⟨.startWatch, ()⟩ :: (h₁ ++ (h₂ ++ h₃))) = listCalls k h₁ := by
  have hs : Silent k (h₂ ++ h₃) := .of_later hlater
  have hsame : listCalls k (h₁ ++ (h₂ ++ h₃)) = listCalls k h₁ := by
    rw [listCalls_append, hs.calls, List.append_nil]
  exact hsame

theorem complaints_stages :
    complaints k (notes (⟨.startWatch, ()⟩ :: (h₁ ++ (h₂ ++ h₃)))) = complaints k (notes h₁) := by
  have hs : Silent k (h₂ ++ h₃) := .of_later hlater
  have hsame : complaints k (notes (h₁ ++ (h₂ ++ h₃))) = complaints k (notes h₁) := by
    rw [notes_append, complaints_append, hs.notes, List.append_nil]
  exact hsame

end

theorem answer_nonempty (q : RunAsk) : Nonempty q.Answer := by
  cases q with
  | keeper k =>
    cases k with
    | clock => exact ⟨⟨0, 0⟩⟩
    | store op => exact ⟨.error (.unavailable "")⟩
    | watched => exact ⟨true⟩
    | announce event => exact ⟨()⟩
  | state | change => exact ⟨.start 0 false⟩
  | within => exact ⟨none⟩
  | lookups => exact ⟨[]⟩
  | pause => exact ⟨true⟩
  | acquire | release | spawn | startWatch | endWatch => exact ⟨()⟩
  | join => exact ⟨.broken ""⟩

/-- At any point of a run, a root of its request was listed with its token, and then without one. -/
theorem scan_of_follows {r : Running (Except RunError Record)} (hf : Follows (order.run rules) h r)
    (hdistinct : (order.request.roots.map (·.id)).Nodup) (hroot : root ∈ order.request.roots) :
    ∃ first again, Scan rules order root (listCalls root.id h) first again := by
  -- the run goes on to its end in some way, and what it lists till then begins with these calls
  obtain ⟨h', written, hy⟩ := hf.exists_yields answer_nonempty
  obtain ⟨m, listing, m', heq, hw, hfinish⟩ := yields_bind.mp hy
  obtain ⟨h₁, h₂, h₃, hstages, hl, -, hlater⟩ := work_stages hw hfinish
  have hall : listCalls root.id h ++ listCalls root.id h' = listCalls root.id h₁ := by
    rw [← listCalls_append, heq, hstages, listCalls_stages hlater]
  have hbegins : (listCalls root.id h₁).take (listCalls root.id h).length =
      listCalls root.id h := by
    rw [← hall, List.take_left]
  rw [← hbegins]
  rcases listRoots_brings hl hdistinct hroot with hs | ⟨last, ⟨first, again, hscan, -⟩, -⟩
  · rw [hs.calls, List.take_nil]
    exact ⟨[], [], rfl, Nat.zero_le _, Nat.zero_le _, fun hagain => absurd rfl hagain, nofun, nofun⟩
  · exact ⟨_, _, hscan.take _⟩

/-- A task of the run lists no root, -/
theorem taskOf_lists_none (task : SyncTask) :
    (taskOf rules order task).Asks fun q => ¬ IsListingOf k q := by
  have hquiet : ∀ q, IsLater q → ¬ IsListingOf k q := fun _ hq => hq.not_isListingOf
  have hlook : order.identity.observe.Asks fun q => ¬ IsListingOf k q :=
    (observe_asks trivial trivial trivial).mono hquiet
  refine (perform_asks hlook id (fun _ => id) (fun limit call hcall => ?_) _ task).bind
    fun done => ?_
  · cases call with
    | list => exact hcall.elim
    | _ => exact id
  · exact settle_asks (fun _ => id) (fun _ => publish_asks fun _ => id) done

/-- nor does the watch. -/
theorem watchOf_lists_none : (watchOf rules order).Asks fun q => ¬ IsListingOf k q :=
  watchOf_later.mono fun _ hq => hq.not_isListingOf

/-! ## What the run reports of the root -/

/-- What has become of a root that was listed, in a run that is about to report: what the last
answer of the listing says. -/
structure Concluded (rules : RunRules) (order : RunOrder) (root : SourceRoot) (p : Pool env)
    (report : RunReport) (last : ListAnswer) : Prop where
  scanned : Scanned rules order root (listCalls root.id p.main) last
  /-- The plan is made of what was listed, and of this root that is what the last answer says. -/
  planned : ∃ h₁ h₂ h₃ listing, p.main = ⟨.startWatch, ()⟩ :: (h₁ ++ (h₂ ++ h₃)) ∧
    Yields (order.listRoots rules) h₁ listing ∧ Yields (order.carryOut rules listing) h₂ () ∧
    (¬ Faulted h₁ → listing.changes.filter (fun c => c.1.id = root.id) = changesBy root last) ∧
    (Faulted h₁ → listing.changes = [])
  kept : (∀ set, last ≠ some (.ok set)) → report.tokens.get? root.id = tokenOf order root
  /-- The failure report is made of all that was noted, in the order in which it came. Unless the
  run was interrupted, an expired token is noted once. -/
  reported : ∃ came : List FailedItem, came.Perm (notes p.heard) ∧
    report.failures = (came.foldl FailureLog.push (.empty rules.failuresCap)).report ∧
    (came.length ≤ rules.failuresCap → report.failures = came) ∧
    (last = expired → complaints root.id came = [rootNote root.id (.tokenExpired root.id)] ∨
      complaints root.id came = [] ∧ (p.shared.run.cancelled = true ∨ p.shared.run.stopping = true))
  /-- What the report says is what the stores keep. -/
  memory : ∀ m : Memory, Possession.KeepsTokens Memory.run Memory.tokens order.request.collection
      order.admission.run order.admission.record report m ∧
    EndsWith Memory.run order.request.collection order.admission.run report
      (fun _ written => written.failures = report.failures) m
  database : ∀ db : Database, db.Keyed → Possession.KeepsTokens Database.run Database.tokens
      order.request.collection order.admission.run order.admission.record report db ∧
    EndsWith Database.run order.request.collection order.admission.run report
      (fun _ written => written.failures = report.failures) db

theorem concluded_of_reports {p : Pool env} {report : RunReport}
    (hdistinct : (order.request.roots.map (·.id)).Nodup) (hroot : root ∈ order.request.roots)
    (hr : Reachable rules order p) (hreport : Reports rules order p report)
    (hcalls : listCalls root.id p.main ≠ []) :
    ∃ last, Concluded rules order root p report last := by
  obtain ⟨_, _, now, _, hasked⟩ := hreport
  obtain ⟨m, listing, s, hm, hy, -, -, rfl⟩ := of_finish_asked hasked
  obtain ⟨r, hf⟩ := main_follows hr
  rw [hm] at hf
  obtain ⟨h₁, h₂, h₃, hstages, hl, hc, hlater⟩ := work_stages hy (hy.after hf)
  rw [← hm] at hstages
  have hlisted : listCalls root.id p.main = listCalls root.id h₁ := by
    rw [hstages, listCalls_stages hlater]
  have hnoted : complaints root.id (notes p.heard) = complaints root.id (notes h₁) := by
    rw [complaints_of_joined hr (joined_of_worked hr hy hm).2, hstages, complaints_stages hlater]
  rcases listRoots_brings hl hdistinct hroot with hs | ⟨last, hb⟩
  · exact absurd (hlisted.trans hs.calls) hcalls
  obtain ⟨came, hcame, hlog⟩ := logs_of_reachable hr
  have hfailures : (s.report listing.tokens).failures = p.shared.run.log.report :=
    congrArg FailureLog.report (kept_after_work hr hy hm).2
  refine ⟨last, ?_, ⟨h₁, h₂, h₃, listing, hstages, hl, hc, hb.changes, hb.dropped⟩, hb.kept,
    ⟨came, hcame, by rw [hfailures, hlog], fun hfits => ?_, ?_⟩, fun m => ?_, fun db hkeyed => ?_⟩
  · rw [hlisted]
    exact hb.scanned
  · rw [hfailures, hlog, FailureLog.report_foldl_push hfits]
  · rintro rfl
    have hsame := (hcame.filter _).trans (.of_eq hnoted)
    have hcomplains : Complains root.id h₁ (.error (.tokenExpired root.id)) := hb.complains
    cases hcomplains with
    | failed hone => exact .inl (List.perm_singleton.mp (hsame.trans (.of_eq hone)))
    | @interrupted _ state hnone hstate hint =>
      refine .inr ⟨(hsame.trans (.of_eq hnone)).eq_nil, ?_⟩
      have hmain : (⟨.state, state⟩ : RunHeard) ∈ p.main := by
        rw [hstages]
        exact List.mem_cons_of_mem _ (List.mem_append_left _ hstate)
      obtain ⟨hcoherent, hprecedes⟩ := (orderly_of_reachable hr).read state hmain
      exact (hcoherent hint).imp hprecedes.cancelled hprecedes.stopping
  · exact ⟨m.keepsTokens _ _ _ _, m.endsWith_closes.mono fun _ _ hcloses => hcloses.failures⟩
  · exact ⟨Database.keepsTokens _ _ _ _ hkeyed,
      (Database.endsWith_closes hkeyed).mono fun _ _ hcloses => hcloses.failures⟩

/-- Whatever a run hears, it lists each root with the token of the claimed record, and once more
without a token if the last answer was that the token has expired; only the main program lists
roots. What the last answer says counts in the end: its changes are planned, or the root keeps its
token, and an expired token is noted as a failure of the root, unless the run is interrupted. -/
theorem expired_token_rescanned_once (hrequest : order.request.check = .ok ())
    (hroot : root ∈ order.request.roots) :
    (∀ (h : List RunHeard) (r : Running (Except RunError Record)), Follows (order.run rules) h r →
      ∃ first again, Scan rules order root (listCalls root.id h) first again ∧
        (listCalls root.id h ≠ [] → first ≠ [])) ∧
    (∀ task, (taskOf rules order task).Asks fun q => ¬ IsListingOf root.id q) ∧
    ((watchOf rules order).Asks fun q => ¬ IsListingOf root.id q) ∧
    ∀ (env : Surroundings) (p : Pool env) (report : RunReport), Reachable rules order p →
      Reports rules order p report → listCalls root.id p.main ≠ [] →
      ∃ last, Concluded rules order root p report last := by
  have hdistinct := nodup_of_check hrequest
  refine ⟨fun h r hf => ?_, taskOf_lists_none, watchOf_lists_none,
    fun env p report hr hreport hcalls =>
    concluded_of_reports hdistinct hroot hr hreport hcalls⟩
  obtain ⟨first, again, hscan⟩ := scan_of_follows hf hdistinct hroot
  exact ⟨first, again, hscan, hscan.starts⟩

/-- The network fails once, then the token has expired, and the listing without a token is refused
too. -/
theorem expired_token_rescanned_once_refused :
    let rules : RunRules := ⟨1, ⟨1⟩, 10, ⟨1, ⟨1⟩⟩, ⟨1⟩⟩
    let claimed : Record :=
      { Record.idle ⟨"docs"⟩ ⟨0, 0⟩ with
        status := .syncing
        run := some ⟨1⟩
        tokens := Dict.ofList [(⟨"root"⟩, ⟨"r1"⟩)] }
    let root : SourceRoot := ⟨⟨"root"⟩, none, none⟩
    let order : RunOrder := ⟨⟨⟨"docs"⟩, [root]⟩, ⟨⟨1⟩, claimed⟩, ""⟩
    ∃ (p : Pool .anything) (report : RunReport),
      (order.request.check = .ok () ∧ root ∈ order.request.roots ∧ Reachable rules order p ∧
        Reports rules order p report) ∧
      (listCalls root.id p.main).map (·.token) = [some ⟨"r1"⟩, some ⟨"r1"⟩, none] ∧
      report.failures = [⟨"root", .enumeration, "delta token expired for source root root"⟩] ∧
      report.tokens = claimed.tokens ∧ ∃ last, Concluded rules order root p report last := by
  intro rules claimed root order
  have h : ComesTo rules order (.start .anything rules false ()) (order.run rules) :=
    ⟨.start false _, .refl _, not_has_nil⟩
  have h := h.goOn (.startWatch h.main) rfl id
  have h := (h.hear .state id).answer (Except.ok (some claimed)) trivial id
  have h := h.answer (some (Except.error (RemoteError.network ""))) trivial id
  have h := h.hear (a := false) (.pause nofun) id
  have h := (h.answer expired trivial id).answer expired trivial id
  have h := (h.hear .state id).hear .change id
  -- nothing is planned, and the run comes to its end
  have h := (h.hear .state id).answer [] trivial id
  have h := ((h.hear .change id).answer (⟨1, 0⟩ : Instant) trivial id).answer
    (Except.ok ProgressOutcome.discarded) trivial id
  have h := ((h.goOn (.endWatch h.main) rfl id).hear .state id).answer (⟨2, 0⟩ : Instant) trivial id
  have hreport := h.reports rfl
  have hrequest : order.request.check = .ok () := rfl
  have hroot : root ∈ order.request.roots := List.mem_singleton_self root
  obtain ⟨-, -, -, hconcluded⟩ := @expired_token_rescanned_once rules order root hrequest hroot
  exact ⟨_, _, ⟨hrequest, hroot, h.reachable, hreport⟩, by decide +kernel, rfl, rfl,
    hconcluded _ _ _ h.reachable hreport (List.ne_nil_of_length_pos (by decide +kernel))⟩

end Interleaving

end CollectionSync
