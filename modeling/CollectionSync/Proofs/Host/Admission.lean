import CollectionSync.Host.Basic
import CollectionSync.Proofs.Program
import CollectionSync.Proofs.Store.Claims

/-! # Which requests start a run

A request is checked before anything is claimed, and the claim is one operation of the store. So a
request that is refused has changed nothing, and one that is accepted has the record to itself. -/

namespace CollectionSync

/-! ## Requests -/

/-- What is found is the first id that comes after its like. -/
theorem repeated?_eq_some {seen ids : List RootId} {id : RootId}
    (h : repeated? seen ids = some id) :
    ∃ before after, ids = before ++ id :: after ∧ repeated? seen before = none ∧
      (id ∈ before ∨ id ∈ seen) := by
  induction ids generalizing seen with
  | nil => cases h
  | cons first rest ih =>
    rw [repeated?] at h
    split at h
    · next hseen =>
      cases h
      exact ⟨[], rest, rfl, rfl, .inr hseen⟩
    · next hfresh =>
      obtain ⟨before, after, rfl, hnone, hid⟩ := ih h
      refine ⟨first :: before, after, rfl, ?_, ?_⟩
      · rw [repeated?, if_neg hfresh]
        exact hnone
      · rcases hid with hid | hid
        · exact .inl (List.mem_cons_of_mem first hid)
        · exact (List.mem_cons.mp hid).imp_left fun heq => List.mem_cons.mpr (.inl heq)

namespace RunRequest

/-- The request names roots, and none of them twice. -/
def Sensible (r : RunRequest) : Prop := r.roots ≠ [] ∧ (r.roots.map (·.id)).Nodup

/-- Why a request is refused before anything is claimed. -/
inductive Faulty (r : RunRequest) : RunError → Prop
  | empty :
    r.roots = [] → Faulty r (.invalidRequest ("no source roots given for " ++ r.collection.text))
  /-- The root is the first one that repeats an earlier one. -/
  | repeated {before after : List SourceRoot} {root : SourceRoot} :
    r.roots = before ++ root :: after → (before.map (·.id)).Nodup → root.id ∈ before.map (·.id) →
    Faulty r (.invalidRequest ("source root " ++ root.id.text ++ " listed twice"))

variable {r : RunRequest} {e : RunError}

theorem Faulty.not_sensible (h : r.Faulty e) : ¬ r.Sensible := by
  rintro ⟨hsome, hnodup⟩
  cases h with
  | empty hnone => exact hsome hnone
  | repeated hroots _ hmem =>
    rw [hroots, List.map_append, List.map_cons, List.nodup_append] at hnodup
    exact hnodup.2.2 _ hmem _ List.mem_cons_self rfl

theorem check_sound (r : RunRequest) :
    r.check = .ok () ∧ r.Sensible ∨ ∃ e, r.check = .error e ∧ r.Faulty e := by
  unfold check
  cases hroots : r.roots with
  | nil => exact .inr ⟨_, rfl, .empty hroots⟩
  | cons first rest =>
    rw [← hroots]
    have hsome : r.roots.isEmpty = false := by rw [hroots]; rfl
    rw [hsome, if_neg Bool.false_ne_true]
    cases hrep : repeated? [] (r.roots.map (·.id)) with
    | none =>
      refine .inl ⟨rfl, ?_, (repeated?_eq_none.mp hrep).1⟩
      rw [hroots]
      exact List.cons_ne_nil first rest
    | some id =>
      obtain ⟨before, after, hsplit, hnone, hid⟩ := repeated?_eq_some hrep
      obtain ⟨before', tail, hroots', rfl, htail⟩ := List.map_eq_append_iff.mp hsplit
      obtain ⟨root, after', rfl, rfl, -⟩ := List.map_eq_cons_iff.mp htail
      have hmem : root.id ∈ before'.map (·.id) := hid.resolve_right List.not_mem_nil
      exact .inr ⟨_, rfl, .repeated hroots' (repeated?_eq_none.mp hnone).1 hmem⟩

end RunRequest

/-! ## The host -/

/-- A host with its store, and the orders of the runs that it has started. -/
structure Service (σ : Type) where
  store : σ
  host : Host
  started : List RunOrder

namespace Service

variable {σ : Type} (step : σ → (op : StoreOp) → Except StoreError op.Reply × σ) (run : RunId)
  (now : Instant)

/-- How a host is answered at a time, where the next run gets this identifier. -/
def answer : (q : HostAsk) → Service σ → q.Answer × Service σ
  | .keeper .clock, s => (now, s)
  | .keeper (.store op), s => ((step s.store op).1, { s with store := (step s.store op).2 })
  | .keeper .watched, s => (true, s)
  | .keeper (.announce _), s => ((), s)
  | .stopping, s => (s.host.stopping, s)
  | .freshRun, s => (run, s)
  | .launch order, s =>
    ((), { s with
      host := s.host.launched order.request.collection order.admission.run
      started := s.started ++ [order] })

/-- Asks the host to start a run. -/
def startRun (s : Service σ) (request : RunRequest) (credentials : String) :
    Except RunError RunId × Service σ :=
  (Host.startRun request credentials).run (answer step run now) s

variable {step : σ → (op : StoreOp) → Except StoreError op.Reply × σ} {run : RunId} {now : Instant}
  {s : Service σ} {request : RunRequest} {credentials : String} {found : Option Record}

theorem startRun_of_stopping (hs : s.host.stopping = true) :
    s.startRun step run now request credentials =
      (.error (.invalidRequest "sync service is shutting down"), s) := by
  have hask : (Program.question HostAsk.stopping : Hosting Bool).run (answer step run now) s =
      (true, s) :=
    Prod.ext hs rfl
  rw [startRun, Host.startRun, Program.run_bind, hask]
  rfl

/-- What comes of a claim is what comes of the request, but for the work that is started. -/
theorem startRun_eq (hs : s.host.stopping = false) :
    s.startRun step run now request credentials =
      match (Host.claimRun request).run (answer step run now) s with
      | (.error e, s') => (.error e, s')
      | (.ok admission, s') =>
        (.ok admission.run, { s' with
          host := s'.host.launched request.collection admission.run
          started := s'.started ++ [⟨request, admission, credentials⟩] }) := by
  have hask : (Program.question HostAsk.stopping : Hosting Bool).run (answer step run now) s =
      (false, s) :=
    Prod.ext hs rfl
  rw [startRun, Host.startRun, Program.run_bind, hask, if_neg Bool.false_ne_true, Program.run_bind]
  generalize (Host.claimRun request).run (answer step run now) s = claimed
  obtain ⟨result, s'⟩ := claimed
  cases result <;> rfl

theorem claimRun_of_faulty {e : RunError} (he : request.check = .error e) :
    (Host.claimRun request).run (answer step run now) s = (.error e, s) := by
  rw [Host.claimRun, he]
  rfl

/-- A request that passes its check is decided by the store. -/
theorem claimRun_eq (hc : request.check = .ok ()) :
    (Host.claimRun request).run (answer step run now) s =
      match step s.store (.claim request.collection run now) with
      | (.error e, store) => (.error (.ofStore e), { s with store })
      | (.ok (.claimed record), store) => (.ok ⟨run, record⟩, { s with store })
      | (.ok (.conflict record), store) =>
        (.error (.conflict request.collection record.run), { s with store }) := by
  have hclaim : (Host.keeping (Keeper.claim request.collection run)).run (answer step run now) s =
      ((step s.store (.claim request.collection run now)).1.mapError RunError.ofStore,
        { s with store := (step s.store (.claim request.collection run now)).2 }) := rfl
  have hfresh : (Program.question HostAsk.freshRun : Hosting RunId).run (answer step run now) s =
      (run, s) := rfl
  rw [Host.claimRun, hc]
  dsimp only
  rw [Program.run_bind, hfresh]
  dsimp only
  rw [Program.run_bind, hclaim]
  generalize step s.store (.claim request.collection run now) = claimed
  obtain ⟨reply, store⟩ := claimed
  cases reply with
  | error e => rfl
  | ok outcome => cases outcome <;> rfl

/-- What the request comes to where it is accepted. -/
structure Accepts (step : σ → (op : StoreOp) → Except StoreError op.Reply × σ) (run : RunId)
    (s s' : Service σ) (request : RunRequest) (credentials : String) (found : Option Record) :
    Prop where
  /-- The record is the run's, and the one run that was started is told of it. -/
  begun : ∃ r, r.Begins run found ∧ (step s'.store (.get request.collection)).1 = .ok (some r) ∧
    s'.started = s.started ++ [⟨request, ⟨run, r⟩, credentials⟩]
  others : ∀ d, d ≠ request.collection → (step s'.store (.get d)).1 = (step s.store (.get d)).1
  host : s'.host = s.host.launched request.collection run

/-- Why the request is refused. -/
inductive Refuses (s : Service σ) (request : RunRequest) (found : Option Record) : RunError → Prop
  | stopping : s.host.stopping = true →
    Refuses s request found (.invalidRequest "sync service is shutting down")
  | faulty {e : RunError} : s.host.stopping = false → request.Faulty e → Refuses s request found e
  /-- A run owns the collection. -/
  | taken {r : Record} :
    s.host.stopping = false → request.Sensible → found = some r → r.status = .syncing →
    Refuses s request found (.conflict request.collection r.run)

/-- What becomes of a request to start a run, where the store has found this of its collection. -/
structure Decides (step : σ → (op : StoreOp) → Except StoreError op.Reply × σ) (run : RunId)
    (now : Instant)
    (s : Service σ) (request : RunRequest) (credentials : String) (found : Option Record) :
    Prop where
  accepts_iff : (∃ id, (s.startRun step run now request credentials).1 = .ok id) ↔
    s.host.stopping = false ∧ request.Sensible ∧ IsFree found
  accepted : ∀ id, (s.startRun step run now request credentials).1 = .ok id → id = run ∧
    Accepts step run s (s.startRun step run now request credentials).2 request credentials found
  refused : ∀ e, (s.startRun step run now request credentials).1 = .error e →
    (s.startRun step run now request credentials).2 = s ∧ Refuses s request found e

theorem Decides.of_error {e : RunError}
    (h : s.startRun step run now request credentials = (.error e, s))
    (hrefuses : Refuses s request found e)
    (hno : ¬ (s.host.stopping = false ∧ request.Sensible ∧ IsFree found)) :
    Decides step run now s request credentials found where
  accepts_iff := by
    rw [h]
    refine ⟨?_, fun hall => absurd hall hno⟩
    rintro ⟨id, hid⟩
    cases hid
  accepted id hid := by
    rw [h] at hid
    cases hid
  refused e' he := by
    rw [h] at he ⊢
    cases he
    exact ⟨rfl, hrefuses⟩

/-- A store that answers claims as it should makes the host decide as it should. -/
theorem decides (hclaims : Claims step s.store request.collection run now found)
    (credentials : String) :
    Decides step run now s request credentials found := by
  cases hs : s.host.stopping with
  | true => exact .of_error (startRun_of_stopping hs) (.stopping hs) fun h => by simp [hs] at h
  | false =>
    rcases request.check_sound with ⟨hcheck, hsensible⟩ | ⟨e, hcheck, hfaulty⟩
    · by_cases hfree : IsFree found
      · obtain ⟨r, store, hclaim, hbegins, hreads, hothers⟩ := hclaims.free hfree
        have hrun : s.startRun step run now request credentials = (.ok run,
            ⟨store, s.host.launched request.collection run,
              s.started ++ [⟨request, ⟨run, r⟩, credentials⟩]⟩) := by
          rw [startRun_eq hs, claimRun_eq hcheck, hclaim]
        refine ⟨?_, fun id hid => ?_, fun e he => ?_⟩
        · rw [hrun]
          exact ⟨fun _ => ⟨hs, hsensible, hfree⟩, fun _ => ⟨run, rfl⟩⟩
        · rw [hrun] at hid ⊢
          exact ⟨(Except.ok.inj hid).symm, ⟨r, hbegins, hreads, rfl⟩, hothers, rfl⟩
        · rw [hrun] at he
          cases he
      · obtain ⟨r, hr, hsyncing⟩ := exists_of_not_isFree hfree
        have hclaim := hclaims.taken r hr hsyncing
        refine .of_error ?_ (.taken hs hsensible hr hsyncing) fun h => hfree h.2.2
        rw [startRun_eq hs, claimRun_eq hcheck, hclaim]
    · refine .of_error ?_ (.faulty hs hfaulty) fun h => hfaulty.not_sensible h.2.1
      rw [startRun_eq hs, claimRun_of_faulty hcheck]

/-- With either store, a host starts exactly the runs that it should: it is not shutting down, the
request names roots and none twice, and no run owns the collection. Whatever it refuses has changed
nothing. -/
theorem starts_exactly_valid_runs (request : RunRequest) (credentials : String) (run : RunId)
    (now : Instant) :
    (∀ s : Service Memory,
      Decides Memory.run run now s request credentials (s.store.get request.collection)) ∧
    ∀ (s : Service Database) (found : Option Record), s.store.Keyed → request.collection.Valid →
      now.Storable → (s.store.run (.get request.collection)).1 = .ok found →
      Decides Database.run run now s request credentials found :=
  ⟨fun s => decides (s.store.claims request.collection run now) credentials,
    fun _ _ hkeyed hc hnow hread => decides (Database.claims hkeyed hc hnow hread run) credentials⟩

namespace Restart

def docs : CollectionId := ⟨"docs"⟩

def drive : SourceRoot := ⟨⟨"drive"⟩, none, none⟩

/-- A run was cancelled when it had done one of three items. -/
def stopped : Record :=
  { Record.idle docs ⟨0, 0⟩ with
    status := .cancelled
    progress := ⟨1, 0, 3, ""⟩
    tokens := Dict.empty.insert drive.id ⟨"t1"⟩
    run := some ⟨1⟩ }

def service : Service Database := ⟨.ofRecords [stopped], .idle, []⟩

def again : RunRequest := ⟨docs, [drive]⟩

theorem reads : (service.store.run (.get docs)).1 = .ok (some stopped) := by
  have hstorable : stopped.Storable := by decide +kernel
  have hread : Database.readRow (Row.ofRecord stopped) = .ok stopped :=
    Database.readRow_eq_ok.mpr (Row.toRecord_eq_ok_iff.mp (Row.toRecord_ofRecord hstorable))
  have hget : (service.store.run (.get docs)).1 =
      (Database.readRow (Row.ofRecord stopped)).map some := rfl
  rw [hget, hread]
  rfl

end Restart

/-- A collection whose run was cancelled is claimed by the next one. -/
theorem starts_exactly_valid_runs_restarted :
    (Restart.service.store.Keyed ∧ Restart.docs.Valid ∧ Instant.Storable ⟨0, 0⟩ ∧
      (Restart.service.store.run (.get Restart.docs)).1 = .ok (some Restart.stopped)) ∧
    Decides Database.run ⟨2⟩ ⟨0, 0⟩ Restart.service Restart.again "" (some Restart.stopped) ∧
    (Restart.service.startRun Database.run ⟨2⟩ ⟨0, 0⟩ Restart.again "").1 = .ok ⟨2⟩ := by
  have hkeyed : Restart.service.store.Keyed :=
    ⟨_, rfl, List.nodup_cons.mpr ⟨List.not_mem_nil, .nil⟩⟩
  have hvalid : Restart.docs.Valid := by decide
  have hnow : Instant.Storable ⟨0, 0⟩ := by decide
  have hdecides :=
    (starts_exactly_valid_runs Restart.again "" ⟨2⟩ ⟨0, 0⟩).2 Restart.service _ hkeyed hvalid
    hnow Restart.reads
  have hsensible : Restart.again.Sensible := ⟨nofun, by decide⟩
  have hfree : IsFree (some Restart.stopped) := by
    rintro r hr
    obtain rfl := Option.some.inj hr
    exact nofun
  obtain ⟨id, hid⟩ := hdecides.accepts_iff.mpr ⟨rfl, hsensible, hfree⟩
  obtain ⟨rfl, -⟩ := hdecides.accepted id hid
  exact ⟨⟨hkeyed, hvalid, hnow, Restart.reads⟩, hdecides, hid⟩

end Service

end CollectionSync
