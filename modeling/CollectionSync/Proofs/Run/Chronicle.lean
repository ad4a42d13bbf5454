import Mathlib.Data.List.Forall2
import CollectionSync.Proofs.Store.History
import CollectionSync.Proofs.Store.Legible
import CollectionSync.Rehearsal.World
import CollectionSync.Run.Keeper

/-! # What an observer hears

An observer that is there from the start, and that never lets the events it has not received yet
grow beyond what is kept for it, hears the history of the store: an event for each accepted write of
counters, for each accepted end of a run and for each recovered record, in this order and with the
record as the operation has left it. Nothing else is announced. -/

namespace CollectionSync

/-- What the keeper of records may be asked for, one after another. -/
inductive Errand where
  | claim (c : CollectionId) (run : RunId)
  | writeProgress (c : CollectionId) (run : RunId) (p : Progress)
  | requestCancel (c : CollectionId)
  | finish (c : CollectionId) (run : RunId) (report : RunReport)
  | recover (staleBefore : Instant) (reason : String)

namespace Errand

/-- The operation of the store that the errand comes to at a time. -/
def op (now : Instant) : Errand → StoreOp
  | .claim c run => .claim c run now
  | .writeProgress c run p => .updateProgress c run p now
  | .requestCancel c => .requestCancel c now
  | .finish c run report => .finish c run report now
  | .recover staleBefore reason => .recover staleBefore reason now

/-- How the keeper goes about the errand. -/
def program (now : Instant) : (e : Errand) → Keeping (Except RunError (e.op now).Reply)
  | .claim c run => Keeper.claim c run
  | .writeProgress c run p => Keeper.writeProgress c run p
  | .requestCancel c => Keeper.requestCancel c
  | .finish c run report => Keeper.finish c run report
  | .recover staleBefore reason => Keeper.recover staleBefore reason

end Errand

/-! ## The history of a store as events -/

/-- What an operation with its answer is announced as, and the collections that it is announced
of. -/
def StoreOp.due : (op : StoreOp) → Except StoreError op.Reply → List (EventKind × CollectionId)
  | .updateProgress c _ _ _, .ok .applied => [(.progress, c)]
  | .finish c _ _ _, .ok _ => [(.terminal, c)]
  | .recover _ _ _, .ok recovered => List.map (EventKind.terminal, ·) recovered
  | _, _ => []

/-- What is announced has been written. -/
theorem StoreOp.wrote_of_mem_due {op : StoreOp} {answer : Except StoreError op.Reply}
    {kind : EventKind} {c : CollectionId} (h : (kind, c) ∈ op.due answer) : op.Wrote c answer := by
  unfold due at h
  split at h
  · next d _ _ _ =>
    obtain ⟨-, rfl⟩ := Prod.mk.inj (List.mem_singleton.mp h)
    exact ⟨rfl, rfl⟩
  · next d _ _ _ r =>
    obtain ⟨-, rfl⟩ := Prod.mk.inj (List.mem_singleton.mp h)
    exact ⟨rfl, r, rfl⟩
  · next recovered =>
    obtain ⟨d, hd, heq⟩ := List.mem_map.mp h
    obtain ⟨-, rfl⟩ := Prod.mk.inj heq
    exact ⟨recovered, rfl, hd⟩
  · cases h

section

variable {σ : Type} (step : σ → (op : StoreOp) → Except StoreError op.Reply × σ)

/-- The event carries the record that the store has of the collection. -/
def Tells (s : σ) (what : EventKind × CollectionId) (event : RunEvent) : Prop :=
  event.kind = what.1 ∧ (step s (.get what.2)).1 = .ok (some event.record)

/-- The events that tell of these operations, the first of them first. Each carries the record as it
is right after the operation. -/
inductive Chronicle : σ → List StoreOp → List RunEvent → Prop
  | nil (s : σ) : Chronicle s [] []
  | cons {s : σ} {op : StoreOp} {ops : List StoreOp} {events later : List RunEvent} :
    List.Forall₂ (Tells step (step s op).2) (op.due (step s op).1) events →
    Chronicle (step s op).2 ops later → Chronicle s (op :: ops) (events ++ later)

end

/-! ## An observer -/

/-- The events that an observer has not received yet, the oldest first. -/
structure Backlog where
  capacity : Nat
  waiting : List RunEvent
  /-- How many events were dropped unheard. -/
  lost : Nat

/-- Keeps an event for the observer; the oldest one makes room where there is none. -/
def Backlog.push (b : Backlog) (event : RunEvent) : Backlog :=
  if b.waiting.length < b.capacity then { b with waiting := b.waiting ++ [event] }
  else { b with waiting := b.waiting.tail ++ [event], lost := b.lost + 1 }

/-- A store with an observer. -/
structure Watched (σ : Type) where
  store : σ
  backlog : Backlog
  received : List RunEvent

namespace Watched

variable {σ : Type}

/-- The observer is there before anything happens. -/
def opened (s : σ) (capacity : Nat) : Watched σ := ⟨s, ⟨capacity, [], 0⟩, []⟩

/-- All that the observer has received or can still receive. -/
def told (w : Watched σ) : List RunEvent := w.received ++ w.backlog.waiting

/-- The observer takes the oldest event. -/
def receive (w : Watched σ) : Watched σ :=
  match w.backlog.waiting with
  | [] => w
  | event :: rest =>
    { w with backlog := { w.backlog with waiting := rest }, received := w.received ++ [event] }

/-- Another store, and events that were announced since. -/
def announced (w : Watched σ) (s : σ) (events : List RunEvent) : Watched σ :=
  { w with store := s, backlog := events.foldl Backlog.push w.backlog }

variable (step : σ → (op : StoreOp) → Except StoreError op.Reply × σ)

/-- How the questions of the keeper are answered at a time. -/
def keep (now : Instant) : (q : KeeperAsk) → Watched σ → q.Answer × Watched σ
  | .clock, w => (now, w)
  | .store op, w => ((step w.store op).1, { w with store := (step w.store op).2 })
  | .watched, w => (true, w)
  | .announce event, w => ((), { w with backlog := w.backlog.push event })

/-- The keeper runs an errand, or the observer receives something. -/
inductive Act where
  | errand (e : Errand) (now : Instant)
  | receive

def Act.ops : Act → List StoreOp
  | .errand e now => [e.op now]
  | .receive => []

def act (w : Watched σ) : Act → Watched σ
  | .errand e now => ((e.program now).run (keep step now) w).2
  | .receive => w.receive

def after (w : Watched σ) (acts : List Act) : Watched σ := acts.foldl (act step) w

/-- The observer has heard, or can still hear, what the chronicle of the operations has, and nothing
else; and the store is the one that they lead to. -/
structure Hears (s : σ) (acts : List Act) (w : Watched σ) : Prop where
  store : w.store = History.after step s (acts.flatMap Act.ops)
  events : ∀ events, Chronicle step s (acts.flatMap Act.ops) events ↔ events = w.told

end Watched

/-! ## Chronicles -/

section

variable {σ : Type} {step : σ → (op : StoreOp) → Except StoreError op.Reply × σ} {s : σ}
  {ops ops' : List StoreOp} {events events' : List RunEvent}

theorem Tells.rightUnique : Relator.RightUnique (Tells step s) := by
  rintro what ⟨kind, record⟩ ⟨kind', record'⟩ ⟨hkind, hrecord⟩ ⟨hkind', hrecord'⟩
  obtain rfl : kind = kind' := hkind.trans hkind'.symm
  obtain rfl : record = record' := Option.some.inj (Except.ok.inj (hrecord.symm.trans hrecord'))
  rfl

/-- There is one way to tell of operations. -/
theorem Chronicle.unique (h : Chronicle step s ops events) (h' : Chronicle step s ops events') :
    events = events' := by
  induction h generalizing events' with
  | nil =>
    cases h'
    rfl
  | cons htells _ ih =>
    cases h' with
    | cons htells' hrest' =>
      rw [List.right_unique_forall₂' Tells.rightUnique htells htells', ih hrest']

theorem Chronicle.append (h : Chronicle step s ops events)
    (h' : Chronicle step (History.after step s ops) ops' events') :
    Chronicle step s (ops ++ ops') (events ++ events') := by
  induction h with
  | nil => exact h'
  | cons htells _ ih =>
    rw [List.append_assoc]
    exact .cons htells (ih h')

theorem Chronicle.single {op : StoreOp}
    (h : List.Forall₂ (Tells step (step s op).2) (op.due (step s op).1) events) :
    Chronicle step s [op] events := by
  have hchronicle := Chronicle.cons h (.nil _)
  rwa [List.append_nil] at hchronicle

end

/-! ## Keeping events -/

namespace Backlog

variable {b : Backlog} {event : RunEvent} {events : List RunEvent}

theorem push_of_lost (h : (b.push event).lost = 0) :
    b.lost = 0 ∧ (b.push event).waiting = b.waiting ++ [event] := by
  unfold push at h ⊢
  split
  · next hroom =>
    rw [if_pos hroom] at h
    exact ⟨h, rfl⟩
  · next hfull =>
    rw [if_neg hfull] at h
    cases h

/-- Where nothing is lost in the end, nothing was lost before, and all events wait. -/
theorem foldl_push_of_lost (h : (events.foldl push b).lost = 0) :
    b.lost = 0 ∧ (events.foldl push b).waiting = b.waiting ++ events := by
  induction events generalizing b with
  | nil => exact ⟨h, (List.append_nil _).symm⟩
  | cons event events ih =>
    obtain ⟨hlost, hwaiting⟩ := ih h
    obtain ⟨hlost, hpush⟩ := push_of_lost hlost
    refine ⟨hlost, ?_⟩
    rw [List.foldl_cons, hwaiting, hpush, List.append_assoc]
    rfl

end Backlog

/-- The events that a rehearsed host keeps for its subscriber. -/
def Rehearsal.World.backlog (w : Rehearsal.World) : Backlog := ⟨w.capacity, w.events, w.lost⟩

/-- A rehearsed host keeps its events in the same way. -/
theorem Rehearsal.World.backlog_announce (w : Rehearsal.World) (event : RunEvent) :
    (w.announce event).backlog = w.backlog.push event := by
  unfold announce backlog Backlog.push
  split <;> rfl

namespace Watched

variable {σ : Type} {step : σ → (op : StoreOp) → Except StoreError op.Reply × σ}
  {Sound : σ → Prop} {Fits : StoreOp → Prop} {w : Watched σ} {s : σ} {c : CollectionId}
    {run : RunId}
  {now : Instant}

/-! ## Errands -/

theorem run_now : Keeper.now.run (keep step now) w = (now, w) := rfl

theorem run_perform {op : StoreOp} {answer : Except StoreError op.Reply}
    (h : step w.store op = (answer, s)) :
    (Keeper.perform op).run (keep step now) w =
      (answer.mapError RunError.ofStore, { w with store := s }) := by
  refine Keeper.run_perform ?_
  rw [keep, h]

/-- Reading a record leaves everything as it is. -/
theorem run_get (hreads : ReadsBack step Sound Fits) {r : Record}
    (hr : (step w.store (.get c)).1 = .ok (some r)) :
    (Keeper.get c).run (keep step now) w = (.ok (some r), w) :=
  run_perform (Prod.ext hr (hreads.leaves w.store c))

theorem run_announceEnds (hreads : ReadsBack step Sound Fits) {cs : List CollectionId}
    (hfound : ∀ c ∈ cs, ∃ r, (step w.store (.get c)).1 = .ok (some r)) :
    ∃ events, List.Forall₂ (Tells step w.store) (cs.map (EventKind.terminal, ·)) events ∧
      (Keeper.announceEnds cs).run (keep step now) w = (.ok (), w.announced w.store events) := by
  induction cs generalizing w with
  | nil => exact ⟨[], .nil, rfl⟩
  | cons c cs ih =>
    obtain ⟨r, hr⟩ := hfound c List.mem_cons_self
    obtain ⟨events, htells, hrun⟩ := @ih { w with backlog := w.backlog.push ⟨.terminal, r⟩ }
      fun d hd => hfound d (List.mem_cons_of_mem c hd)
    refine ⟨⟨.terminal, r⟩ :: events, .cons ⟨rfl, hr⟩ htells, ?_⟩
    rw [Keeper.announceEnds, Program.run_bind, run_get hreads hr]
    exact hrun

theorem run_writeProgress (hreads : ReadsBack step Sound Fits) {p : Progress}
    {answer : Except StoreError ProgressOutcome}
    (hstep : step w.store (.updateProgress c run p now) = (answer, s))
    (hfound : ∀ what ∈ StoreOp.due (.updateProgress c run p now) answer,
      ∃ r, (step s (.get what.2)).1 = .ok (some r)) :
    ∃ events,
      List.Forall₂ (Tells step s) (StoreOp.due (.updateProgress c run p now) answer) events ∧
      (Keeper.writeProgress c run p).run (keep step now) w =
        (answer.mapError RunError.ofStore, w.announced s events) := by
  rw [Keeper.writeProgress, Program.run_bind, run_now, Program.run_bind, run_perform hstep]
  match answer with
  | .error e => exact ⟨[], .nil, rfl⟩
  | .ok .discarded => exact ⟨[], .nil, rfl⟩
  | .ok .applied =>
    obtain ⟨r, hr⟩ := hfound _ (List.mem_singleton_self _)
    have hget : (Keeper.get c).run (keep step now) { w with store := s } =
        (.ok (some r), { w with store := s }) := run_get hreads hr
    have hwatched : (Program.question KeeperAsk.watched : Keeping Bool).run (keep step now)
        { w with store := s } = (true, { w with store := s }) := rfl
    refine ⟨[⟨.progress, r⟩], .cons ⟨rfl, hr⟩ .nil, ?_⟩
    dsimp only [Except.mapError]
    rw [Program.run_bind, hwatched]
    dsimp only
    rw [if_pos rfl, Program.run_bind, hget]
    rfl

theorem run_finish {report : RunReport} {answer : Except StoreError Record}
    (hstep : step w.store (.finish c run report now) = (answer, s))
    (hends : ∀ r, answer = .ok r → (step s (.get c)).1 = .ok (some r)) :
    ∃ events, List.Forall₂ (Tells step s) (StoreOp.due (.finish c run report now) answer) events ∧
      (Keeper.finish c run report).run (keep step now) w =
        (answer.mapError RunError.ofStore, w.announced s events) := by
  rw [Keeper.finish, Program.run_bind, run_now, Program.run_bind, run_perform hstep]
  match answer with
  | .error e => exact ⟨[], .nil, rfl⟩
  | .ok r => exact ⟨[⟨.terminal, r⟩], .cons ⟨rfl, hends r rfl⟩ .nil, rfl⟩

theorem run_recover (hreads : ReadsBack step Sound Fits) {staleBefore : Instant} {reason : String}
    {answer : Except StoreError (List CollectionId)}
    (hstep : step w.store (.recover staleBefore reason now) = (answer, s))
    (hfound : ∀ what ∈ StoreOp.due (.recover staleBefore reason now) answer,
      ∃ r, (step s (.get what.2)).1 = .ok (some r)) :
    ∃ events,
      List.Forall₂ (Tells step s) (StoreOp.due (.recover staleBefore reason now) answer) events ∧
      (Keeper.recover staleBefore reason).run (keep step now) w =
        (answer.mapError RunError.ofStore, w.announced s events) := by
  rw [Keeper.recover, Program.run_bind, run_now, Program.run_bind, run_perform hstep]
  match answer with
  | .error e => exact ⟨[], .nil, rfl⟩
  | .ok recovered =>
    obtain ⟨events, htells, hrun⟩ :=
      @run_announceEnds σ step Sound Fits { w with store := s } now hreads
      recovered fun c hc => hfound _ (List.mem_map_of_mem hc)
    refine ⟨events, htells, ?_⟩
    dsimp only [Except.mapError]
    rw [Program.run_bind, hrun]
    rfl

/-- An errand comes to its operation, with the answer of the store, and announces what is due. -/
theorem run_program (hreads : ReadsBack step Sound Fits) (hsound : Sound w.store) (e : Errand)
    (hfits : Fits (e.op now)) :
    ∃ events,
      List.Forall₂ (Tells step (step w.store (e.op now)).2)
        ((e.op now).due (step w.store (e.op now)).1)
        events ∧
      (e.program now).run (keep step now) w =
        ((step w.store (e.op now)).1.mapError RunError.ofStore,
          w.announced (step w.store (e.op now)).2 events) := by
  have hfound : ∀ what ∈ (e.op now).due (step w.store (e.op now)).1,
      ∃ r, (step (step w.store (e.op now)).2 (.get what.2)).1 = .ok (some r) :=
    fun what hwhat => hreads.finds hsound hfits (StoreOp.wrote_of_mem_due hwhat)
  cases e with
  | claim c run => exact ⟨[], .nil, rfl⟩
  | requestCancel c => exact ⟨[], .nil, rfl⟩
  | writeProgress c run p => exact run_writeProgress hreads rfl hfound
  | finish c run report => exact run_finish rfl fun r => hreads.ends hsound
  | recover staleBefore reason => exact run_recover hreads rfl hfound

/-! ## Histories -/

/-- The store and what the observer is told have gone on by these operations. -/
structure GoesOn (step : σ → (op : StoreOp) → Except StoreError op.Reply × σ) (w : Watched σ)
    (ops : List StoreOp) (w' : Watched σ) : Prop where
  store : w'.store = History.after step w.store ops
  told : ∃ events, Chronicle step w.store ops events ∧
    (w'.backlog.lost = 0 → w.backlog.lost = 0 ∧ w'.told = w.told ++ events)

variable {w' w'' : Watched σ} {ops ops' : List StoreOp}

theorem GoesOn.refl (w : Watched σ) : GoesOn step w [] w :=
  ⟨rfl, [], .nil _, fun h => ⟨h, (List.append_nil _).symm⟩⟩

theorem GoesOn.trans (h : GoesOn step w ops w') (h' : GoesOn step w' ops' w'') :
    GoesOn step w (ops ++ ops') w'' := by
  obtain ⟨hstore, events, hchronicle, htold⟩ := h
  obtain ⟨hstore', events', hchronicle', htold'⟩ := h'
  rw [hstore] at hstore' hchronicle'
  refine ⟨hstore'.trans (History.after_append ..).symm, events ++ events',
    hchronicle.append hchronicle', fun hlost => ?_⟩
  obtain ⟨hlost, heq'⟩ := htold' hlost
  obtain ⟨hlost, heq⟩ := htold hlost
  refine ⟨hlost, ?_⟩
  rw [heq', heq, List.append_assoc]

theorem goesOn_errand (hreads : ReadsBack step Sound Fits) (hsound : Sound w.store) (e : Errand)
    (hfits : Fits (e.op now)) : GoesOn step w [e.op now] (w.act step (.errand e now)) := by
  obtain ⟨events, htells, hrun⟩ := run_program hreads hsound e hfits
  have hact : w.act step (.errand e now) = w.announced (step w.store (e.op now)).2 events :=
    congrArg Prod.snd hrun
  rw [hact]
  refine ⟨rfl, events, .single htells, fun hlost => ?_⟩
  obtain ⟨hlost, hwaiting⟩ := Backlog.foldl_push_of_lost hlost
  refine ⟨hlost, ?_⟩
  simp only [Watched.told, announced, hwaiting, List.append_assoc]

/-- What is received is no longer waiting. -/
theorem goesOn_receive (w : Watched σ) : GoesOn step w [] w.receive := by
  unfold receive
  split
  · exact .refl w
  · next event rest hwaiting =>
    refine ⟨rfl, [], .nil _, fun hlost => ⟨hlost, ?_⟩⟩
    simp only [Watched.told, hwaiting, List.append_assoc, List.append_nil]
    rfl

/-- A history of errands goes on by their operations. -/
theorem goesOn_after (hreads : ReadsBack step Sound Fits) {acts : List Act} (hsound : Sound w.store)
    (hfits : ∀ op ∈ acts.flatMap Act.ops, Fits op) :
    GoesOn step w (acts.flatMap Act.ops) (w.after step acts) := by
  induction acts generalizing w with
  | nil => exact .refl w
  | cons a acts ih =>
    rw [List.flatMap_cons] at hfits ⊢
    have hlater : ∀ op ∈ acts.flatMap Act.ops, Fits op :=
      fun op h => hfits op (List.mem_append_right _ h)
    cases a with
    | errand e now =>
      have hfit : Fits (e.op now) := hfits _ List.mem_cons_self
      have hfirst := goesOn_errand hreads hsound e hfit
      refine hfirst.trans (ih ?_ hlater)
      rw [hfirst.store]
      exact hreads.keeps hsound hfit
    | receive =>
      have hfirst : GoesOn step w [] (w.act step .receive) := goesOn_receive w
      refine hfirst.trans (ih ?_ hlater)
      rw [hfirst.store]
      exact hsound

/-- Whoever has missed nothing since the start has heard the chronicle of the history. -/
theorem hears_of_readsBack (hreads : ReadsBack step Sound Fits) {acts : List Act} {capacity : Nat}
    (hsound : Sound s) (hfits : ∀ op ∈ acts.flatMap Act.ops, Fits op)
    (hlost : ((opened s capacity).after step acts).backlog.lost = 0) :
    Hears step s acts ((opened s capacity).after step acts) := by
  have hgoes := goesOn_after (w := opened s capacity) hreads hsound hfits
  obtain ⟨hstore, events, hchronicle, htold⟩ := hgoes
  refine ⟨hstore, fun events' => ?_⟩
  obtain ⟨-, htold⟩ := htold hlost
  rw [htold]
  constructor
  · exact fun h => h.unique hchronicle
  · rintro rfl
    exact hchronicle

/-- An observer from the start that loses nothing has heard one event for each accepted write of
counters, each accepted end and each recovered record, in the order of the operations and, for one
recovery, of its answer, with the records as the operations have left them. It has heard no other
event, whether records are kept in memory or in a table. -/
theorem observer_hears_chronicle (acts : List Act) (capacity : Nat) :
    (∀ m : Memory, ((opened m capacity).after Memory.run acts).backlog.lost = 0 →
      Hears Memory.run m acts ((opened m capacity).after Memory.run acts)) ∧
    ∀ db : Database, db.Legible → (∀ op ∈ acts.flatMap Act.ops, op.Writable) →
      ((opened db capacity).after Database.run acts).backlog.lost = 0 →
      Hears Database.run db acts ((opened db capacity).after Database.run acts) :=
  ⟨fun _ hlost => hears_of_readsBack Memory.readsBack trivial (fun _ _ => trivial) hlost,
    fun _ hlegible hfits hlost => hears_of_readsBack Database.readsBack hlegible hfits hlost⟩

namespace Morning

def docs : CollectionId := ⟨"docs"⟩

def mail : CollectionId := ⟨"mail"⟩

def report : RunReport where
  status := .completed
  progress := ⟨2, 0, 2, ""⟩
  failures := []
  tokens := .empty
  error := none

/-- A run that counts, is cancelled and ends, with a write and an end in between that are not
accepted, and another run that is recovered. -/
def acts : List Act :=
  [.errand (.claim docs ⟨1⟩) ⟨60, 0⟩, .errand (.claim mail ⟨2⟩) ⟨61, 0⟩,
    .errand (.writeProgress docs ⟨1⟩ ⟨1, 0, 2, "a"⟩) ⟨62, 0⟩, .receive,
    .errand (.writeProgress docs ⟨1⟩ ⟨0, 0, 2, "a"⟩) ⟨63, 0⟩,
    .errand (.finish docs ⟨2⟩ report) ⟨64, 0⟩, .errand (.requestCancel docs) ⟨65, 0⟩,
    .errand (.finish docs ⟨1⟩ report) ⟨66, 0⟩, .errand (.recover ⟨70, 0⟩ "gone") ⟨71, 0⟩]

/-- What has become of the acts with records in memory. -/
def inMemory : Watched Memory := (opened .empty 2).after Memory.run acts

/-- What has become of them with records in a table. -/
def inTable : Watched Database := (opened (.ofRecords []) 2).after Database.run acts

/-- The events in short. -/
def summary (events : List RunEvent) : List (EventKind × CollectionId × Status) :=
  events.map fun event => (event.kind, event.record.collection, event.record.status)

end Morning

/-- Three events of that morning, the first of them received and two still waiting. -/
theorem observer_hears_chronicle_morning :
    (Morning.inMemory.backlog.lost = 0 ∧ Hears Memory.run .empty Morning.acts Morning.inMemory) ∧
    ((Database.ofRecords []).Legible ∧ (∀ op ∈ Morning.acts.flatMap Act.ops, op.Writable) ∧
      Morning.inTable.backlog.lost = 0 ∧
      Hears Database.run (.ofRecords []) Morning.acts Morning.inTable) ∧
    Morning.summary Morning.inMemory.told =
      [(.progress, Morning.docs, .syncing), (.terminal, Morning.docs, .cancelled),
        (.terminal, Morning.mail, .failed)] := by
  have hmemory : Morning.inMemory.backlog.lost = 0 := by decide +kernel
  have htable : Morning.inTable.backlog.lost = 0 := by decide +kernel
  have hwritable : ∀ op ∈ Morning.acts.flatMap Act.ops, op.Writable := by decide +kernel
  have hlegible : (Database.ofRecords []).Legible := Database.legible_ofRecords .nil nofun
  have hhears := observer_hears_chronicle Morning.acts 2
  exact ⟨⟨hmemory, hhears.1 _ hmemory⟩,
    ⟨hlegible, hwritable, htable, hhears.2 _ hlegible hwritable htable⟩,
    by decide +kernel⟩

end Watched

end CollectionSync
