import CollectionSync.Proofs.Program
import CollectionSync.Proofs.Store.Fencing
import CollectionSync.Run.Keeper

/-! # What the announcement of a write tells

The write of a run's counters and the read whose result is announced are two operations of the
store. Other writes of the run, a cancellation, a recovery or the next run may come in between, and
the announcement tells of the record as they have left it. -/

namespace CollectionSync.Announcing

open History
open Program (Asks Follows ask)

/-- A question of the keeper with the answer to it. -/
abbrev KeeperHeard := Heard KeeperAsk.Answer

/-- A call that writes counters of a run, with what it has heard. -/
structure Writing where
  collection : CollectionId
  run : RunId
  progress : Progress
  heard : List KeeperHeard

namespace Writing

def program (w : Writing) : Keeping (Except RunError ProgressOutcome) :=
  Keeper.writeProgress w.collection w.run w.progress

/-- The first of the two operations that the call asks of the store. -/
def update (w : Writing) (now : Instant) : StoreOp :=
  .updateProgress w.collection w.run w.progress now

def Announces (w : Writing) (event : RunEvent) : Prop :=
  (⟨.announce event, ()⟩ : KeeperHeard) ∈ w.heard

end Writing

/-- Calls that write counters side by side, and all that the store was asked, the first operation
first. -/
structure Desk where
  log : List StoreOp
  calls : List Writing

section

variable {σ : Type} (step : σ → (op : StoreOp) → Except StoreError op.Reply × σ) (s₀ : σ)

/-- How a question of the keeper is answered where these operations have led from the first store,
and the operations with it. -/
inductive Answers : (q : KeeperAsk) → q.Answer → List StoreOp → List StoreOp → Prop
  | store (op : StoreOp) (log : List StoreOp) :
    Answers (.store op) (step (after step s₀ log) op).1 log (log ++ [op])
  | clock (now : Instant) (log : List StoreOp) : Answers .clock now log log
  | watched (anyone : Bool) (log : List StoreOp) : Answers .watched anyone log log
  | announce (event : RunEvent) (log : List StoreOp) : Answers (.announce event) () log log

/-- A call begins or goes on by one question, or the store is asked by somebody else. -/
inductive Desk.Step : Desk → Desk → Prop
  | begins {d : Desk} (c : CollectionId) (run : RunId) (p : Progress) :
    Step d { d with calls := d.calls ++ [⟨c, run, p, []⟩] }
  | call {d : Desk} {before after : List Writing} {w : Writing} {q : KeeperAsk}
      {next : q.Answer → Keeping (Except RunError ProgressOutcome)} {a : q.Answer}
      {log : List StoreOp} :
    d.calls = before ++ w :: after → Follows w.program w.heard (ask q next) →
    Answers step s₀ q a d.log log →
    Step d ⟨log, before ++ { w with heard := w.heard ++ [⟨q, a⟩] } :: after⟩
  | other {d : Desk} (op : StoreOp) : op.isOfRuns = true → Step d { d with log := d.log ++ [op] }

inductive Desk.Reachable : Desk → Prop
  | start : Reachable ⟨[], []⟩
  | step {d d' : Desk} : Reachable d → Step step s₀ d d' → Reachable d'

/-- A call has heard these answers, at the places in the log where its operations stand. -/
inductive Woven : List KeeperHeard → List StoreOp → Prop
  | nil : Woven [] []
  | heard {h : List KeeperHeard} {q : KeeperAsk} {a : q.Answer} {log log' : List StoreOp} :
    Woven h log → Answers step s₀ q a log log' → Woven (h ++ [⟨q, a⟩]) log'
  | other {h : List KeeperHeard} {log : List StoreOp} (op : StoreOp) :
    Woven h log → Woven h (log ++ [op])

end

/-! ## A single call -/

section

variable {c : CollectionId} {run : RunId} {p : Progress} {h : List KeeperHeard}
  {r : Keeping (Except RunError ProgressOutcome)}

/-- A question that keeps to what runs ask of the store. -/
def IsOfRuns : KeeperAsk → Prop
  | .store op => op.isOfRuns = true
  | _ => True

theorem writeProgress_asks : (Keeper.writeProgress c run p).Asks IsOfRuns := by
  refine Asks.bind (Asks.question trivial) fun now => ?_
  refine Asks.bind (Asks.bind (Asks.question rfl) fun _ => Asks.pure _) fun outcome => ?_
  split
  · exact Asks.pure _
  · exact Asks.pure _
  refine Asks.bind (Asks.question trivial) fun anyone => ?_
  split
  · refine Asks.bind (Asks.bind (Asks.question rfl) fun _ => Asks.pure _) fun found => ?_
    split
    · exact Asks.pure _
    · exact Asks.pure _
    · exact Asks.bind (Asks.question trivial) fun _ => Asks.pure _
  · exact Asks.pure _

/-- What a call has heard that has announced something. -/
theorem heard_of_announced {event : RunEvent} (hf : Follows (Keeper.writeProgress c run p) h r)
    (he : (⟨.announce event, ()⟩ : KeeperHeard) ∈ h) :
    event.kind = .progress ∧ ∃ now : Instant,
      h = [⟨.clock, now⟩, ⟨.store (.updateProgress c run p now), .ok .applied⟩, ⟨.watched, true⟩,
        ⟨.store (.get c), .ok (some event.record)⟩, ⟨.announce event, ()⟩] := by
  unfold Keeper.writeProgress at hf
  obtain _ | ⟨now, _ | ⟨outcome, hf⟩⟩ := hf
  · cases he
  · simp at he
  obtain e | _ | _ := outcome
  · cases hf
    simp at he
  · -- the write was accepted
    obtain _ | ⟨anyone, hf⟩ := hf
    · simp at he
    cases anyone with
    | false =>
      cases hf
      simp at he
    | true =>
      obtain _ | ⟨found, hf⟩ := hf
      · simp at he
      obtain e | _ | record := found
      · cases hf
        simp at he
      · cases hf
        simp at he
      · obtain _ | ⟨_, hf⟩ := hf
        · simp at he
        cases hf
        obtain rfl : event = ⟨.progress, record⟩ := by simpa using he
        exact ⟨rfl, now, rfl⟩
  · cases hf
    simp at he

end

/-! ## Calls side by side -/

section

variable {σ : Type} {step : σ → (op : StoreOp) → Except StoreError op.Reply × σ} {s₀ : σ} {d : Desk}
  {w : Writing} {h : List KeeperHeard} {q : KeeperAsk} {a : q.Answer} {log log' : List StoreOp}

/-- Of a question that is answered, at most an operation that runs may ask for is left in the
log. -/
theorem Answers.log_eq (ha : Answers step s₀ q a log log') (hq : IsOfRuns q) :
    log' = log ∨ ∃ op : StoreOp, op.isOfRuns = true ∧ log' = log ++ [op] := by
  cases ha with
  | store op => exact .inr ⟨op, hq, rfl⟩
  | clock | watched | announce => exact .inl rfl

/-- Where the last answer was given, and what has been asked of the store since. -/
theorem Woven.unsnoc (hw : Woven step s₀ (h ++ [⟨q, a⟩]) log) :
    ∃ log₁ log₂ later, log = log₂ ++ later ∧ Woven step s₀ h log₁ ∧
    Answers step s₀ q a log₁ log₂ := by
  generalize hl : h ++ [(⟨q, a⟩ : KeeperHeard)] = l at hw
  induction hw with
  | nil => simp at hl
  | @heard h' q' a' log₁ log₂ hw ha _ =>
    obtain ⟨rfl, heq⟩ := List.append_inj' hl rfl
    cases heq
    exact ⟨log₁, log₂, [], (List.append_nil log₂).symm, hw, ha⟩
  | other op _ ih =>
    obtain ⟨log₁, log₂, later, rfl, hw, ha⟩ := ih hl
    exact ⟨log₁, log₂, later ++ [op], List.append_assoc .., hw, ha⟩

/-- An answer of the store was given where its operation stands in the log. -/
theorem Woven.answered {op : StoreOp} {answer : Except StoreError op.Reply}
    (hw : Woven step s₀ (h ++ [⟨.store op, answer⟩]) log) :
    ∃ before later, log = before ++ op :: later ∧ Woven step s₀ h before ∧
      (step (after step s₀ before) op).1 = answer := by
  obtain ⟨before, _, later, rfl, hbefore, ha⟩ := hw.unsnoc
  cases ha
  exact ⟨before, later, List.append_assoc .., hbefore, rfl⟩

theorem Woven.unheard (hw : Woven step s₀ (h ++ [⟨q, a⟩]) log) (hq : ∀ op, q ≠ .store op) :
    ∃ before later, log = before ++ later ∧ Woven step s₀ h before := by
  obtain ⟨before, log₂, later, rfl, hbefore, ha⟩ := hw.unsnoc
  cases ha with
  | store op => exact absurd rfl (hq op)
  | clock | watched | announce => exact ⟨before, later, rfl, hbefore⟩

/-- What a desk that can come about keeps to. -/
structure Desk.Kept (step : σ → (op : StoreOp) → Except StoreError op.Reply × σ) (s₀ : σ)
    (d : Desk) :
    Prop where
  log : ∀ op ∈ d.log, op.isOfRuns = true
  quiet : Woven step s₀ [] d.log
  calls : ∀ w ∈ d.calls, Woven step s₀ w.heard d.log ∧ ∃ r, Follows w.program w.heard r

theorem Desk.Kept.other (hd : d.Kept step s₀) {op : StoreOp} (hop : op.isOfRuns = true) :
    Desk.Kept step s₀ { d with log := d.log ++ [op] } where
  log := by
    intro op' hop'
    rcases List.mem_append.mp hop' with hop' | hop'
    · exact hd.log op' hop'
    · rwa [List.mem_singleton.mp hop']
  quiet := hd.quiet.other op
  calls w hw := ⟨(hd.calls w hw).1.other op, (hd.calls w hw).2⟩

theorem Desk.kept_of_reachable (hr : d.Reachable step s₀) : d.Kept step s₀ := by
  induction hr with
  | start => exact ⟨nofun, .nil, nofun⟩
  | @step d d' hr hs ih =>
    cases hs with
    | begins c run p =>
      refine ⟨ih.log, ih.quiet, fun w hw => ?_⟩
      rcases List.mem_append.mp hw with hw | hw
      · exact ih.calls w hw
      · cases List.mem_singleton.mp hw
        exact ⟨ih.quiet, _, .refl _⟩
    | @call before after w q next a log hcalls hf ha =>
      have hq : IsOfRuns q := (writeProgress_asks.of_follows hf).2.1
      have hmem : w ∈ d.calls := hcalls ▸ List.mem_append_right before List.mem_cons_self
      have hheard := (ih.calls w hmem).1.heard ha
      -- to everybody else the step is an operation of others, if it is one
      have hothers : Desk.Kept step s₀ { d with log := log } := by
        rcases ha.log_eq hq with rfl | ⟨op, hop, rfl⟩
        · exact ih
        · exact ih.other hop
      refine ⟨hothers.log, hothers.quiet, fun w' hw' => ?_⟩
      rcases List.mem_append.mp hw' with hw' | hw'
      · exact hothers.calls w' (hcalls ▸ List.mem_append_left _ hw')
      rcases List.mem_cons.mp hw' with rfl | hw'
      · exact ⟨hheard, _, Program.follows_concat.mpr ⟨next, hf, rfl⟩⟩
      · exact hothers.calls w' (hcalls ▸ List.mem_append_right _ (List.mem_cons_of_mem w hw'))
    | other op hop => exact ih.other hop

/-- The write was accepted where the log had come to `before`, and its record read again with the
operations `between` in between. -/
structure Reread (step : σ → (op : StoreOp) → Except StoreError op.Reply × σ) (s₀ : σ) (w : Writing)
    (record : Record) (now : Instant) (before between : List StoreOp) : Prop where
  accepted : (step (after step s₀ before) (w.update now)).1 =
    (.ok .applied : Except _ ProgressOutcome)
  ofRuns : ∀ op ∈ between, op.isOfRuns = true
  found : (step (after step s₀ (before ++ w.update now :: between)) (.get w.collection)).1 =
    .ok (some record)

/-- What is announced of a write was read again after it, whatever store it is. -/
theorem reread_of_announced (hr : d.Reachable step s₀) (hw : w ∈ d.calls) {event : RunEvent}
    (he : w.Announces event) : event.kind = .progress ∧ ∃ now before between later,
      d.log = before ++ w.update now :: (between ++ .get w.collection :: later) ∧
      Reread step s₀ w event.record now before between := by
  have hkept := Desk.kept_of_reachable hr
  obtain ⟨hwoven, r, hf⟩ := hkept.calls w hw
  obtain ⟨hkind, now, hheard⟩ := heard_of_announced hf he
  have hsplit : w.heard = [⟨.clock, now⟩] ++ [⟨.store (w.update now), .ok .applied⟩] ++
      [⟨.watched, true⟩] ++ [⟨.store (.get w.collection), .ok (some event.record)⟩] ++
      [⟨.announce event, ()⟩] := hheard
  rw [hsplit] at hwoven
  obtain ⟨log₄, later, hlog₄, hwoven⟩ := hwoven.unheard nofun
  obtain ⟨log₃, later', hlog₃, hwoven, hfound⟩ := hwoven.answered
  obtain ⟨log₂, between', hlog₂, hwoven⟩ := hwoven.unheard nofun
  obtain ⟨before, between, hlog₁, -, haccepted⟩ := hwoven.answered
  subst hlog₂ hlog₁ hlog₃
  have hlog : d.log = before ++ w.update now ::
      (between ++ between' ++ .get w.collection :: (later' ++ later)) := by
    rw [hlog₄]
    simp only [List.append_assoc, List.cons_append]
  refine ⟨hkind, now, before, between ++ between', later' ++ later, hlog, haccepted, ?_, ?_⟩
  · intro op hop
    refine hkept.log op ?_
    rw [hlog]
    exact List.mem_append_right _ (List.mem_cons_of_mem _ (List.mem_append_left _ hop))
  · rw [← hfound, List.append_assoc, List.cons_append]

theorem Answers.reply {op : StoreOp} {answer : Except StoreError op.Reply}
    (h : (step (after step s₀ log) op).1 = answer) :
    Answers step s₀ (.store op) answer log (log ++ [op]) := h ▸ .store op log

theorem Desk.Reachable.others (hr : d.Reachable step s₀) {ops : List StoreOp}
    (hops : ∀ op ∈ ops, op.isOfRuns = true) :
    Desk.Reachable step s₀ { d with log := d.log ++ ops } := by
  induction ops generalizing d with
  | nil => rwa [List.append_nil]
  | cons op ops ih =>
    have hfirst := hr.step (.other op (hops op List.mem_cons_self))
    have hall := ih hfirst fun op' h => hops op' (List.mem_cons_of_mem op h)
    rwa [List.append_assoc] at hall

/-- A desk with a single call, and where the call has come to. -/
structure Desk.Comes (step : σ → (op : StoreOp) → Except StoreError op.Reply × σ) (s₀ : σ)
    (w : Writing) (log : List StoreOp) (r : Keeping (Except RunError ProgressOutcome)) : Prop where
  reachable : Desk.Reachable step s₀ ⟨log, [w]⟩
  follows : Follows w.program w.heard r

theorem Desk.Comes.hear {next : q.Answer → Keeping (Except RunError ProgressOutcome)}
    (hd : Desk.Comes step s₀ w log (ask q next)) (ha : Answers step s₀ q a log log') :
    Desk.Comes step s₀ { w with heard := w.heard ++ [⟨q, a⟩] } log' (next a) :=
  have hstep := @Desk.Step.call σ step s₀ ⟨log, [w]⟩ [] [] w q next a log' rfl hd.follows ha
  ⟨hd.reachable.step hstep, Program.follows_concat.mpr ⟨next, hd.follows, rfl⟩⟩

/-- What is read again of a write can be announced, whatever comes in between. -/
theorem Desk.comes_about {record : Record} {now : Instant} {before between : List StoreOp}
    (hreread : Reread step s₀ w record now before between)
    (hbefore : ∀ op ∈ before, op.isOfRuns = true) :
    ∃ d w', Desk.Reachable step s₀ d ∧ w' ∈ d.calls ∧
      (w'.collection, w'.run, w'.progress) = (w.collection, w.run, w.progress) ∧
      w'.Announces ⟨.progress, record⟩ := by
  have hstart : Desk.Comes step s₀ { w with heard := [] } before w.program :=
    ⟨(Reachable.start.others hbefore).step (.begins w.collection w.run w.progress), .refl _⟩
  have hwritten := (hstart.hear (.clock now _)).hear (.reply hreread.accepted)
  have hwatched := hwritten.hear (.watched true _)
  have hothers := hwatched.reachable.others hreread.ofRuns
  have hlog : before ++ [w.update now] ++ between = before ++ w.update now :: between :=
    List.append_assoc ..
  have hbetween : Desk.Comes step s₀ _ (before ++ w.update now :: between) _ :=
    ⟨hlog ▸ hothers, hwatched.follows⟩
  have hread := (hbetween.hear (.reply hreread.found)).hear (.announce ⟨.progress, record⟩ _)
  exact ⟨_, _, hread.reachable, List.mem_singleton_self _, rfl,
    List.mem_append_right _ List.mem_cons_self⟩

end

/-! ## Records of a memory -/

section

variable {s₀ m : Memory} {c : CollectionId} {run : RunId} {p : Progress} {d : Desk} {w : Writing}
  {record : Record} {now : Instant} {before between ops : List StoreOp}

/-- While the record is the run's and syncing, its counters stand at least as far as these. -/
def AtLeast (run : RunId) (p : Progress) (found : Option Record) : Prop :=
  ∀ r ∈ found, r.status = .syncing → r.run = some run →
    ¬ r.progress.processed + r.progress.failed < p.processed + p.failed

theorem AtLeast.step {op : StoreOp} {answer : Except StoreError op.Reply}
    {found found' : Option Record}
    (h : AtLeast run p found) (hmoves : Moves c op answer found found') (hop : op.isOfRuns = true)
    (hclaim : op.claims? c ≠ some run) : AtLeast run p found' := by
  intro r' hr' hs hrun
  cases hmoves with
  | kept => exact h r' hr' hs hrun
  | moved => cases hop
  | claimed =>
    cases hr'
    exact absurd ((if_pos rfl).trans hrun) hclaim
  | @counted r _ p' _ hs hrun' hback =>
    cases hr'
    have hleast := h r rfl hs hrun
    show ¬ p'.processed + p'.failed < p.processed + p.failed
    omega
  | cancelled | interrupted =>
    cases hr'
    cases hs
  | closed _ hterminal =>
    cases hr'
    exact absurd hs (Status.resolve_ne_syncing _ hterminal)

theorem AtLeast.after (h : AtLeast run p (m.get c)) (hops : ∀ op ∈ ops, op.isOfRuns = true)
    (hclaims : run ∉ ops.filterMap (·.claims? c)) :
    AtLeast run p ((after Memory.run m ops).get c) :=
  after_induction Memory.run (P := fun m => AtLeast run p (m.get c)) h fun op hmem m hm =>
    hm.step (m.moves_run op c) (hops op hmem) fun hc =>
      hclaims (List.mem_filterMap.mpr ⟨op, hmem, hc⟩)

/-- A record that no operation writes stays as it is. -/
theorem get_after_unwritten (hnone : ∀ a ∈ answers Memory.run m ops, ¬ a.1.Wrote c a.2) :
    (after Memory.run m ops).get c = m.get c := by
  induction ops generalizing m with
  | nil => rfl
  | cons op ops ih =>
    have hfirst := (m.moves_run op c).unchanged (hnone ⟨op, _⟩ List.mem_cons_self)
    exact (ih fun a ha => hnone a (List.mem_cons_of_mem _ ha)).trans hfirst

/-- What is announced of a write, if `m` is the memory right after it: the record as written unless
somebody has written it since, and in any case the record as the last of them has left it. Another
run owns it only where it was handed the record since, and while the run has it no counter goes
back. -/
structure Tells (w : Writing) (m : Memory) (between : List StoreOp) (record : Record) : Prop where
  written : ∃ r, m.get w.collection = some r ∧
    (r.status = .syncing ∧ r.run = some w.run ∧ r.progress = w.progress) ∧
    ((∀ a ∈ answers Memory.run m between, ¬ a.1.Wrote w.collection a.2) → record = r)
  found : (after Memory.run m between).get w.collection = some record
  owner : record.run =
    ((answers Memory.run m between).filterMap (Answered.owner? w.collection)).getLast?.or
      (some w.run)
  counters : w.run ∉ between.filterMap (·.claims? w.collection) →
    record.status = .syncing → record.run = some w.run →
    ¬ record.progress.processed + record.progress.failed < w.progress.processed + w.progress.failed

theorem Reread.tells (h : Reread Memory.run s₀ w record now before between) :
    Tells w (after Memory.run s₀ (before ++ [w.update now])) between record := by
  have hmoves := (after Memory.run s₀ before).moves_run (w.update now) w.collection
  rw [h.accepted] at hmoves
  obtain ⟨r, -, hs, hrun, hr⟩ := hmoves.of_applied
  have hwritten : (after Memory.run s₀ (before ++ [w.update now])).get w.collection =
      some (({ r with progress := w.progress } : Record).touch now) := by
    rwa [after_append]
  have hfound : (after Memory.run (after Memory.run s₀ (before ++ [w.update now])) between).get
      w.collection = some record := by
    rw [← after_append, List.append_assoc]
    exact Except.ok.inj h.found
  refine ⟨⟨_, hwritten, ⟨hs, hrun, rfl⟩, fun hnone => ?_⟩, hfound, ?_,
    fun hclaims hsyncing hown => ?_⟩
  · have hsame := get_after_unwritten hnone
    rw [hfound, hwritten] at hsame
    exact Option.some.inj hsame
  · have howner := Fencing.run_after (c := w.collection)
      (after Memory.run s₀ (before ++ [w.update now])) between
    rw [hfound, hwritten] at howner
    exact howner.trans (congrArg _ hrun)
  · have hstart : AtLeast w.run w.progress
        ((after Memory.run s₀ (before ++ [w.update now])).get w.collection) := by
      rw [hwritten]
      rintro _ ⟨⟩ - -
      exact Nat.lt_irrefl _
    exact hstart.after h.ofRuns hclaims record hfound hsyncing hown

/-- This is true of every record that is announced, and of the write that it is announced for. -/
def Announced (P : Writing → Record → Prop) : Prop :=
  ∀ (d : Desk) (w : Writing) (event : RunEvent), d.Reachable Memory.run .empty → w ∈ d.calls →
    w.Announces event → P w event.record

namespace Late

def docs : CollectionId := ⟨"docs"⟩

/-- The write of a run that has claimed its record. -/
def write : Writing := ⟨docs, ⟨1⟩, ⟨1, 0, 2, "a"⟩, []⟩

def earlier : List StoreOp := [.claim docs ⟨1⟩ ⟨60, 0⟩]

def written : Record :=
  { Record.idle docs ⟨60, 0⟩ with
    status := .syncing, progress := ⟨1, 0, 2, "a"⟩, run := some ⟨1⟩, startedAt := some ⟨60, 0⟩
    updatedAt := ⟨61, 0⟩ }

def cancelled : Record := { written with status := .cancelled, updatedAt := ⟨62, 0⟩ }

/-- The record of the run that takes the place of the first one. -/
def replaced : Record :=
  { written with
    progress := .zero, run := some ⟨2⟩, startedAt := some ⟨63, 0⟩, updatedAt := ⟨63, 0⟩ }

/-- The record with what another task of the run has written. -/
def overtaken : Record := { written with progress := ⟨2, 0, 2, "b"⟩, updatedAt := ⟨62, 0⟩ }

def cancel : StoreOp := .requestCancel docs ⟨62, 0⟩

theorem reread_cancelled : Reread Memory.run .empty write cancelled ⟨61, 0⟩ earlier [cancel] where
  accepted := rfl
  ofRuns := by decide
  found := congrArg Except.ok (by decide +kernel : Memory.get _ docs = some cancelled)

theorem reread_replaced : Reread Memory.run .empty write replaced ⟨61, 0⟩ earlier
    [cancel, .claim docs ⟨2⟩ ⟨63, 0⟩] where
  accepted := rfl
  ofRuns := by decide
  found := congrArg Except.ok (by decide +kernel : Memory.get _ docs = some replaced)

theorem reread_overtaken : Reread Memory.run .empty write overtaken ⟨61, 0⟩ earlier
    [.updateProgress docs ⟨1⟩ ⟨2, 0, 2, "b"⟩ ⟨62, 0⟩] where
  accepted := rfl
  ofRuns := by decide
  found := congrArg Except.ok (by decide +kernel : Memory.get _ docs = some overtaken)

end Late

/-- By the time that a write is announced, the run may have been cancelled, another run may have
taken its place, or the run itself may have written other counters. -/
theorem announced_too_late :
    ¬ Announced (fun _ record => record.status = .syncing) ∧
      ¬ Announced (fun w record => record.run = some w.run) ∧
      ¬ Announced (fun w record => record.progress = w.progress) := by
  have hannounced : ∀ {P : Writing → Record → Prop} {between : List StoreOp} {record : Record},
      Reread Memory.run .empty Late.write record ⟨61, 0⟩ Late.earlier between → Announced P →
      ∃ w : Writing, (w.run, w.progress) = (Late.write.run, Late.write.progress) ∧ P w record := by
    intro P between record hreread hP
    obtain ⟨d, w, hr, hw, hsame, he⟩ := Desk.comes_about hreread (by decide)
    exact ⟨w, (Prod.mk.inj hsame).2, hP d w _ hr hw he⟩
  refine ⟨fun h => ?_, fun h => ?_, fun h => ?_⟩
  · obtain ⟨w, -, hs⟩ := hannounced Late.reread_cancelled h
    cases hs
  · obtain ⟨w, hsame, hrun⟩ := hannounced Late.reread_replaced h
    rw [(Prod.mk.inj hsame).1] at hrun
    exact absurd hrun (by decide)
  · obtain ⟨w, hsame, hp⟩ := hannounced Late.reread_overtaken h
    rw [(Prod.mk.inj hsame).2] at hp
    exact absurd hp (by decide)

/-- Whatever calls write counters side by side, and whatever runs, cancellations and recoveries do
meanwhile: what is announced belongs to a write that the store has accepted, and tells of the record
as a read has found it later, with the operations in between that the log has there. -/
theorem progress_announced (hr : d.Reachable Memory.run s₀) (hw : w ∈ d.calls) {event : RunEvent}
    (he : w.Announces event) : event.kind = .progress ∧ ∃ now before between later,
      d.log = before ++ w.update now :: (between ++ .get w.collection :: later) ∧
      Reread Memory.run s₀ w event.record now before between ∧
      Tells w (after Memory.run s₀ (before ++ [w.update now])) between event.record := by
  obtain ⟨hkind, now, before, between, later, hlog, hreread⟩ := reread_of_announced hr hw he
  exact ⟨hkind, now, before, between, later, hlog, hreread, hreread.tells⟩

/-- The announcement of a run that is cancelled right after its write. -/
theorem progress_announced_cancelled : ∃ (d : Desk) (w : Writing) (event : RunEvent),
    (d.Reachable Memory.run .empty ∧ w ∈ d.calls ∧ w.Announces event) ∧
      event.record.status = .cancelled ∧
      event.kind = .progress ∧ ∃ now before between later,
        d.log = before ++ w.update now :: (between ++ .get w.collection :: later) ∧
        Reread Memory.run .empty w event.record now before between ∧
        Tells w (after Memory.run .empty (before ++ [w.update now])) between event.record := by
  obtain ⟨d, w, hr, hw, -, he⟩ := Desk.comes_about Late.reread_cancelled (by decide)
  exact ⟨d, w, _, ⟨hr, hw, he⟩, rfl, progress_announced hr hw he⟩

end

end CollectionSync.Announcing
