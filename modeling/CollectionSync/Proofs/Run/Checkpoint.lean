import CollectionSync.Proofs.Run.Faults
import CollectionSync.Proofs.Run.Settlement
import CollectionSync.Proofs.Store.Possession

/-! # The tokens that a run leaves behind

A run takes over the tokens of the record that it has claimed, and overrides those of the roots that
it has listed and that have returned a new one. Where the store fails while the roots are listed, it
leaves the tokens as it has found them. What becomes of the run otherwise makes no difference. -/

namespace CollectionSync.Interleaving

open Program

variable {env : Surroundings} {rules : RunRules} {order : RunOrder} {p : Pool env}
  {h : List RunHeard} {results : List (SourceRoot × Except RunError ChangeSet)}

/-- The tokens are those claimed, overridden by the new ones of the roots that were listed. -/
structure Merged (claimed : Dict RootId DeltaToken)
    (results : List (SourceRoot × Except RunError ChangeSet)) (tokens : Dict RootId DeltaToken) :
    Prop where
  overridden : ∀ root set token, (root, .ok set) ∈ results → set.token = some token →
    tokens.get? root.id = some token
  kept : ∀ k, (∀ root set token, (root, .ok set) ∈ results → set.token = some token →
    root.id ≠ k) → tokens.get? k = claimed.get? k

theorem tokens_addResult_of_ne (l : Listing) {root : SourceRoot}
    {result : Except RunError ChangeSet} {k : RootId}
    (hne : ∀ set token, result = .ok set → set.token = some token → root.id ≠ k) :
    (Listing.addResult l (root, result)).tokens.get? k = l.tokens.get? k := by
  cases result with
  | error e => rfl
  | ok set =>
    unfold Listing.addResult Listing.add
    cases htoken : set.token with
    | none => simp only [htoken]
    | some token =>
      simp only [htoken]
      exact Dict.get?_insert_of_ne l.tokens token (hne set token rfl htoken)

/-- Of roots with different ids, each has its own token in the end. -/
theorem merged_foldl (hdistinct : (results.map (·.1.id)).Nodup) (l : Listing) :
    Merged l.tokens results (results.foldl Listing.addResult l).tokens := by
  induction results generalizing l with
  | nil => exact ⟨nofun, fun _ _ => rfl⟩
  | cons first rest ih =>
    obtain ⟨root, result⟩ := first
    obtain ⟨hfresh, hrest⟩ := List.nodup_cons.mp hdistinct
    obtain ⟨hoverridden, hkept⟩ := ih hrest (Listing.addResult l (root, result))
    constructor
    · intro root' set token hmem htoken
      rcases List.mem_cons.mp hmem with heq | hmem
      · cases heq
        have hnone : ∀ other set' token', (other, .ok set') ∈ rest → set'.token = some token' →
            other.id ≠ root.id := fun other _ _ hother _ heq =>
          hfresh (List.mem_map.mpr ⟨_, hother, heq⟩)
        rw [List.foldl_cons, hkept root.id hnone]
        unfold Listing.addResult Listing.add
        simp only [htoken]
        exact Dict.get?_insert_self _ _ _
      · exact hoverridden root' set token hmem htoken
    · intro k hk
      have hlater := hkept k fun root' set token hmem =>
        hk root' set token (List.mem_cons_of_mem _ hmem)
      have hfirst : (Listing.addResult l (root, result)).tokens.get? k = l.tokens.get? k := by
        refine tokens_addResult_of_ne l fun set token hresult htoken => ?_
        subst hresult
        exact hk root set token List.mem_cons_self htoken
      rw [List.foldl_cons, hlater, hfirst]

/-- What the work of a run has heard while the roots were listed, with what they came to, and the
listing that it goes on with. -/
structure ListedAs (rules : RunRules) (order : RunOrder) (h : List RunHeard)
    (results : List (SourceRoot × Except RunError ChangeSet)) (listing : Listing) : Prop where
  enumerated : Enumerated rules order order.request.roots h results
  listed : ¬ Faulted h → listing = results.foldl Listing.addResult ⟨[],
    order.admission.record.tokens⟩
  broken : Faulted h → listing = ⟨[], order.admission.record.tokens⟩

theorem listRoots_listedAs {listing : Listing} (hy : Yields (order.listRoots rules) h listing) :
    ∃ h₁ h₂ result results, h = h₁ ++ h₂ ∧ (∀ e ∈ h₂, IsFatal e.1) ∧
      Yields (Listing.ofOrder rules order order.identity) h₁ result ∧
      ListedAs rules order h₁ results listing := by
  obtain ⟨h₁, h₂, result, rfl, hl, hfatal, hcame⟩ := listRoots_split hy
  obtain ⟨results, he, hend⟩ := extend_enumerated hl
  refine ⟨h₁, h₂, result, results, rfl, hfatal, hl, he, fun hok => ?_, fun hfault => ?_⟩
  · rcases hcame with ⟨rfl, -⟩ | ⟨e, rfl, -⟩
    · exact hend listing rfl
    · exact absurd (extend_blames _ _ h₁ e trivial hl) hok
  · obtain ⟨e, rfl, -⟩ := (extend_admits _ _).of_yields hl hfault
    rcases hcame with ⟨heq, -⟩ | ⟨_, -, rfl⟩
    · cases heq
    · rfl

/-- The roots are listed right after the watch was started. -/
theorem work_listedAs {listing : Listing} (hy : Yields (order.work rules) h listing) :
    ∃ h₁ h₂ result results, h = ⟨.startWatch, ()⟩ :: (h₁ ++ h₂) ∧
      Yields (Listing.ofOrder rules order order.identity) h₁ result ∧
      ListedAs rules order h₁ results listing := by
  obtain ⟨h₃, h₄, rfl, hl, -⟩ := work_split hy
  obtain ⟨h₁, h₂, result, results, rfl, -, hend, hlisted⟩ := listRoots_listedAs hl
  refine ⟨h₁, h₂ ++ (h₄ ++ [⟨.endWatch, ()⟩]), result, results, ?_, hend, hlisted⟩
  rw [List.append_assoc]

/-- The tokens of a run's report: merged if the roots could be listed without an error of the store,
and else as they were claimed. -/
theorem ListedAs.tokens {listing : Listing} (hl : ListedAs rules order h results listing)
    (hdistinct : (order.request.roots.map (·.id)).Nodup) :
    (¬ Faulted h → Merged order.admission.record.tokens results listing.tokens) ∧
      (Faulted h → listing.tokens = order.admission.record.tokens) := by
  have hroots : (results.map (·.1.id)).Nodup := by
    have hsub := (hl.enumerated.roots.sublist.map (·.id)).nodup hdistinct
    rwa [List.map_map] at hsub
  refine ⟨fun hok => ?_, fun hfault => ?_⟩
  · rw [hl.listed hok]
    exact merged_foldl hroots ⟨[], order.admission.record.tokens⟩
  · rw [hl.broken hfault]

/-- What becomes of the tokens of a collection by a run that has heard this while it listed the
roots, and reports this in the end. -/
structure Checkpointed (rules : RunRules) (order : RunOrder) (h : List RunHeard)
    (results : List (SourceRoot × Except RunError ChangeSet)) (report : RunReport) : Prop where
  enumerated : Enumerated rules order order.request.roots h results
  merged : ¬ Faulted h → Merged order.admission.record.tokens results report.tokens
  untouched : Faulted h → report.tokens = order.admission.record.tokens
  memory : ∀ m : Memory, Possession.KeepsTokens Memory.run Memory.tokens order.request.collection
    order.admission.run order.admission.record report m
  database : ∀ db : Database, db.Keyed → Possession.KeepsTokens Database.run Database.tokens
    order.request.collection order.admission.run order.admission.record report db

/-- Whatever becomes of a run: once its end is accepted, the tokens stored for the collection are
those claimed, overridden by the new ones of the roots that it has listed, and up to then nobody has
changed them. -/
theorem tokens_merged (hdistinct : (order.request.roots.map (·.id)).Nodup) {report : RunReport}
    (hf : Reports rules order p report) :
    ∃ h₁ h₂ listed results, p.main = ⟨.startWatch, ()⟩ :: (h₁ ++ h₂) ∧
      Yields (Listing.ofOrder rules order order.identity) h₁ listed ∧
      Checkpointed rules order h₁ results report := by
  obtain ⟨_, _, now, _, hf⟩ := hf
  obtain ⟨m, listing, s, hm, hy, -, -, rfl⟩ := of_finish_asked hf
  obtain ⟨h₁, h₂, listed, results, rfl, hend, hl⟩ := work_listedAs hy
  obtain ⟨hmerged, hkept⟩ := hl.tokens hdistinct
  refine ⟨h₁, h₂ ++ [⟨.state, s⟩, ⟨.keeper .clock, now⟩], listed, results, ?_, hend, hl.enumerated,
    hmerged, hkept,
    fun m => m.keepsTokens _ _ _ _, fun _ hkeyed => Database.keepsTokens _ _ _ _ hkeyed⟩
  rw [hm, List.cons_append, List.append_assoc]

/-- A root that returns a new token and nothing else. -/
theorem tokens_merged_renewed :
    let rules : RunRules := ⟨1, ⟨1⟩, 10, ⟨0, ⟨1⟩⟩, ⟨1⟩⟩
    let claimed : Record :=
      { Record.idle ⟨"docs"⟩ ⟨0, 0⟩ with
        status := .syncing
        run := some ⟨1⟩
        tokens := Dict.ofList [(⟨"other"⟩, ⟨"o1"⟩), (⟨"root"⟩, ⟨"r1"⟩)] }
    let order : RunOrder := ⟨⟨⟨"docs"⟩, [⟨⟨"root"⟩, none, none⟩]⟩, ⟨⟨1⟩, claimed⟩, ""⟩
    ∃ (p : Pool .anything) (report : RunReport),
      ((order.request.roots.map (·.id)).Nodup ∧ Reports rules order p report) ∧
      report.tokens = Dict.ofList [(⟨"other"⟩, ⟨"o1"⟩), (⟨"root"⟩, ⟨"r2"⟩)] ∧
      ∃ h₁ h₂ listed results, p.main = ⟨.startWatch, ()⟩ :: (h₁ ++ h₂) ∧
        Yields (Listing.ofOrder rules order order.identity) h₁ listed ∧
        Checkpointed rules order h₁ results report := by
  intro rules claimed order
  have h : ComesTo rules order (.start .anything rules false ()) (order.run rules) :=
    ⟨.start false _, .refl _, not_has_nil⟩
  have h := h.goOn (.startWatch h.main) rfl id
  have h := (h.hear .state id).answer (Except.ok (some claimed)) trivial id
  have h := h.answer (some (Except.ok (⟨[], [], some ⟨"r2"⟩⟩ : ChangeSet))) trivial id
  -- nothing is planned, and the run comes to its end
  have h := (h.hear .state id).answer [] trivial id
  have h := ((h.hear .change id).answer (⟨1, 0⟩ : Instant) trivial id).answer
    (Except.ok ProgressOutcome.discarded) trivial id
  have h := ((h.goOn (.endWatch h.main) rfl id).hear .state id).answer (⟨2, 0⟩ : Instant) trivial id
  have hreport := h.reports rfl
  have hdistinct : (order.request.roots.map (·.id)).Nodup := by decide
  exact ⟨_, _, ⟨hdistinct, hreport⟩, by decide +kernel, tokens_merged hdistinct hreport⟩

end CollectionSync.Interleaving
