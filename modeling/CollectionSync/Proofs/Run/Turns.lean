import CollectionSync.Proofs.Run.Listings
import CollectionSync.Proofs.Run.Notes

/-! # The listing of all roots, as one root sees it

The roots have different ids. So while they are listed, a root has its turn once or, if the listing
stops before it, never; what is asked and noted besides is about other roots. -/

namespace CollectionSync.Interleaving

open Program

variable {rules : RunRules} {order : RunOrder} {root : SourceRoot} {h h₁ h₂ h₃ : List RunHeard}
  {k : RootId}

theorem IsLater.not_isListingOf {q : RunAsk} (hq : IsLater q) : ¬ IsListingOf k q := by
  cases q with
  | within limit call => exact hq.elim
  | _ => exact id

/-- Nothing here lists the root, and nothing tells that it could not be listed. -/
structure Silent (k : RootId) (h : List RunHeard) : Prop where
  calls : listCalls k h = []
  notes : complaints k (notes h) = []

namespace Silent

theorem append (hs : Silent k h₁) (hs' : Silent k h₂) : Silent k (h₁ ++ h₂) where
  calls := by rw [listCalls_append, hs.calls, hs'.calls, List.append_nil]
  notes := by rw [notes_append, complaints_append, hs.notes, hs'.notes, List.append_nil]

theorem of_later (hl : ∀ e ∈ h, IsLater e.1) : Silent k h :=
  ⟨listCalls_eq_nil fun e he => (hl e he).not_isListingOf, complaints_of_later hl⟩

theorem of_observe {observed : Except RunError Bool}
    (hy : Yields order.identity.observe h observed) :
    Silent k h :=
  of_later ((observe_asks trivial trivial trivial :
    order.identity.observe.Asks IsLater).of_follows hy).1

theorem of_state {s : RunState} : Silent k [⟨.state, s⟩] := ⟨rfl, rfl⟩

/-- Another root is listed. -/
theorem of_listing {result : Except RunError ChangeSet} (hne : root.id ≠ k)
    (hl : RootListed rules order root h result) : Silent k h where
  calls := by
    have hasks : (listingOf rules order root).Asks fun q => ¬ IsListingOf k q :=
      listingOf_asks (fun _ => id) fun _ _ => hne
    exact listCalls_eq_nil (hasks.of_follows hl.yields).1
  notes := by rw [notes_eq_nil_of_marks hl.marks_eq_nil]; rfl

/-- Another root could not be listed. -/
theorem of_failure {e : RunError} {s : RunState} (hne : root.id ≠ k) :
    Silent k [⟨.change (.runFailure (rootNote root.id e)), s⟩] :=
  ⟨rfl, (complaints_cons e []).trans (if_neg hne)⟩

end Silent

variable {roots : List SourceRoot} {result : Except RunError ChangeSet}
  {results : List (SourceRoot × Except RunError ChangeSet)} {last : ListAnswer}

theorem Enumerated.silent (he : Enumerated rules order roots h results)
    (hk : k ∉ roots.map (·.id)) :
    Silent k h := by
  induction he with
  | nil => exact ⟨rfl, rfl⟩
  | stopped ho _ => exact .of_observe ho
  | listed ho hl _ ih =>
    obtain ⟨hne, hk⟩ := not_or.mp (mt List.mem_cons.mpr hk)
    exact .append (.of_observe ho) (.append (.of_listing (Ne.symm hne) hl) (ih hk))
  | failed ho hl _ _ ih =>
    obtain ⟨hne, hk⟩ := not_or.mp (mt List.mem_cons.mpr hk)
    exact .append (.of_observe ho) (.append (.of_listing (Ne.symm hne) hl)
      (.append .of_state (.append (.of_failure (Ne.symm hne)) (ih hk))))
  | interrupted ho hl _ ho' =>
    obtain ⟨hne, -⟩ := not_or.mp (mt List.mem_cons.mpr hk)
    exact .append (.of_observe ho) (.append (.of_listing (Ne.symm hne) hl)
      (.append .of_state (.of_observe ho')))

/-- What the listing has come to for the roots of this id. -/
abbrev resultsOf (k : RootId) (results : List (SourceRoot × Except RunError ChangeSet)) :
    List (SourceRoot × Except RunError ChangeSet) := results.filter fun r => r.1.id = k

theorem Enumerated.resultsOf_eq_nil (he : Enumerated rules order roots h results)
    (hk : k ∉ roots.map (·.id)) : resultsOf k results = [] := by
  refine List.filter_eq_nil_iff.mpr fun r hr hid => hk ?_
  have hroot := he.roots.subset (List.mem_map.mpr ⟨r, hr, rfl⟩)
  exact List.mem_map.mpr ⟨r.1, hroot, of_decide_eq_true hid⟩

/-- What was noted of a root whose listing has come to this. Once the run is interrupted, that it
could not be listed is no longer noted. -/
inductive Complains (k : RootId) (h : List RunHeard) : Except RunError ChangeSet → Prop
  | listed {set : ChangeSet} : complaints k (notes h) = [] → Complains k h (.ok set)
  | failed {e : RunError} : complaints k (notes h) = [rootNote k e] → Complains k h (.error e)
  | interrupted {e : RunError} {s : RunState} :
    complaints k (notes h) = [] → (⟨.state, s⟩ : RunHeard) ∈ h →
    s.interrupted = true → Complains k h (.error e)

theorem Complains.mono (hc : Complains k h result) (hsub : h ⊆ h₁)
    (hsame : complaints k (notes h₁) = complaints k (notes h)) : Complains k h₁ result := by
  cases hc with
  | listed hnone => exact .listed (hsame.trans hnone)
  | failed hone => exact .failed (hsame.trans hone)
  | interrupted hnone hs hint => exact .interrupted (hsame.trans hnone) (hsub hs) hint

theorem Complains.after (hc : Complains k h₂ result) (hnone : complaints k (notes h₁) = []) :
    Complains k (h₁ ++ h₂) result :=
  hc.mono (List.subset_append_right h₁ h₂) (by rw [notes_append, complaints_append, hnone,
    List.nil_append])

theorem Complains.before (hc : Complains k h₁ result) (hnone : complaints k (notes h₂) = []) :
    Complains k (h₁ ++ h₂) result :=
  hc.mono (List.subset_append_left h₁ h₂) (by rw [notes_append, complaints_append, hnone,
    List.append_nil])

/-- By what was heard, the root was listed to the end, with this last answer. -/
structure Visited (rules : RunRules) (order : RunOrder) (root : SourceRoot) (h : List RunHeard)
    (results : List (SourceRoot × Except RunError ChangeSet)) (last : ListAnswer) : Prop where
  scanned : Scanned rules order root (listCalls root.id h) last
  result : resultsOf root.id results = [(root, listingResult rules root last)]
  complains : Complains root.id h (listingResult rules root last)

/-- Either the listing has not come to the root, or it was listed to the end. -/
inductive Turn (rules : RunRules) (order : RunOrder) (root : SourceRoot) (h : List RunHeard)
    (results : List (SourceRoot × Except RunError ChangeSet)) : Prop
  | missed : Silent root.id h → resultsOf root.id results = [] → Turn rules order root h results
  | taken {last : ListAnswer} :
    Visited rules order root h results last → Turn rules order root h results

/-- The root is listed here, and not again. -/
theorem turn_of_listing (hb : Silent root.id h₁) (hl : RootListed rules order root h₂ result)
    (hcalls : listCalls root.id h₃ = []) (hn : Complains root.id h₃ result)
    (hrest : resultsOf root.id results = []) :
    Turn rules order root (h₁ ++ (h₂ ++ h₃)) ((root, result) :: results) := by
  have hquiet : notes h₂ = [] := notes_eq_nil_of_marks hl.marks_eq_nil
  obtain ⟨last, hscanned, rfl⟩ := hl.answered
  refine .taken ⟨?_, ?_, (hn.after ?_).after hb.notes⟩
  · rw [listCalls_append, listCalls_append, hb.calls, hcalls, List.nil_append, List.append_nil]
    exact hscanned
  · have hhead := List.filter_cons_of_pos (p := fun r : SourceRoot × _ => r.1.id = root.id)
      (a := (root, listingResult rules root last)) (l := results) (decide_eq_true rfl)
    exact hhead.trans (congrArg _ hrest)
  · rw [hquiet]
    rfl

theorem Turn.after (ht : Turn rules order root h₂ results) (hs : Silent root.id h₁) :
    Turn rules order root (h₁ ++ h₂) results := by
  cases ht with
  | missed hs' hnone => exact .missed (hs.append hs') hnone
  | taken hv =>
    obtain ⟨hscanned, hresult, hcomplains⟩ := hv
    refine .taken ⟨?_, hresult, hcomplains.after hs.notes⟩
    rw [listCalls_append, hs.calls]
    exact hscanned

/-- Another root was listed before. -/
theorem Turn.other {first : SourceRoot} (ht : Turn rules order root h₃ results)
    (hne : first.id ≠ root.id) (ho : Yields order.identity.observe h₁ (.ok false))
    (hl : RootListed rules order first h₂ result) :
    Turn rules order root (h₁ ++ (h₂ ++ h₃)) ((first, result) :: results) := by
  have hsame : resultsOf root.id ((first, result) :: results) = resultsOf root.id results :=
    List.filter_cons_of_neg fun heq => hne (of_decide_eq_true heq)
  have hlater := (ht.after (.of_listing hne hl)).after (.of_observe ho)
  cases hlater with
  | missed hs hnone => exact .missed hs (hsame.trans hnone)
  | taken hv => exact .taken ⟨hv.scanned, hsame.trans hv.result, hv.complains⟩

theorem Enumerated.turn (he : Enumerated rules order roots h results)
    (hdistinct : (roots.map (·.id)).Nodup) (hroot : root ∈ roots) :
    Turn rules order root h results := by
  have hother : ∀ {first : SourceRoot} {rest : List SourceRoot}, first.id ∉ rest.map (·.id) →
      root ∈ rest →
      first.id ≠ root.id := fun hfresh hroot heq => hfresh (heq ▸ List.mem_map_of_mem hroot)
  induction he with
  | nil => cases hroot
  | stopped ho _ => exact .missed (.of_observe ho) rfl
  | listed ho hl hrest ih =>
    obtain ⟨hfresh, hdistinct⟩ := List.nodup_cons.mp hdistinct
    rcases List.mem_cons.mp hroot with rfl | hroot
    · have hs := hrest.silent hfresh
      exact turn_of_listing (.of_observe ho) hl hs.calls (.listed hs.notes)
        (hrest.resultsOf_eq_nil hfresh)
    · exact (ih hdistinct hroot).other (hother hfresh hroot) ho hl
  | failed ho hl _ hrest ih =>
    obtain ⟨hfresh, hdistinct⟩ := List.nodup_cons.mp hdistinct
    rcases List.mem_cons.mp hroot with rfl | hroot
    · have hs := hrest.silent hfresh
      refine turn_of_listing (.of_observe ho) hl hs.calls (.failed ?_)
        (hrest.resultsOf_eq_nil hfresh)
      exact (complaints_cons _ _).trans ((if_pos rfl).trans (congrArg _ hs.notes))
    · have hne := hother hfresh hroot
      exact (((ih hdistinct hroot).after (.of_failure hne)).after .of_state).other hne ho hl
  | interrupted ho hl hint ho' =>
    have hobserved := Silent.of_observe (k := root.id) ho'
    obtain ⟨hfresh, -⟩ := List.nodup_cons.mp hdistinct
    rcases List.mem_cons.mp hroot with rfl | hroot
    · exact turn_of_listing (.of_observe ho) hl hobserved.calls
        (.interrupted hobserved.notes List.mem_cons_self hint) rfl
    · exact (Turn.missed (.append .of_state hobserved) rfl).other (hother hfresh hroot) ho hl

/-! ## What the run goes on with -/

/-- The changes of a root whose listing had this last answer. -/
def changesBy (root : SourceRoot) : ListAnswer → List (SourceRoot × ChangeSet)
  | some (.ok set) => [(root, set)]
  | _ => []

/-- The changes that a root has reported. -/
def reported? : SourceRoot × Except RunError ChangeSet → Option (SourceRoot × ChangeSet)
  | (root, .ok set) => some (root, set)
  | (_, .error _) => none

theorem changes_foldl (l : Listing) :
    (results.foldl Listing.addResult l).changes = l.changes ++ results.filterMap reported? := by
  induction results generalizing l with
  | nil => exact (List.append_nil _).symm
  | cons first rest ih =>
    obtain ⟨root, result⟩ := first
    rw [List.foldl_cons, ih]
    cases result with
    | error e => rfl
    | ok set => exact List.append_assoc _ _ _

theorem filter_reported (k : RootId) :
    (results.filterMap reported?).filter (fun c => c.1.id = k) =
      (resultsOf k results).filterMap reported? := by
  rw [List.filter_filterMap, List.filterMap_filter]
  congr 1
  funext ⟨root, result⟩
  cases result with
  | error e => exact (ite_self _).symm
  | ok set => rfl

theorem filterMap_listingResult (last : ListAnswer) :
    [(root, listingResult rules root last)].filterMap reported? = changesBy root last := by
  cases last with
  | none => rfl
  | some answer => cases answer <;> rfl

/-- What the listing of all roots brings for one of them. -/
structure Brings (rules : RunRules) (order : RunOrder) (root : SourceRoot) (h : List RunHeard)
    (listing : Listing) (last : ListAnswer) : Prop where
  scanned : Scanned rules order root (listCalls root.id h) last
  complains : Complains root.id h (listingResult rules root last)
  changes : ¬ Faulted h → listing.changes.filter (fun c => c.1.id = root.id) = changesBy root last
  /-- Where the store fails meanwhile, nothing is planned. -/
  dropped : Faulted h → listing.changes = []
  kept : (∀ set, last ≠ some (.ok set)) → listing.tokens.get? root.id = tokenOf order root

theorem Visited.brings {listing : Listing} (hv : Visited rules order root h results last)
    (hl : ListedAs rules order h results listing)
    (hdistinct : (order.request.roots.map (·.id)).Nodup) :
    Brings rules order root h listing last := by
  obtain ⟨hmerged, hkept⟩ := hl.tokens hdistinct
  refine ⟨hv.scanned, hv.complains, fun hok => ?_, fun hfault => ?_, fun hnone => ?_⟩
  · rw [hl.listed hok, changes_foldl, List.nil_append, filter_reported, hv.result,
      filterMap_listingResult]
  · rw [hl.broken hfault]
  · by_cases hfault : Faulted h
    · rw [hkept hfault]
    · refine (hmerged hfault).kept root.id fun other set token hother _ heq => ?_
      have hmem : (other, .ok set) ∈ resultsOf root.id results :=
        List.mem_filter.mpr ⟨hother, decide_eq_true heq⟩
      rw [hv.result] at hmem
      exact hnone set (listingResult_eq_ok (Prod.mk.inj (List.mem_singleton.mp hmem)).2.symm)

/-- What comes after the listing makes no difference. -/
theorem Brings.before {listing : Listing} (hb : Brings rules order root h₁ listing last)
    (hs : Silent root.id h₂) (hworks : ¬ Faulted h₂) :
    Brings rules order root (h₁ ++ h₂) listing last := by
  have hfaulted : Faulted (h₁ ++ h₂) ↔ Faulted h₁ := has_append.trans (or_iff_left hworks)
  refine ⟨?_, hb.complains.before hs.notes, fun hok => hb.changes (mt hfaulted.mpr hok),
    fun hfault => hb.dropped (hfaulted.mp hfault), hb.kept⟩
  rw [listCalls_append, hs.calls, List.append_nil]
  exact hb.scanned

theorem listRoots_brings {listing : Listing} (hy : Yields (order.listRoots rules) h listing)
    (hdistinct : (order.request.roots.map (·.id)).Nodup) (hroot : root ∈ order.request.roots) :
    Silent root.id h ∨ ∃ last, Brings rules order root h listing last := by
  obtain ⟨h₁, h₂, -, results, rfl, hfatal, -, hl⟩ := listRoots_listedAs hy
  have hs : Silent root.id h₂ := .of_later fun e he => IsFatal.isLater (hfatal e he)
  have hworks : ¬ Faulted h₂ := by
    rintro ⟨e, he, hfault⟩
    exact IsFatal.not_isStore (hfatal e he) hfault.isStore
  cases hl.enumerated.turn hdistinct hroot with
  | missed hs' _ => exact .inl (hs'.append hs)
  | taken hv => exact .inr ⟨_, (hv.brings hl hdistinct).before hs hworks⟩

end CollectionSync.Interleaving
