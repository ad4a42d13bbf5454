import CollectionSync.Proofs.Run.Actions

/-! # The calls that list a root

A root is listed from its token, with retries. Where the last answer is that the token has expired,
it is listed once more without a token, with retries again; a refused token is never retried as
such. The last answer is what the listing comes to. -/

namespace CollectionSync.Interleaving

open Program

variable {rules : RunRules} {order : RunOrder} {root : SourceRoot} {token : Option DeltaToken}
  {credentials : String} {h h₁ h₂ : List RunHeard} {k : RootId}

/-- The listing of a root, as the run does it. -/
abbrev listingOf (rules : RunRules) (order : RunOrder) (root : SourceRoot) :
    Running (Except RunError ChangeSet) :=
  listRoot rules root (order.admission.record.tokens.get? root.id) order.credentials

theorem listingOf_asks {P : RunAsk → Prop} (hp : ∀ s, P (.pause s))
    {root : SourceRoot}
    (hc : ∀ limit token, P (.within limit (.list root token order.credentials))) :
    (listingOf rules order root).Asks P := by
  have hsince : ∀ token, (listSince rules root token order.credentials).Asks P := fun token =>
    callRemote_asks hp _ (Asks.question (hc _ _))
  refine (hsince _).bind fun listed => ?_
  split
  · split
    · exact (hsince none).bind fun _ => Asks.pure _
    · trivial
  · trivial

theorem listingOf_routine (root : SourceRoot) : Routine (listingOf rules order root) :=
  listingOf_asks (fun _ => trivial) fun _ _ => trivial

/-- The answer to a listing call; none tells that it took too long. -/
abbrev ListAnswer := Option (Except RemoteError ChangeSet)

/-- The answer that the token has expired. -/
abbrev expired : ListAnswer := some (.error .tokenExpired)

/-- A listing call that was answered. -/
structure ListCall where
  root : SourceRoot
  token : Option DeltaToken
  credentials : String
  answer : ListAnswer

def listCall? (k : RootId) : (q : RunAsk) → q.Answer → Option ListCall
  | .within _ (.list root token credentials), answer =>
    if root.id = k then some ⟨root, token, credentials, answer⟩ else none
  | _, _ => none

/-- The calls that have listed a root, in order. -/
def listCalls (k : RootId) (h : List RunHeard) : List ListCall :=
  h.filterMap fun e => listCall? k e.1 e.2

/-- A question that lists the root. -/
def IsListingOf (k : RootId) : RunAsk → Prop
  | .within _ (.list root _ _) => root.id = k
  | _ => False

@[simp] theorem listCalls_append : listCalls k (h₁ ++ h₂) = listCalls k h₁ ++ listCalls k h₂ :=
  List.filterMap_append

theorem listCalls_eq_nil (hq : ∀ e ∈ h, ¬ IsListingOf k e.1) : listCalls k h = [] := by
  have hnone : ∀ (q : RunAsk) (a : q.Answer), ¬ IsListingOf k q → listCall? k q a = none := by
    intro q a hq
    cases q with
    | within limit call =>
      cases call with
      | list root token credentials => exact if_neg hq
      | _ => rfl
    | _ => rfl
  exact List.filterMap_eq_nil_iff.mpr fun e he => hnone e.1 e.2 (hq e he)

/-- One call, and what its answer counts for. -/
theorem call_listCalls {limit : Span} {late : RemoteError} {result : Except RemoteError ChangeSet}
    (hy :
      Yields (do return (← Run.within limit (.list root token credentials)).getD (.error late)) h
      result) :
    ∃ answer : ListAnswer, h = [⟨.within limit (.list root token credentials), answer⟩] ∧
      listCalls root.id h = [⟨root, token, credentials, answer⟩] ∧
      result = answer.getD (.error late) := by
  obtain ⟨h₁, answer, h₂, rfl, hq, hy₂⟩ := yields_bind.mp hy
  obtain rfl := yields_question.mp hq
  obtain ⟨rfl, rfl⟩ := yields_pure.mp hy₂
  refine ⟨answer, rfl, ?_, rfl⟩
  have hlisted : listCall? root.id (.within limit (.list root token credentials)) answer
      = some ⟨root, token, credentials, answer⟩ := if_pos rfl
  simp only [listCalls, List.append_nil, List.filterMap_cons, hlisted, List.filterMap_nil]

/-- With retries, the answers before the last one are errors that pass, and the last one counts. -/
theorem attempts_listCalls {limit : Span} {late : RemoteError} {left attempt : Nat}
    {result : Except RemoteError ChangeSet}
    (hy : Yields (rules.retry.attempts Run.pause
      (do return (← Run.within limit (.list root token credentials)).getD (.error late))
      left attempt) h
        result) :
    ∃ answers last,
      listCalls root.id h = (answers ++ [last]).map (ListCall.mk root token credentials) ∧
      answers.length ≤ left ∧ expired ∉ answers ∧ result = last.getD (.error late) := by
  induction left generalizing attempt h with
  | zero =>
    obtain ⟨answer, -, hcalls, hresult⟩ := call_listCalls hy
    exact ⟨[], answer, hcalls, Nat.le_refl 0, nofun, hresult⟩
  | succ left ih =>
    obtain ⟨h₁, listed, h₂, rfl, hy₁, hy₂⟩ := yields_bind.mp hy
    obtain ⟨answer, -, hcalls, hlisted⟩ := call_listCalls hy₁
    have hends : ∀ {h₂}, listCalls root.id h₂ = [] → result = listed →
        ∃ answers last,
          listCalls root.id (h₁ ++ h₂) =
            (answers ++ [last]).map (ListCall.mk root token credentials) ∧
          answers.length ≤ left + 1 ∧ expired ∉ answers ∧ result = last.getD (.error late) := by
      intro h₂ hnone hresult
      refine ⟨[], answer, ?_, Nat.zero_le _, nofun, hresult.trans hlisted⟩
      rw [listCalls_append, hcalls, hnone]
      rfl
    cases listed with
    | ok set =>
      obtain ⟨rfl, rfl⟩ := yields_pure.mp hy₂
      exact hends rfl rfl
    | error e =>
      dsimp only at hy₂
      split at hy₂
      · next htransient =>
        obtain ⟨h₃, cut, h₄, rfl, hp, hy₄⟩ := yields_bind.mp hy₂
        obtain rfl := yields_question.mp hp
        split at hy₄
        · obtain ⟨rfl, rfl⟩ := yields_pure.mp hy₄
          exact hends rfl rfl
        · obtain ⟨answers, last, hrest, hcount, hfirm, hresult⟩ := ih hy₄
          have hpasses : answer ≠ expired := by
            rintro rfl
            cases hlisted
            cases htransient
          refine ⟨answer :: answers, last, ?_, Nat.succ_le_succ hcount, ?_, hresult⟩
          · rw [listCalls_append, hcalls, listCalls_append, hrest]
            rfl
          · exact fun hmem => (List.mem_cons.mp hmem).elim hpasses.symm hfirm
      · obtain ⟨rfl, rfl⟩ := yields_pure.mp hy₂
        exact hends rfl rfl

/-! ## The listing of one root -/

/-- The token of the claimed record, from which a root is listed. -/
abbrev tokenOf (order : RunOrder) (root : SourceRoot) : Option DeltaToken :=
  order.admission.record.tokens.get? root.id

/-- These calls list a root with its token, and then without one. -/
structure Scan (rules : RunRules) (order : RunOrder) (root : SourceRoot) (calls : List ListCall)
    (first again : List ListAnswer) : Prop where
  calls : calls = first.map (ListCall.mk root (tokenOf order root) order.credentials)
    ++ again.map (ListCall.mk root none order.credentials)
  tries : first.length ≤ rules.retry.maxRetries + 1
  retries : again.length ≤ rules.retry.maxRetries + 1
  /-- The calls without a token follow the answer that the token has expired, -/
  expires : again ≠ [] → (tokenOf order root).isSome = true ∧ first.getLast? = some expired
  /-- which ends the calls before it, and is not asked for again. -/
  firm : expired ∉ first.dropLast ∧ expired ∉ again.dropLast

theorem Scan.starts {calls : List ListCall} {first again : List ListAnswer}
    (hs : Scan rules order root calls first again) (hcalls : calls ≠ []) : first ≠ [] := by
  rintro rfl
  have hagain : again ≠ [] := by
    rintro rfl
    exact hcalls hs.calls
  cases (hs.expires hagain).2

theorem mem_dropLast_of_take {l : List ListAnswer} {n : Nat} {x : ListAnswer}
    (hx : x ∈ (l.take n).dropLast) : x ∈ l.dropLast := by
  rw [List.dropLast_eq_take, List.take_take, List.length_take] at hx
  rw [List.dropLast_eq_take]
  exact List.take_subset_take_left l (by omega) hx

/-- The calls up to some point of a scan are a scan. -/
theorem Scan.take {calls : List ListCall} {first again : List ListAnswer}
    (hs : Scan rules order root calls first again) (n : Nat) :
    Scan rules order root (calls.take n) (first.take n) (again.take (n - first.length)) := by
  obtain ⟨hcalls, htries, hretries, hexpires, hfirm, hfirm'⟩ := hs
  refine ⟨?_, Nat.le_trans (List.length_take_le' _ _) htries,
    Nat.le_trans (List.length_take_le' _ _) hretries, fun hagain => ?_,
    mt mem_dropLast_of_take hfirm, mt mem_dropLast_of_take hfirm'⟩
  · rw [hcalls, List.take_append, List.length_map, List.map_take, List.map_take]
  · have hlong : first.length < n := by
      refine Nat.lt_of_not_le fun hshort => hagain ?_
      rw [Nat.sub_eq_zero_of_le hshort]
      exact List.take_zero
    obtain ⟨htoken, hlast⟩ := hexpires fun hnone => hagain (by rw [hnone, List.take_nil])
    rw [List.take_of_length_le (Nat.le_of_lt hlong)]
    exact ⟨htoken, hlast⟩

/-- A listing that has come to its end made these calls, and this is the last answer. -/
def Scanned (rules : RunRules) (order : RunOrder) (root : SourceRoot) (calls : List ListCall)
    (last : ListAnswer) : Prop :=
  ∃ first again, Scan rules order root calls first again ∧
    ((tokenOf order root).isSome = true → first.getLast? = some expired → again ≠ []) ∧
    (first ++ again).getLast? = some last

section

variable {answers again : List ListAnswer} {last : ListAnswer} {calls : List ListCall}

theorem length_tries (hcount : answers.length ≤ rules.retry.maxRetries) :
    (answers ++ [last]).length ≤ rules.retry.maxRetries + 1 := by
  rw [List.length_append]
  exact Nat.add_le_add_right hcount 1

theorem firm_tries (hfirm : expired ∉ answers) : expired ∉ (answers ++ [last]).dropLast := by
  rwa [List.dropLast_concat]

/-- The listing is over, unless there is a token and it has expired. -/
theorem scanned_once
    (hcalls :
      calls = (answers ++ [last]).map (ListCall.mk root (tokenOf order root) order.credentials))
    (hcount : answers.length ≤ rules.retry.maxRetries) (hfirm : expired ∉ answers)
    (hover : last = expired → (tokenOf order root).isSome = false) :
    Scanned rules order root calls last := by
  have hscan : Scan rules order root calls (answers ++ [last]) [] :=
    ⟨hcalls.trans (List.append_nil _).symm, length_tries hcount, Nat.zero_le _,
      fun hne => absurd rfl hne, firm_tries hfirm, nofun⟩
  refine ⟨answers ++ [last], [], hscan, fun htoken hexpired => ?_, ?_⟩
  · rw [List.getLast?_concat] at hexpired
    rw [hover (Option.some.inj hexpired)] at htoken
    cases htoken
  · rw [List.append_nil, List.getLast?_concat]

/-- The token has expired, and the listing goes on without one. -/
theorem scanned_again
    (hcalls : calls = (answers ++ [expired]).map
      (ListCall.mk root (tokenOf order root) order.credentials) ++
      (again ++ [last]).map (ListCall.mk root none order.credentials))
    (hcount : answers.length ≤ rules.retry.maxRetries) (hfirm : expired ∉ answers)
    (hcount' : again.length ≤ rules.retry.maxRetries) (hfirm' : expired ∉ again)
    (htoken : (tokenOf order root).isSome = true) : Scanned rules order root calls last := by
  refine ⟨answers ++ [expired], again ++ [last], ⟨hcalls, length_tries hcount, length_tries hcount',
    fun _ => ⟨htoken, List.getLast?_concat⟩, firm_tries hfirm, firm_tries hfirm'⟩,
    fun _ _ => ?_, ?_⟩
  · exact List.append_ne_nil_of_right_ne_nil _ (List.cons_ne_nil _ _)
  · rw [← List.append_assoc, List.getLast?_concat]

end

/-- What the listing of a root comes to, by the last answer. -/
def listingResult (rules : RunRules) (root : SourceRoot)
    (last : ListAnswer) : Except RunError ChangeSet :=
  (last.getD (.error (.timeout (exceeded ("listing " ++ root.id.text) rules.itemTimeout)))).mapError
    fun e => if e = .tokenExpired then .tokenExpired root.id else .remote e

theorem listingResult_eq_ok {last : ListAnswer} {set : ChangeSet}
    (h : listingResult rules root last = .ok set) : last = some (.ok set) := by
  cases last with
  | none => cases h
  | some answer =>
    cases answer with
    | error e => cases h
    | ok set' =>
      cases h
      rfl

theorem listSince_listCalls {result : Except RemoteError ChangeSet}
    (hy : Yields (listSince rules root token credentials) h result) :
    ∃ answers last,
      listCalls root.id h = (answers ++ [last]).map (ListCall.mk root token credentials) ∧
      answers.length ≤ rules.retry.maxRetries ∧ expired ∉ answers ∧
      result =
        last.getD (.error (.timeout (exceeded ("listing " ++ root.id.text) rules.itemTimeout))) :=
  attempts_listCalls hy

/-- Only an answer says that the token has expired. -/
theorem eq_expired {last : ListAnswer} {detail : String}
    (h : .error .tokenExpired = last.getD (.error (.timeout detail))) : last = expired := by
  cases last with
  | none => cases h
  | some answer => exact congrArg some h.symm

/-- A listing that comes to its end has gone on from an expired token, and its last answer
decides. -/
theorem listingOf_listCalls {result : Except RunError ChangeSet}
    (hy : Yields (listingOf rules order root) h result) :
    ∃ last, Scanned rules order root (listCalls root.id h) last ∧
    result = listingResult rules root last := by
  obtain ⟨h₁, listed, h₂, rfl, hy₁, hy₂⟩ := yields_bind.mp hy
  obtain ⟨answers, last, hcalls, hcount, hfirm, hlisted⟩ := listSince_listCalls hy₁
  have hends : (last = expired → (tokenOf order root).isSome = false) →
      Yields (pure (listed.mapError fun e =>
        if e = .tokenExpired then RunError.tokenExpired root.id else .remote e)) h₂ result →
      ∃ last, Scanned rules order root (listCalls root.id (h₁ ++ h₂)) last ∧
        result = listingResult rules root last := by
    intro hover hy₂
    obtain ⟨rfl, rfl⟩ := yields_pure.mp hy₂
    rw [List.append_nil]
    exact ⟨last, scanned_once hcalls hcount hfirm hover, congrArg _ hlisted⟩
  split at hy₂
  · obtain rfl := eq_expired hlisted
    split at hy₂
    · next htoken =>
      obtain ⟨h₃, final, h₄, rfl, hy₃, hy₄⟩ := yields_bind.mp hy₂
      obtain ⟨rfl, rfl⟩ := yields_pure.mp hy₄
      obtain ⟨again, last, hcalls', hcount', hfirm', hfinal⟩ := listSince_listCalls hy₃
      refine ⟨last, scanned_again ?_ hcount hfirm hcount' hfirm' htoken, congrArg _ hfinal⟩
      rw [List.append_nil, listCalls_append, hcalls, hcalls']
    · next htoken => exact hends (fun _ => eq_false_of_ne_true htoken) hy₂
  · next hother =>
    refine hends ?_ hy₂
    rintro rfl
    exact absurd hlisted hother

end CollectionSync.Interleaving
