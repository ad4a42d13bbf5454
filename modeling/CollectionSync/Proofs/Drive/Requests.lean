import CollectionSync.Drive.Client
import CollectionSync.Proofs.Program

/-! # What a request to the drive service comes to

`Fetched` lists every way in which a page is asked for, what the server answers meanwhile, and what
comes of it. A redirect is followed within a request: `requests` are the exchanges of a log that the
client has begun on its own. -/

namespace CollectionSync.Drive

open Program

/-- What a client has asked, with the answers. -/
abbrev Log := List (Heard HttpAsk.Answer)

/-- A request and what the server answered. -/
def exchanged (request : HttpRequest) (answer : Except SendFault HttpResponse) :
    Heard HttpAsk.Answer :=
  ⟨.exchange request, answer⟩

/-- A look at the clock. -/
def told (now : Instant) : Heard HttpAsk.Answer := ⟨.clock, now⟩

/-- How a request is delivered that may be redirected so many times. -/
inductive Delivered : Nat → HttpRequest → Log → Delivery → Prop
  | fault {left : Nat} {request : HttpRequest} (fault : SendFault) :
    Delivered left request [exchanged request (.error fault)] (.fault request.url fault)
  | response {left : Nat} {request : HttpRequest} {r : HttpResponse} :
    redirectTarget? request.url r = none →
    Delivered left request [exchanged request (.ok r)] (.response request.url r)
  | lost {request : HttpRequest} {r : HttpResponse} {target : Url} :
    redirectTarget? request.url r = some target →
    Delivered 0 request [exchanged request (.ok r)] (.tooManyRedirects request.url)
  | redirected {left : Nat} {request : HttpRequest} {r : HttpResponse} {target : Url} {log : Log}
      {delivery : Delivery} :
    redirectTarget? request.url r = some target →
    Delivered left (request.sentOn target) log delivery →
    Delivered (left + 1) request (exchanged request (.ok r) :: log) delivery

/-- The error that a request ends with that got no response. -/
def Delivery.failure? : Delivery → Option DriveError
  | .response _ _ => none
  | .fault url .broken => some (urlError "error sending request" url)
  | .fault url .late => some (.timeout ("error sending request for url (" ++ url.text ++ ")"))
  | .tooManyRedirects url => some (urlError "error following redirect" url)

/-- What a response of success says: a page, with the changes of its items in order, unless its body
has not come or cannot be read. -/
inductive Reads (client : Client) (root : RootId) (r : HttpResponse) :
    Except DriveError Page → Prop
  | late : r.bodyFault = some .late →
    Reads client root r (.error (.timeout "error decoding response body"))
  | cut : r.bodyFault = some .cut → Reads client root r (.error unreadable)
  | garbled : r.bodyFault = none → client.decode r.body = none →
    Reads client root r (.error unreadable)
  | page {raw : RawPage} : r.bodyFault = none → client.decode r.body = some raw →
    Reads client root r
      (.ok ⟨raw.items.filterMap (RawItem.change? root), raw.next, raw.closing⟩)

/-- How the page at a URL is fetched. -/
inductive Fetched (client : Client) (root : RootId) (credentials url : String) :
    Log → Except DriveError Page → Prop
  /-- There is no request for the URL. -/
  | unsent {e : DriveError} : request url credentials = .error e →
    Fetched client root credentials url [] (.error e)
  | failed {asked : HttpRequest} {log : Log} {delivery : Delivery} {e : DriveError} :
    request url credentials = .ok asked → Delivered redirectLimit asked log delivery →
    delivery.failure? = some e → Fetched client root credentials url log (.error e)
  /-- The status of the response is an error. -/
  | refused {asked : HttpRequest} {log : Log} {at' : Url} {r : HttpResponse} {now : Instant}
      {e : DriveError} :
    request url credentials = .ok asked → Delivered redirectLimit asked log (.response at' r) →
    statusError? at' r now = some e →
    Fetched client root credentials url (log ++ [told now]) (.error e)
  | answered {asked : HttpRequest} {log : Log} {at' : Url} {r : HttpResponse} {now : Instant}
      {result : Except DriveError Page} :
    request url credentials = .ok asked → Delivered redirectLimit asked log (.response at' r) →
    statusError? at' r now = none → Reads client root r result →
    Fetched client root credentials url (log ++ [told now]) result

/-! ## The programs of the client -/

theorem yields_exchange {asked : HttpRequest} {log : Log} {answer : Except SendFault HttpResponse} :
    Yields (exchange asked) log answer ↔ log = [exchanged asked answer] := by
  have h : Yields (question (HttpAsk.exchange asked)) log answer ↔ _ := yields_question
  exact h

theorem yields_clock {log : Log} {now : Instant} : Yields clock log now ↔ log = [told now] := by
  have h : Yields (question HttpAsk.clock) log now ↔ _ := yields_question
  exact h

/-- What comes after a redirect, of which so many may still be followed. -/
def followed (asked : HttpRequest) (target : Url) : Nat → HttpProgram Delivery
  | 0 => pure (.tooManyRedirects asked.url)
  | left + 1 => deliver left (asked.sentOn target)

theorem deliver_eq (left : Nat) (asked : HttpRequest) :
    deliver left asked = exchange asked >>= fun
      | .error fault => pure (.fault asked.url fault)
      | .ok r =>
        match redirectTarget? asked.url r with
        | none => pure (.response asked.url r)
        | some target => followed asked target left := by
  rw [deliver]
  refine congrArg (exchange asked >>= ·) (funext fun answer => ?_)
  cases answer with
  | error fault => rfl
  | ok r => cases redirectTarget? asked.url r <;> cases left <;> rfl

/-- A request fails, or is answered, or is sent on. -/
theorem yields_deliver_iff {left : Nat} {asked : HttpRequest} {log : Log} {delivery : Delivery} :
    Yields (deliver left asked) log delivery ↔
      (∃ fault, log = [exchanged asked (.error fault)] ∧ delivery = .fault asked.url fault) ∨
      (∃ r, redirectTarget? asked.url r = none ∧ log = [exchanged asked (.ok r)] ∧
        delivery = .response asked.url r) ∨
      ∃ r target rest, redirectTarget? asked.url r = some target ∧
        log = exchanged asked (.ok r) :: rest ∧
        Yields (followed asked target left) rest delivery := by
  rw [deliver_eq, yields_bind]
  constructor
  · rintro ⟨_, answer, rest, rfl, hasked, hrest⟩
    obtain rfl := yields_exchange.mp hasked
    cases answer with
    | error fault =>
      obtain ⟨rfl, rfl⟩ := yields_pure.mp hrest
      exact .inl ⟨fault, rfl, rfl⟩
    | ok r =>
      cases htarget : redirectTarget? asked.url r with
      | none =>
        simp only [htarget] at hrest
        obtain ⟨rfl, rfl⟩ := yields_pure.mp hrest
        exact .inr (.inl ⟨r, htarget, rfl, rfl⟩)
      | some target =>
        simp only [htarget] at hrest
        exact .inr (.inr ⟨r, target, rest, htarget, rfl, hrest⟩)
  · rintro (⟨fault, rfl, rfl⟩ | ⟨r, htarget, rfl, rfl⟩ | ⟨r, target, rest, htarget, rfl, hrest⟩)
    · exact ⟨_, _, [], rfl, yields_exchange.mpr rfl, yields_pure.mpr ⟨rfl, rfl⟩⟩
    · refine ⟨_, _, [], rfl, yields_exchange.mpr rfl, ?_⟩
      simp only [htarget]
      exact yields_pure.mpr ⟨rfl, rfl⟩
    · refine ⟨_, _, rest, rfl, yields_exchange.mpr rfl, ?_⟩
      simp only [htarget]
      exact hrest

theorem yields_deliver {left : Nat} {asked : HttpRequest} {log : Log} {delivery : Delivery} :
    Yields (deliver left asked) log delivery ↔ Delivered left asked log delivery := by
  constructor
  · intro h
    induction left generalizing asked log with
    | zero =>
      rcases yields_deliver_iff.mp h with ⟨fault, rfl, rfl⟩ | ⟨r, htarget, rfl, rfl⟩ |
        ⟨r, target, rest, htarget, rfl, hrest⟩
      · exact .fault fault
      · exact .response htarget
      · obtain ⟨rfl, rfl⟩ := yields_pure.mp hrest
        exact .lost htarget
    | succ left ih =>
      rcases yields_deliver_iff.mp h with ⟨fault, rfl, rfl⟩ | ⟨r, htarget, rfl, rfl⟩ |
        ⟨r, target, rest, htarget, rfl, hrest⟩
      · exact .fault fault
      · exact .response htarget
      · exact .redirected htarget (ih hrest)
  · intro h
    induction h with
    | fault fault => exact yields_deliver_iff.mpr (.inl ⟨fault, rfl, rfl⟩)
    | response htarget => exact yields_deliver_iff.mpr (.inr (.inl ⟨_, htarget, rfl, rfl⟩))
    | lost htarget =>
      exact yields_deliver_iff.mpr
        (.inr (.inr ⟨_, _, [], htarget, rfl, yields_pure.mpr ⟨rfl, rfl⟩⟩))
    | redirected htarget _ ih =>
      exact yields_deliver_iff.mpr (.inr (.inr ⟨_, _, _, htarget, rfl, ih⟩))

theorem page_reads (client : Client) (root : RootId) (r : HttpResponse) :
    Reads client root r (client.page root r) := by
  unfold Client.page
  split
  · next hfault => exact .late hfault
  · next hfault => exact .cut hfault
  · next hwhole =>
    split
    · next raw hraw => exact .page hwhole hraw
    · next hnone => exact .garbled hwhole hnone

theorem Reads.page_eq {client : Client} {root : RootId} {r : HttpResponse}
    {result : Except DriveError Page} (h : Reads client root r result) :
    client.page root r = result := by
  cases h with
  | late hfault | cut hfault =>
    rw [Client.page, hfault]
  | garbled hwhole hnone => simp only [Client.page, hwhole, hnone]
  | page hwhole hraw =>
    simp only [Client.page, hwhole, hraw]
    rfl

/-- What a client makes of a delivery. -/
def received (client : Client) (root : RootId) : Delivery → HttpProgram (Except DriveError Page)
  | .response at' r => clock >>= fun now =>
    pure (match statusError? at' r now with
      | some e => .error e
      | none => client.page root r)
  | .fault at' .broken => pure (.error (urlError "error sending request" at'))
  | .fault at' .late =>
    pure (.error (.timeout ("error sending request for url (" ++ at'.text ++ ")")))
  | .tooManyRedirects at' => pure (.error (urlError "error following redirect" at'))

theorem received_of_failure {client : Client} {root : RootId} {delivery : Delivery} {e : DriveError}
    (h : delivery.failure? = some e) : received client root delivery = pure (.error e) := by
  match delivery with
  | .response .. => cases h
  | .fault _ .broken | .fault _ .late | .tooManyRedirects _ =>
    cases h
    rfl

theorem fetchPage_eq (client : Client) (root : RootId) (credentials url : String) :
    client.fetchPage root credentials url =
      match request url credentials with
      | .error e => pure (.error e)
      | .ok asked => deliver redirectLimit asked >>= received client root := by
  unfold Client.fetchPage send
  cases request url credentials with
  | error e => rfl
  | ok asked =>
    refine (bind_assoc _ _ _).trans (congrArg (deliver redirectLimit asked >>= ·) (funext ?_))
    intro delivery
    match delivery with
    | .response at' r =>
      refine (bind_assoc _ _ _).trans (congrArg (clock >>= ·) (funext fun now => ?_))
      cases statusError? at' r now <;> rfl
    | .fault _ .broken | .fault _ .late | .tooManyRedirects _ => rfl

theorem yields_fetchPage {client : Client} {root : RootId} {credentials url : String} {log : Log}
    {result : Except DriveError Page} :
    Yields (client.fetchPage root credentials url) log result ↔
      Fetched client root credentials url log result := by
  rw [fetchPage_eq]
  constructor
  · intro h
    cases hasked : request url credentials with
    | error e =>
      simp only [hasked] at h
      obtain ⟨rfl, rfl⟩ := yields_pure.mp h
      exact .unsent hasked
    | ok asked =>
      simp only [hasked] at h
      obtain ⟨log, delivery, rest, rfl, hdelivered, hrest⟩ := yields_bind.mp h
      have hdelivered := yields_deliver.mp hdelivered
      cases hfailure : delivery.failure? with
      | some e =>
        rw [received_of_failure hfailure] at hrest
        obtain ⟨rfl, rfl⟩ := yields_pure.mp hrest
        rw [List.append_nil]
        exact .failed hasked hdelivered hfailure
      | none =>
        match delivery with
        | .response at' r =>
          obtain ⟨_, now, _, rfl, hnow, hpage⟩ := yields_bind.mp hrest
          obtain rfl := yields_clock.mp hnow
          obtain ⟨rfl, rfl⟩ := yields_pure.mp hpage
          cases hstatus : statusError? at' r now with
          | some e => exact .refused hasked hdelivered hstatus
          | none => exact .answered hasked hdelivered hstatus (page_reads client root r)
        | .fault _ .broken | .fault _ .late | .tooManyRedirects _ => cases hfailure
  · intro h
    have hresponse {asked : HttpRequest} {log : Log} {at' : Url} {r : HttpResponse} (now : Instant)
        (hdelivered : Delivered redirectLimit asked log (.response at' r)) :
        Yields (deliver redirectLimit asked >>= received client root) (log ++ [told now])
          (match statusError? at' r now with
            | some e => .error e
            | none => client.page root r) :=
      yields_bind.mpr ⟨log, _, _, rfl, yields_deliver.mpr hdelivered,
        yields_bind.mpr ⟨_, now, [], rfl, yields_clock.mpr rfl, .refl _⟩⟩
    cases h with
    | unsent hasked =>
      simp only [hasked]
      exact .refl _
    | failed hasked hdelivered hfailure =>
      simp only [hasked]
      refine yields_bind.mpr ⟨log, _, [], (List.append_nil log).symm,
        yields_deliver.mpr hdelivered, ?_⟩
      rw [received_of_failure hfailure]
      exact .refl _
    | @refused _ _ _ _ now _ hasked hdelivered hstatus =>
      simp only [hasked]
      have hyields := hresponse now hdelivered
      rwa [hstatus] at hyields
    | @answered _ _ _ _ now _ hasked hdelivered hstatus hreads =>
      simp only [hasked]
      have hyields := hresponse now hdelivered
      rwa [hstatus, hreads.page_eq] at hyields

/-! ## Requests of a log -/

/-- Whether an exchange has another one follow. -/
def sendsOn (asked : HttpRequest) : Except SendFault HttpResponse → Bool
  | .ok r => (redirectTarget? asked.url r).isSome
  | .error _ => false

/-- The requests that the client has begun on its own; the flag tells that the first exchange of the
log follows a redirect. -/
def requests : Bool → Log → List HttpRequest
  | _, [] => []
  | _, ⟨.clock, _⟩ :: log => requests false log
  | redirected, ⟨.exchange asked, answer⟩ :: log =>
    (if redirected then [] else [asked]) ++ requests (sendsOn asked answer) log

theorem requests_exchanged (redirected : Bool) (asked : HttpRequest)
    (answer : Except SendFault HttpResponse) (log : Log) :
    requests redirected (exchanged asked answer :: log) =
      (if redirected then [] else [asked]) ++ requests (sendsOn asked answer) log := rfl

/-- However often it is redirected, a request is one. -/
theorem Delivered.one_request {left : Nat} {asked : HttpRequest} {log : Log} {delivery : Delivery}
    (h : Delivered left asked log delivery) (redirected : Bool) : ∃ redirected', ∀ rest,
      requests redirected (log ++ rest) =
        (if redirected then [] else [asked]) ++ requests redirected' rest := by
  induction h generalizing redirected with
  | fault | response | lost => exact ⟨_, fun rest => requests_exchanged redirected _ _ rest⟩
  | redirected htarget _ ih =>
    -- the exchange that follows is not one of the client's own
    obtain ⟨redirected', hrest⟩ := ih true
    refine ⟨redirected', fun rest => ?_⟩
    rw [List.cons_append, requests_exchanged, sendsOn, htarget, Option.isSome_some, hrest]
    rfl

/-- A page is fetched by one request, after which the client begins its next one. -/
theorem Fetched.requests_of_ok {client : Client} {root : RootId} {credentials url : String}
    {log : Log} {page : Page} (h : Fetched client root credentials url log (.ok page)) : ∃ asked,
      request url credentials = .ok asked ∧
        ∀ rest, requests false (log ++ rest) = asked :: requests false rest := by
  generalize hresult : Except.ok page = result at h
  cases h with
  | unsent | failed | refused => cases hresult
  | @answered asked log _ _ now _ hasked hdelivered =>
    obtain ⟨redirected, hrest⟩ := hdelivered.one_request false
    refine ⟨asked, hasked, fun rest => ?_⟩
    rw [List.append_assoc, hrest]
    rfl

/-- Whatever comes of it, a page is asked for by one request, where there is one for the URL. -/
theorem Fetched.one_request {client : Client} {root : RootId} {credentials url : String} {log : Log}
    {result : Except DriveError Page} (h : Fetched client root credentials url log result) :
    (requests false log).map .ok = [request url credentials] ∨
      ∃ e, request url credentials = .error e ∧ log = [] ∧ result = .error e := by
  have hone {asked : HttpRequest} {log : Log} {delivery : Delivery}
      (hasked : request url credentials = .ok asked)
      (hdelivered : Delivered redirectLimit asked log delivery) (rest : Log)
      (hrest : ∀ redirected, requests redirected rest = []) :
      (requests false (log ++ rest)).map .ok = [request url credentials] := by
    obtain ⟨redirected, hlog⟩ := hdelivered.one_request false
    rw [hlog, hrest, hasked]
    rfl
  cases h with
  | unsent hasked => exact .inr ⟨_, hasked, rfl, rfl⟩
  | failed hasked hdelivered =>
    rw [← List.append_nil log]
    exact .inl (hone hasked hdelivered [] fun _ => rfl)
  | refused hasked hdelivered | answered hasked hdelivered =>
    exact .inl (hone hasked hdelivered [told _] fun _ => rfl)

end CollectionSync.Drive
