import CollectionSync.Json.Printer
import CollectionSync.Proofs.Drive.Requests

/-! # A feed of changes read page by page

A listing asks for the first page at the address of the root, and for each further page where the
one before links to. What it gives is made of the changes of all pages and the closing link of the
last one; an error of any page is all that it gives. -/

namespace CollectionSync.Drive

open Program

/-- Pages fetched one after another from the first URL on, where the last one links to the second
URL. -/
inductive Linked (client : Client) (root : RootId) (credentials : String) :
    String → Log → List Page → String → Prop
  | start (url : String) : Linked client root credentials url [] [] url
  | page {url next url' : String} {log logs : Log} {page : Page} {pages : List Page} :
    Fetched client root credentials url log (.ok page) → page.next = some next →
    Linked client root credentials next logs pages url' →
    Linked client root credentials url (log ++ logs) (page :: pages) url'

/-- Where the pages were asked for, and where the next one is. -/
def links (first : String) (pages : List Page) : List String := first :: pages.filterMap Page.next

/-- The error of a feed with too many pages. -/
def tooLong (root : RootId) : DriveError :=
  .invalidResponse ("Delta feed for " ++ root.text ++ " exceeded " ++ toString pageLimit ++
    " pages")

/-- How a listing ends that has read linked pages, so many at most, and changes before them. -/
inductive Ends (client : Client) (root : RootId) (credentials : String) (limit : Nat)
    (seen : List Change)
    (pages : List Page) (url : String) : Log → Except DriveError ChangeSet → Prop
  | complete {log : Log} {page : Page} :
    pages.length < limit → Fetched client root credentials url log (.ok page) → page.next = none →
    Ends client root credentials limit seen pages url log
      (.ok (.ofFeed (seen ++ (pages ++ [page]).flatMap Page.changes) page.closing))
  | failed {log : Log} {e : DriveError} :
    pages.length < limit → Fetched client root credentials url log (.error e) →
    Ends client root credentials limit seen pages url log (.error e)
  | cut : pages.length = limit →
    Ends client root credentials limit seen pages url [] (.error (tooLong root))

section

variable {client : Client} {root : RootId} {credentials first url : String} {log : Log}
  {pages : List Page}

/-! ## The requests of a listing -/

theorem Linked.length_links (h : Linked client root credentials first log pages url) :
    (links first pages).length = pages.length + 1 := by
  induction h with
  | start => rfl
  | page _ hnext _ ih =>
    rw [links, List.filterMap_cons_some hnext]
    exact congrArg (· + 1) ih

/-- Each page that was read took one request, at the link of the page before. -/
theorem Linked.exists_sent (h : Linked client root credentials first log pages url) :
    ∃ sent, (∀ rest, requests false (log ++ rest) = sent ++ requests false rest) ∧
      (links first pages).map (request · credentials) =
        sent.map .ok ++ [request url credentials] := by
  induction h with
  | start url => exact ⟨[], fun _ => rfl, rfl⟩
  | page hfetched hnext _ ih =>
    obtain ⟨asked, hasked, hlog⟩ := hfetched.requests_of_ok
    obtain ⟨sent, hlogs, hlinks⟩ := ih
    refine ⟨asked :: sent, fun rest => ?_, ?_⟩
    · rw [List.append_assoc, hlog, hlogs, List.cons_append]
    · rw [links, List.filterMap_cons_some hnext, List.map_cons, hasked]
      exact congrArg (Except.ok asked :: ·) hlinks

/-! ## The program of a listing -/

/-- Reads the page at a URL, and on from there. -/
def readFrom (client : Client) (root : RootId) (credentials : String) (left : Nat)
    (seen : List Change) (url : String) : HttpProgram (Except DriveError ChangeSet) :=
  client.fetchPage root credentials url >>= fun
    | .error e => pure (.error e)
    | .ok page => client.readOn root credentials left seen page

/-- What is read behind a page, of which so many may still follow. -/
def readBehind (client : Client) (root : RootId) (credentials : String) (seen : List Change)
    (url : String) :
    Nat → HttpProgram (Except DriveError ChangeSet)
  | 0 => pure (.error (tooLong root))
  | left + 1 => readFrom client root credentials left seen url

theorem readOn_eq (left : Nat) (seen : List Change) (page : Page) :
    client.readOn root credentials left seen page =
      match page.next with
      | none => pure (.ok (.ofFeed (seen ++ page.changes) page.closing))
      | some url => readBehind client root credentials (seen ++ page.changes) url left := by
  rw [Client.readOn]
  cases page.next with
  | none => rfl
  | some url => cases left <;> rfl

/-- A listing that reads a page ends with it, or goes on behind it. -/
theorem yields_readFrom_iff {left : Nat} {seen : List Change}
    {result : Except DriveError ChangeSet} :
    Yields (readFrom client root credentials left seen first) log result ↔
      (∃ e, Fetched client root credentials first log (.error e) ∧ result = .error e) ∨
      (∃ page, Fetched client root credentials first log (.ok page) ∧ page.next = none ∧
        result = .ok (.ofFeed (seen ++ page.changes) page.closing)) ∨
      ∃ page next here behind, log = here ++ behind ∧
        Fetched client root credentials first here (.ok page) ∧ page.next = some next ∧
        Yields (readBehind client root credentials (seen ++ page.changes) next left)
          behind result := by
  rw [readFrom, yields_bind]
  constructor
  · rintro ⟨here, fetched, behind, rfl, hfetched, hbehind⟩
    have hfetched := yields_fetchPage.mp hfetched
    cases fetched with
    | error e =>
      obtain ⟨rfl, rfl⟩ := yields_pure.mp hbehind
      rw [List.append_nil]
      exact .inl ⟨e, hfetched, rfl⟩
    | ok page =>
      simp only [readOn_eq] at hbehind
      cases hnext : page.next with
      | none =>
        simp only [hnext] at hbehind
        obtain ⟨rfl, rfl⟩ := yields_pure.mp hbehind
        rw [List.append_nil]
        exact .inr (.inl ⟨page, hfetched, hnext, rfl⟩)
      | some next =>
        simp only [hnext] at hbehind
        exact .inr (.inr ⟨page, next, here, behind, rfl, hfetched, hnext, hbehind⟩)
  · rintro (⟨e, hfetched, rfl⟩ | ⟨page, hfetched, hnext, rfl⟩ |
      ⟨page, next, here, behind, rfl, hfetched, hnext, hbehind⟩)
    · exact ⟨log, _, [], (List.append_nil log).symm, yields_fetchPage.mpr hfetched, .refl _⟩
    · refine ⟨log, _, [], (List.append_nil log).symm, yields_fetchPage.mpr hfetched, ?_⟩
      simp only [readOn_eq, hnext]
      exact .refl _
    · refine ⟨here, _, behind, rfl, yields_fetchPage.mpr hfetched, ?_⟩
      simp only [readOn_eq, hnext]
      exact hbehind

section

variable {limit : Nat} {seen : List Change} {result : Except DriveError ChangeSet} {page : Page}

theorem Ends.of_last (hfetched : Fetched client root credentials url log (.ok page))
    (hlast : page.next = none) :
    Ends client root credentials (limit + 1) seen [] url log
      (.ok (.ofFeed (seen ++ page.changes) page.closing)) := by
  have hchanges : page.changes = ([] ++ [page]).flatMap Page.changes :=
    (List.append_nil page.changes).symm
  rw [hchanges]
  exact .complete (Nat.succ_pos limit) hfetched hlast

theorem Ends.cons
    (h : Ends client root credentials limit (seen ++ page.changes) pages url log result) :
    Ends client root credentials (limit + 1) seen (page :: pages) url log result := by
  cases h with
  | complete hlimit hfetched hlast =>
    rw [List.append_assoc]
    exact .complete (Nat.succ_lt_succ hlimit) hfetched hlast
  | failed hlimit hfetched => exact .failed (Nat.succ_lt_succ hlimit) hfetched
  | cut hlimit => exact .cut (congrArg (· + 1) hlimit)

theorem Ends.of_cons
    (h : Ends client root credentials (limit + 1) seen (page :: pages) url log result) :
    Ends client root credentials limit (seen ++ page.changes) pages url log result := by
  cases h with
  | @complete _ last hlimit hfetched hlast =>
    have hchanges : seen ++ (page :: pages ++ [last]).flatMap Page.changes =
        seen ++ page.changes ++ (pages ++ [last]).flatMap Page.changes :=
      (List.append_assoc _ _ _).symm
    rw [hchanges]
    exact .complete (Nat.lt_of_succ_lt_succ hlimit) hfetched hlast
  | failed hlimit hfetched => exact .failed (Nat.lt_of_succ_lt_succ hlimit) hfetched
  | cut hlimit => exact .cut (Nat.succ.inj hlimit)

/-- Whoever may read no page more is told that there are too many. -/
theorem Ends.of_zero (h : Ends client root credentials 0 seen pages url log result) :
    pages = [] ∧ log = [] ∧ result = .error (tooLong root) := by
  cases h with
  | complete hlimit | failed hlimit => exact absurd hlimit (Nat.not_lt_zero _)
  | cut hlimit => exact ⟨List.length_eq_zero_iff.mp hlimit, rfl, rfl⟩

end

/-- A listing reads linked pages, and then the last page, or a page that fails, or too many. -/
theorem ends_of_yields {left : Nat} {seen : List Change} {result : Except DriveError ChangeSet}
    (h : Yields (readFrom client root credentials left seen first) log result) :
    ∃ before pages url last, log = before ++ last ∧
    Linked client root credentials first before pages url ∧
      Ends client root credentials (left + 1) seen pages url last result := by
  induction left generalizing first seen log with
  | zero =>
    rcases yields_readFrom_iff.mp h with ⟨e, hfetched, rfl⟩ | ⟨page, hfetched, hnext, rfl⟩ |
      ⟨page, next, here, behind, rfl, hfetched, hnext, hbehind⟩
    · exact ⟨[], [], first, log, rfl, .start first, .failed Nat.one_pos hfetched⟩
    · exact ⟨[], [], first, log, rfl, .start first, .of_last hfetched hnext⟩
    · obtain ⟨rfl, rfl⟩ := yields_pure.mp hbehind
      exact ⟨here ++ [], [page], next, [], (List.append_nil _).symm,
        .page hfetched hnext (.start next), .cut rfl⟩
  | succ left ih =>
    rcases yields_readFrom_iff.mp h with ⟨e, hfetched, rfl⟩ | ⟨page, hfetched, hnext, rfl⟩ |
      ⟨page, next, here, behind, rfl, hfetched, hnext, hbehind⟩
    · exact ⟨[], [], first, log, rfl, .start first, .failed (Nat.succ_pos _) hfetched⟩
    · exact ⟨[], [], first, log, rfl, .start first, .of_last hfetched hnext⟩
    · obtain ⟨before, pages, url, last, rfl, hlinked, hends⟩ := ih hbehind
      exact ⟨here ++ before, page :: pages, url, last, (List.append_assoc _ _ _).symm,
        .page hfetched hnext hlinked, hends.cons⟩

theorem yields_of_ends {left : Nat} {seen : List Change} {result : Except DriveError ChangeSet}
    {last : Log} (hlinked : Linked client root credentials first log pages url)
    (hends : Ends client root credentials (left + 1) seen pages url last result) :
    Yields (readFrom client root credentials left seen first) (log ++ last) result := by
  induction hlinked generalizing left seen with
  | start url =>
    cases hends with
    | complete _ hfetched hnext =>
      exact yields_readFrom_iff.mpr (.inr (.inl ⟨_, hfetched, hnext, by simp⟩))
    | failed _ hfetched => exact yields_readFrom_iff.mpr (.inl ⟨_, hfetched, rfl⟩)
    | cut hlimit => cases hlimit
  | page hfetched hnext hrest ih =>
    refine yields_readFrom_iff.mpr
      (.inr (.inr ⟨_, _, _, _, List.append_assoc _ _ _, hfetched, hnext, ?_⟩))
    cases left with
    | zero =>
      -- the page was the last one that could be read, so its link is not followed
      obtain ⟨rfl, rfl, rfl⟩ := hends.of_cons.of_zero
      cases hrest
      exact .refl _
    | succ left => exact ih hends.of_cons

end

theorem listChanges_eq (client : Client) (root : SourceRoot) (token : Option DeltaToken)
    (credentials : String) : client.listChanges root token credentials =
      readFrom client root.id credentials (pageLimit - 1) []
        (client.base ++ deltaPath root token) := by
  refine congrArg
    (client.fetchPage root.id credentials (client.base ++ deltaPath root token) >>= ·) ?_
  funext fetched
  cases fetched <;> rfl

/-- Everything that can come of a listing. -/
theorem yields_listChanges {client : Client} {root : SourceRoot} {token : Option DeltaToken}
    {credentials : String} {log : Log} {result : Except DriveError ChangeSet} :
    Yields (client.listChanges root token credentials) log result ↔
      ∃ before pages url last, log = before ++ last ∧
        Linked client root.id credentials (client.base ++ deltaPath root token) before pages url ∧
        Ends client root.id credentials pageLimit [] pages url last result := by
  rw [listChanges_eq]
  constructor
  · exact ends_of_yields
  · rintro ⟨before, pages, url, last, rfl, hlinked, hends⟩
    exact yields_of_ends hlinked hends

/-- A feed whose pages can all be fetched is listed in full, with one request for each page and the
closing link of the last one; otherwise the error of the first page that cannot be fetched is all
that is given, and no further page is asked for. A link that is no URL is such an error, with no
request. -/
theorem listed_in_full (client : Client) (root : SourceRoot) (token : Option DeltaToken)
    {credentials : String} {before last : Log} {pages : List Page} {url : String}
    (hlinked :
      Linked client root.id credentials (client.base ++ deltaPath root token) before pages url)
    (hlimit : pages.length < pageLimit) :
    let listing := client.listChanges root token credentials
    let asked := (links (client.base ++ deltaPath root token) pages).map (request · credentials)
    asked.length = pages.length + 1 ∧
    (∀ page, Fetched client root.id credentials url last (.ok page) → page.next = none →
      Yields listing (before ++ last)
        (.ok (.ofFeed ((pages ++ [page]).flatMap Page.changes) page.closing)) ∧
      (requests false (before ++ last)).map .ok = asked) ∧
    (∀ r e, request url credentials = .ok r →
      Fetched client root.id credentials url last (.error e) →
      Yields listing (before ++ last) (.error e) ∧
      (requests false (before ++ last)).map .ok = asked) ∧
    ∀ e, request url credentials = .error e →
      Yields listing before (.error e) ∧ (requests false before).map .ok ++ [.error e] = asked := by
  intro listing asked
  obtain ⟨sent, hsent, hasked⟩ := hlinked.exists_sent
  have hone (h : (requests false last).map .ok = [request url credentials]) :
      (requests false (before ++ last)).map .ok = asked := by
    rw [hsent, List.map_append, h]
    exact hasked.symm
  have hyields {log : Log} {result : Except DriveError ChangeSet}
      (hends : Ends client root.id credentials pageLimit [] pages url log result) :
      Yields listing (before ++ log) result :=
    yields_listChanges.mpr ⟨before, pages, url, log, rfl, hlinked, hends⟩
  refine ⟨(List.length_map _).trans hlinked.length_links, fun page hfetched hnext => ?_,
    fun r e hrequest hfetched => ?_, fun e hrequest => ?_⟩
  · refine ⟨hyields (.complete hlimit hfetched hnext), ?_⟩
    rcases hfetched.one_request with h | ⟨e, -, -, h⟩
    · exact hone h
    · cases h
  · refine ⟨hyields (.failed hlimit hfetched), ?_⟩
    rcases hfetched.one_request with h | ⟨e', h, -⟩
    · exact hone h
    · cases hrequest.symm.trans h
  · have hnothing := hsent []
    rw [List.append_nil] at hnothing
    have hfailed := hyields (.failed hlimit (.unsent hrequest))
    rw [List.append_nil] at hfailed
    refine ⟨hfailed, ?_⟩
    rw [hnothing, ← hrequest, show requests false [] = [] from rfl, List.append_nil]
    exact hasked.symm

namespace TwoPages

def root : SourceRoot := ⟨⟨"drive"⟩, none, none⟩

def client : Client := .at "http://h/"

def asked (path : String) : HttpRequest :=
  ⟨⟨"http".toList, [], some "h".toList, none, path.toList, none, none⟩, some "Bearer t"⟩

def response (body : Json) : HttpResponse := ⟨200, [], body.render.toUTF8.data.toList, none⟩

/-- A page with a file, which links on and has a closing link all the same. -/
def first : Json := .obj
  [("value", .arr [.obj [("id", .str "a"), ("name", .str "a.txt"), ("file", .obj [])]]),
    ("@odata.nextLink", .str "http://h/2"), ("@odata.deltaLink", .str "http://h/d?token=early")]

/-- A page with a file that was removed, and the link that closes the feed. -/
def second : Json := .obj
  [("value", .arr [.obj [("id", .str "b"), ("deleted", .obj [])]]),
    ("@odata.deltaLink", .str "http://h/d?token=late")]

def file : Item := ⟨⟨"a"⟩, ⟨"drive"⟩, "a.txt", none, none, none, 0⟩

/-- What is heard of a page, with the time. -/
def heard (path : String) (body : Json) : Log :=
  [exchanged (asked path) (.ok (response body)), told ⟨60, 0⟩]

theorem fetched {url path : String} {body : Json} {page : Page}
    (hasked : (request url "t").toOption = some (asked path))
    (hpage : (client.page root.id (response body)).toOption = some page) :
    Fetched client root.id "t" url (heard path body) (.ok page) := by
  have hok {α : Type} {result : Except DriveError α} {a : α} (h : result.toOption = some a) :
      result = .ok a := by
    cases result with
    | error e => cases h
    | ok b => exact congrArg Except.ok (Option.some.inj h)
  show Fetched client root.id "t" url ([exchanged (asked path) (.ok (response body))] ++
    [told ⟨60, 0⟩]) _
  rw [← hok hpage]
  exact .answered (hok hasked) (.response rfl) rfl (page_reads client root.id _)

end TwoPages

open TwoPages in
/-- A feed of two pages, both of which have a closing link. -/
theorem listed_in_full_two_pages :
    let page : Page := ⟨[.upsert file], some "http://h/2", some "http://h/d?token=early"⟩
    let last : Page := ⟨[.removed ⟨"b"⟩], none, some "http://h/d?token=late"⟩
    let before := heard "/me/drive/root/delta" first
    (Linked client root.id "t" (client.base ++ deltaPath root none) before [page] "http://h/2" ∧
      [page].length < pageLimit ∧
      Fetched client root.id "t" "http://h/2" (heard "/2" second) (.ok last)) ∧
    Yields (client.listChanges root none "t") (before ++ heard "/2" second)
      (.ok ⟨[file], [⟨"b"⟩], some ⟨"late"⟩⟩) ∧
    (requests false (before ++ heard "/2" second)).map Except.ok =
      [request "http://h/me/drive/root/delta" "t", request "http://h/2" "t"] := by
  intro page last before
  have hlast : Fetched client root.id "t" "http://h/2" (heard "/2" second) (.ok last) :=
    fetched (by decide +kernel) (by decide +kernel)
  have hlinked :
      Linked client root.id "t" (client.base ++ deltaPath root none) before [page] "http://h/2" :=
    .page (fetched (by decide +kernel) (by decide +kernel)) rfl (.start _)
  have hset : ChangeSet.ofFeed (([page] ++ [last]).flatMap Page.changes) last.closing =
      ⟨[file], [⟨"b"⟩], some ⟨"late"⟩⟩ := by decide +kernel
  have hlinks : links (client.base ++ deltaPath root none) [page] =
      ["http://h/me/drive/root/delta", "http://h/2"] := by decide +kernel
  have hlisted := (listed_in_full client root none hlinked (by decide)).2.1 last hlast rfl
  rw [hset, hlinks] at hlisted
  exact ⟨⟨hlinked, by decide, hlast⟩, hlisted⟩

end CollectionSync.Drive
