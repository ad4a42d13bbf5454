import CollectionSync.Proofs.Drive.Paths
import CollectionSync.Drive.Client

/-! # Tokens in links

A token that is put into the link to a root's changes is what is read out of that link, whatever the
token, the drive and the folder say, as long as neither of the two ends the path before its time. -/

namespace CollectionSync.Drive

open Url (IsBase Fronts Plain formEncode isFormMark isFormMark_of_mem)

/-- A query of one pair says what was put in. -/
theorem queryValue?_pair {u : Url} {name value : List Char}
    (h : u.query = some (formEncode name ++ '=' :: formEncode value)) :
    u.queryValue? name = some value := by
  rw [Url.queryValue?, h, Option.bind_some, Url.queryPairs_pair, List.find?_cons_of_pos (by simp)]
  rfl

/-- What is written of a pair means nothing to the query, and holds no blanks. -/
theorem pair_plain (name value : List Char) : ∀ c ∈ formEncode name ++ '=' :: formEncode value,
    c.toNat < 0x80 ∧ Url.escapedInQuery true c = false ∧ Url.isKept c = true ∧
    Url.isOuter c = false ∧
      c ≠ '#' := by
  have hmark : ∀ c, isFormMark c = true ∧ c.toNat < 0x80 → c.toNat < 0x80 ∧
      Url.escapedInQuery true c = false ∧ Url.isKept c = true ∧ Url.isOuter c = false ∧
      c ≠ '#' := by
    have hascii : ∀ n < 0x80, isFormMark (Char.ofNat n) = true →
        Url.escapedInQuery true (Char.ofNat n) = false ∧ Url.isKept (Char.ofNat n) = true ∧
          Url.isOuter (Char.ofNat n) = false ∧ Char.ofNat n ≠ '#' := by decide +kernel
    rintro c ⟨hc, hlt⟩
    have hplain := hascii c.toNat hlt
    rw [Char.ofNat_toNat] at hplain
    exact ⟨hlt, hplain hc⟩
  intro c hc
  rw [List.mem_append, List.mem_cons] at hc
  rcases hc with hc | rfl | hc
  · exact hmark c (isFormMark_of_mem c hc)
  · decide
  · exact hmark c (isFormMark_of_mem c hc)

/-- A pair put behind a path is the query of what is read. -/
theorem query_of_link {text path : List Char} {site : Url} (h : Fronts text site path)
    {front : List Char} (hfront : Plain front) (name value : List Char) :
    ∃ u, Url.read? (text ++ '/' :: (front ++ '?' :: (formEncode name ++ '=' :: formEncode value))) =
        some u ∧ u.query = some (formEncode name ++ '=' :: formEncode value) := by
  have hpair := pair_plain name value
  generalize hq : formEncode name ++ '=' :: formEncode value = q at hpair ⊢
  have hclosed : ∀ c ∈ (front ++ '?' :: q).getLast?, Url.isOuter c = false := by
    intro c hc
    have hmem : c ∈ '?' :: q := by
      rw [List.getLast?_append, List.getLast?_eq_some_getLast (List.cons_ne_nil '?' q),
        Option.some_or] at hc
      rw [← Option.some.inj hc]
      exact List.getLast_mem _
    rcases List.mem_cons.mp hmem with rfl | hmem
    · decide
    · exact (hpair c hmem).2.2.2.1
  have hkept : (front ++ '?' :: q).filter Url.isKept = front.filter Url.isKept ++ '?' :: q := by
    have hself : q.filter Url.isKept = q := List.filter_eq_self.mpr fun c hc => (hpair c hc).2.2.1
    rw [List.filter_append, List.filter_cons_of_pos (by decide), hself]
  have hpath : Plain (path ++ '/' :: front.filter Url.isKept) :=
    h.plain.append_slash fun c hc => hfront c (List.mem_filter.mp hc).1
  refine ⟨_, h.reads _ hclosed, ?_⟩
  rw [hkept, ← List.cons_append, ← List.append_assoc,
    Url.withTail_query hpath fun hmem => (hpair _ hmem).2.2.2.2 rfl,
    Url.percentEncode_of_plain fun c hc => ⟨(hpair c hc).1, (hpair c hc).2.1⟩]

variable {root : SourceRoot} {front base : String} {u : Url}

/-- The token of a link is the one that was put into it. -/
theorem linkToken?_deltaPath {site : Url} {path : List Char} (h : Fronts front.toList site path)
    (hroot : Plain (deltaPath root none).toList) (token : DeltaToken) :
    linkToken? (front ++ deltaPath root (some token)) = some token.text := by
  have hname : "token".toList = formEncode "token".toList := by decide +kernel
  obtain ⟨feed, hfeed, -⟩ := deltaPath_rooted root
  rw [hfeed] at hroot
  have hplain : Plain feed := fun c hc => hroot c (List.mem_cons_of_mem '/' hc)
  obtain ⟨u, hread, hquery⟩ := query_of_link h hplain "token".toList token.text.toList
  have htext : (front ++ deltaPath root (some token)).toList = front.toList ++ '/' ::
      (feed ++ '?' :: (formEncode "token".toList ++ '=' :: formEncode token.text.toList)) := by
    rw [String.toList_append, deltaPath_token, hfeed, ← hname]
    rfl
  rw [linkToken?, htext, hread, Option.bind_some, queryValue?_pair hquery, Option.map_some,
    String.ofList_toList]

theorem token_of_link (link : String) (changes : List Change) {token : DeltaToken}
    (hlink : linkToken? link = some token.text) (htoken : token.text ≠ "") :
    (ChangeSet.ofFeed changes (some link)).token = some token := by
  have hok : DeltaToken.ofText token.text = .ok token := if_neg (by simpa using htoken)
  simp only [ChangeSet.ofFeed, Option.bind_some, hlink, Option.getD_some, hok]
  rfl

/-- A token survives the way into the next link and back: behind a base as it was given or as a
client keeps it, the link to a root's changes since a token gives that token, and a feed that closes
with the link leaves the token to go on from. -/
theorem token_survives (hbase : IsBase base u)
    (hdrive : ∀ drive ∈ root.drive, '?' ∉ drive.toList ∧ '#' ∉ drive.toList)
    (hfolder : ∀ folder ∈ root.folder, '?' ∉ folder.toList ∧ '#' ∉ folder.toList)
    {token : DeltaToken}
    (htoken : token.text ≠ "") (hfront : front = base ∨ front = (Client.at base).base) :
    linkToken? (front ++ deltaPath root (some token)) = some token.text ∧
    ∀ changes,
      (ChangeSet.ofFeed changes (some (front ++ deltaPath root (some token)))).token =
        some token := by
  have hroot : Plain (deltaPath root none).toList := by
    intro c hc
    have hown : '?' ∉ "/me/drives/root:/delta".toList ∧
        '#' ∉ "/me/drives/root:/delta".toList := by decide
    rcases mem_deltaPath hc with hc | ⟨drive, hd, hc⟩ | ⟨folder, hf, hc⟩
    · exact ⟨ne_of_mem_of_not_mem hc hown.1, ne_of_mem_of_not_mem hc hown.2⟩
    · exact ⟨ne_of_mem_of_not_mem hc (hdrive drive hd).1,
        ne_of_mem_of_not_mem hc (hdrive drive hd).2⟩
    · exact ⟨ne_of_mem_of_not_mem hc (hfolder folder hf).1,
        ne_of_mem_of_not_mem hc (hfolder folder hf).2⟩
  have hslashes : ∃ k, base.toList = front.toList ++ List.replicate k '/' := by
    rcases hfront with rfl | rfl
    · exact ⟨0, (List.append_nil _).symm⟩
    · exact toList_trimSlashes base
  obtain ⟨k, hk⟩ := hslashes
  obtain ⟨site, path, hfronts⟩ := hbase.fronts hk
  have hlink := linkToken?_deltaPath hfronts hroot token
  exact ⟨hlink, fun changes => token_of_link _ changes hlink htoken⟩

/-- A base with a slash at its end, a folder with an escape in its name, and a token of marks. -/
theorem token_survives_marks :
    let base := "https://graph.test/v1.0/"
    let site : Url :=
      ⟨"https".toList, [], some "graph.test".toList, none, "/v1.0/".toList, none, none⟩
    let root : SourceRoot := ⟨⟨"main"⟩, none, some "Docs/é %41"⟩
    let token : DeltaToken := ⟨"a+b=c&d#é %2B\n"⟩
    let link := "https://graph.test/v1.0/me/drive/root:/Docs/é %41:/delta" ++
      "?token=a%2Bb%3Dc%26d%23%C3%A9+%252B%0A"
    (IsBase base site ∧ token.text ≠ "" ∧ (Client.at base).base ++
      deltaPath root (some token) = link) ∧
    linkToken? link = some token.text ∧
    ∀ changes, (ChangeSet.ofFeed changes (some link)).token = some token := by
  intro base site root token link
  have hbase : IsBase base site :=
    { reads := by decide +kernel
      web := by decide
      query := rfl
      fragment := rfl
      closed := by
        have hlast : base.toList.getLast? = some '/' := by decide
        intro c hc
        rw [hlast] at hc
        cases hc
        rfl }
  have htoken : token.text ≠ "" := by decide
  have hlink : (Client.at base).base ++ deltaPath root (some token) = link := by decide +kernel
  refine ⟨⟨hbase, htoken, hlink⟩, ?_⟩
  rw [← hlink]
  exact token_survives hbase (by decide) (by decide) htoken (.inr rfl)

end CollectionSync.Drive
