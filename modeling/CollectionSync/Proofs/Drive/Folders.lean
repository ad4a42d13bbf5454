import CollectionSync.Proofs.Drive.Paths
import CollectionSync.Drive.Client

/-! # Folders in requests

The folder of a root is put into the path of a request as it is. The server reads that folder, and
no query, just if the text means nothing but itself to a reader of URLs. -/

namespace CollectionSync.Drive

open Text (utf8 utf8_injective)
open Url (IsBase Fronts Plain percentDecode pathText pathBytes segments resolveDots splitOn
  splitTail isKept
  isHex)

/-! ## Texts that stand for themselves -/

/-- The marks that end a path, are left out of it or are read as another one. -/
def pathMarks : List Char := ['?', '#', '\\', '\t', '\n', '\r']

/-- A text that is read from a path as it was put there: without such marks, without escapes, and
without parts that stand for a directory. -/
structure Literal (s : List Char) : Prop where
  marks : ∀ c ∈ s, c ∉ pathMarks
  escapes : ∀ h l rest, '%' :: h :: l :: rest <:+ s → ¬ (isHex h = true ∧ isHex l = true)
  dots : ∀ part ∈ splitOn '/' s, part ≠ ['.'] ∧ part ≠ ['.', '.']

section

variable {s : List Char} (done : List (List Char))

theorem Literal.plain (h : Literal s) : Plain s := by
  intro c hc
  have hmarks := h.marks c hc
  simp only [pathMarks, List.mem_cons, not_or] at hmarks
  exact ⟨hmarks.1, hmarks.2.1⟩

theorem Literal.kept (h : Literal s) : s.filter isKept = s := by
  refine List.filter_eq_self.mpr fun c hc => ?_
  have hmarks := h.marks c hc
  simp only [pathMarks, List.mem_cons, not_or] at hmarks
  obtain ⟨-, -, -, htab, hline, hreturn, -⟩ := hmarks
  rw [isKept, bne_iff_ne.mpr htab, bne_iff_ne.mpr hline, bne_iff_ne.mpr hreturn]
  rfl

theorem Literal.segments_eq (h : Literal s) : segments true s = splitOn '/' s := by
  have hslash : '\\' ∉ s := fun hmem => h.marks _ hmem (by decide)
  rw [Url.segments_eq, Url.map_slashed hslash]

theorem Literal.decode (h : Literal s) : percentDecode (utf8 s) = utf8 s :=
  Url.percentDecode_utf8_eq_self_iff.mpr h.escapes

/-- No part of it is resolved away: a dot that is written as an escape would be one of its
escapes. -/
theorem Literal.proper (h : Literal s) : ∀ part ∈ splitOn '/' s, Url.isProper part := by
  have hparts : ∀ part ∈ splitOn '/' s, percentDecode (utf8 part) = utf8 part := by
    refine Url.percentDecode_segment_eq_self _ (Nat.le_of_eq ?_)
    have hbytes : (splitOn '/' s).flatMap (fun part => 0x2F :: utf8 part) = utf8 ('/' :: s) := by
      rw [← Url.flatMap_splitOn, Url.utf8_flatMap_slash, List.flatMap_map]
    rw [hbytes, Url.pathBytes_splitOn, h.decode]
    rfl
  intro part hpart
  have hself := hparts part hpart
  constructor
  · refine Bool.eq_false_iff.mpr fun hdouble => (h.dots part hpart).2 ?_
    rw [Url.percentDecode_of_isDoubleDot hdouble] at hself
    exact (utf8_injective hself).symm
  · refine Bool.eq_false_iff.mpr fun hsingle => (h.dots part hpart).1 ?_
    rw [Url.percentDecode_of_isSingleDot hsingle] at hself
    exact (utf8_injective hself).symm

theorem literal_cons_slash : Literal ('/' :: s) ↔ Literal s := by
  have hparts : splitOn '/' ('/' :: s) = [] :: splitOn '/' s := if_pos rfl
  constructor
  · intro h
    exact
      { marks := fun c hc => h.marks c (List.mem_cons_of_mem '/' hc)
        escapes :=
          fun a b rest hsuffix => h.escapes a b rest (hsuffix.trans (List.suffix_cons '/' s))
        dots :=
          fun part hpart => h.dots part (by rw [hparts]; exact List.mem_cons_of_mem [] hpart) }
  · intro h
    exact
      { marks := by
          intro c hc
          rcases List.mem_cons.mp hc with rfl | hc
          · decide
          · exact h.marks c hc
        escapes := by
          intro a b rest hsuffix
          rcases List.suffix_cons_iff.mp hsuffix with heq | hsuffix
          · cases heq
          · exact h.escapes a b rest hsuffix
        dots := by
          intro part hpart
          rw [hparts] at hpart
          rcases List.mem_cons.mp hpart with rfl | hpart
          · decide
          · exact h.dots part hpart }

/-- Behind any path, a text that stands for itself is read as it is. -/
theorem Literal.pathBytes (h : Literal s) :
    Url.pathBytes (resolveDots done (segments true s)) =
      Url.pathBytes done.reverse ++ utf8 ('/' :: s) := by
  rw [h.segments_eq, Url.resolveDots_of_proper done h.proper, Url.pathBytes_append,
    Url.pathBytes_splitOn, h.decode]
  rfl

/-- A text of which the path keeps every byte, in its place, stands for itself: whatever else a
reader makes of it takes a byte away or changes one. -/
theorem literal_of_pathBytes {t : List Char} (ht : t <+: s.filter isKept) (hplain : Plain t)
    (h : Url.pathBytes (resolveDots done (segments true t)) =
      Url.pathBytes done.reverse ++ utf8 ('/' :: s)) :
    Literal s := by
  have hslash : utf8 ('/' :: s) = 0x2F :: utf8 s := rfl
  have hsegs : Url.pathBytes (segments true t) =
      0x2F :: percentDecode (utf8 (t.map Url.slashed)) := by
    rw [Url.segments_eq, Url.pathBytes_splitOn]
  have hdecode := Url.length_percentDecode_le (utf8 (t.map Url.slashed))
  have hslashed := Url.length_utf8_map_slashed t
  obtain ⟨hresolve, hproper⟩ := Url.length_pathBytes_resolveDots done (segments true t)
  obtain ⟨hsub, hsame⟩ := Text.eq_of_sublist_of_length_utf8 (ht.sublist.trans List.filter_sublist)
  have hlen := congrArg List.length h
  rw [hslash, List.length_append, Url.length_pathBytes_reverse, List.length_cons] at hlen
  rw [hsegs, List.length_cons] at hresolve hproper
  -- The text is all of the path, and nothing is lost on the way.
  have hts : t = s := hsame (by omega)
  subst hts
  have hdecoded : percentDecode (utf8 (t.map Url.slashed)) = utf8 (t.map Url.slashed) :=
    Url.percentDecode_eq_self (by omega)
  have hproper := hproper (by omega)
  rw [Url.resolveDots_of_proper done hproper, Url.pathBytes_append, List.append_cancel_left_eq,
    hsegs, hslash, hdecoded, List.cons_inj_right] at h
  have hself : t.map Url.slashed = t := utf8_injective h
  rw [hself] at hdecoded
  have hkept : ∀ c ∈ t, isKept c = true :=
    List.filter_eq_self.mp (ht.eq_of_length_le (List.length_filter_le _ _)).symm
  have hturned : ∀ c ∈ t, c ≠ '\\' := by
    intro c hc
    rw [← hself] at hc
    obtain ⟨d, -, rfl⟩ := List.mem_map.mp hc
    exact Url.slashed_ne d
  exact
    { marks := by
        rintro c hc hmark
        have hkeeps := hkept c hc
        simp only [pathMarks, List.mem_cons, List.not_mem_nil, or_false] at hmark
        rcases hmark with rfl | rfl | rfl | rfl | rfl | rfl
        · exact (hplain _ hc).1 rfl
        · exact (hplain _ hc).2 rfl
        · exact hturned _ hc rfl
        · cases hkeeps
        · cases hkeeps
        · cases hkeeps
      escapes := Url.percentDecode_utf8_eq_self_iff.mp hdecoded
      dots := by
        intro part hpart
        rw [Url.segments_eq, hself] at hproper
        obtain ⟨hdouble, hsingle⟩ := hproper part hpart
        refine ⟨?_, ?_⟩
        · rintro rfl
          exact absurd hsingle (by decide)
        · rintro rfl
          exact absurd hdouble (by decide) }

end

/-- What is put behind a base is read as it is just if it stands for itself. -/
theorem reads_iff_literal {text path : List Char} {site : Url} (h : Fronts text site path)
    (s : List Char) :
    let url := site.withTail (path ++ '/' :: s.filter isKept)
    (url.query = none ∧
      percentDecode (utf8 url.path) = pathBytes (Url.entered path).reverse ++ utf8 ('/' :: s)) ↔
        Literal s := by
  intro url
  have hpath : percentDecode (utf8 url.path) =
      pathBytes (resolveDots (Url.entered path)
        (segments true (splitTail (s.filter isKept)).1)) := by
    rw [Url.withTail_path h.rooted h.plain, Url.percentDecode_pathText]
  constructor
  · rintro ⟨-, hdecode⟩
    rw [hpath] at hdecode
    exact literal_of_pathBytes _ (Url.splitTail_front _) Url.plain_of_splitTail hdecode
  · intro hs
    rw [hs.kept, Url.splitTail_of_plain hs.plain, hs.pathBytes] at hpath
    refine ⟨?_, hpath⟩
    show (site.withTail (path ++ '/' :: s.filter isKept)).query = none
    rw [hs.kept]
    exact Url.withTail_query_of_plain (h.plain.append_slash hs.plain)

/-! ## Requests -/

variable {base folder credentials : String} {u : Url} {root : SourceRoot}

theorem request_of_read? {text : String} (h : Url.read? text.toList = some u)
    (hhost : u.hasHost = true) (hweb : u.scheme = "http".toList ∨ u.scheme = "https".toList)
    (hcredentials : isHeaderText credentials = true) :
    request text credentials = .ok ⟨u.withoutUserinfo, some ("Bearer " ++ credentials)⟩ := by
  have hscheme : (u.scheme != "http".toList && u.scheme != "https".toList) = false := by
    rcases hweb with hweb | hweb <;> rw [hweb] <;> decide
  unfold request
  rw [h]
  simp only [hhost, hcredentials, hscheme, Bool.not_true, Bool.false_eq_true, if_false]

theorem deliver_asks (left : Nat) (asked : HttpRequest) :
    ∃ next, deliver left asked = .ask (.exchange asked) next := by
  unfold deliver
  exact ⟨_, rfl⟩

/-- The first thing that a client asks for is the request for its first URL. -/
theorem listChanges_asks {client : Client} {token : Option DeltaToken} {asked : HttpRequest}
    (h : request (client.base ++ deltaPath root token) credentials = .ok asked) :
    ∃ next, client.listChanges root token credentials = .ask (.exchange asked) next := by
  obtain ⟨next, hnext⟩ := deliver_asks redirectLimit asked
  unfold Client.listChanges Client.fetchPage send
  rw [h]
  simp only [hnext]
  exact ⟨_, rfl⟩

/-- With a folder that has a name, a request for the changes goes out at once. `path` is the path of
the base: a base is kept without slashes at its end, and with one it is read as `path ++ ['/']`. The
request has no query, and behind `path` it says the drive, the folder with one slash in front and
none at its end, and the end of the path, just if that text stands for itself. -/
theorem folder_reaches_server_iff (hbase : IsBase base u) (hfolder : root.folder = some folder)
    (hname : ∃ c ∈ folder.toList, c ≠ '/') (hcredentials : isHeaderText credentials = true) :
    let client := Client.at base
    let scope := (drivePath root ++ "/root:" ++ rooted (trimSlashes folder) ++ ":/delta").toList
    ∃ home path url next,
      Url.read? (client.base ++ "/").toList = some home ∧ home.path = path ++ ['/'] ∧
      client.listChanges root none credentials =
        .ask (.exchange ⟨url, some ("Bearer " ++ credentials)⟩) next ∧
      (url.query = none ∧ percentDecode (utf8 url.path) = percentDecode (utf8 path) ++ utf8 scope ↔
        Literal scope) := by
  intro client scope
  have hscope : (deltaPath root none).toList = scope :=
    congrArg String.toList (deltaPath_folder hfolder hname)
  obtain ⟨k, hk⟩ := toList_trimSlashes base
  obtain ⟨site, path, hfronts⟩ := hbase.fronts hk
  obtain ⟨rest, hrest, hlast⟩ := deltaPath_rooted root
  have hclosed : ∀ c ∈ rest.getLast?, Url.isOuter c = false := by
    intro c hc
    rw [hlast] at hc
    cases hc
    decide
  have htext : (client.base ++ deltaPath root none).toList =
      (trimSlashes base).toList ++ '/' :: rest := by
    rw [String.toList_append, hrest]
    rfl
  have hread := hfronts.reads rest hclosed
  rw [← htext] at hread
  obtain ⟨next, hnext⟩ :=
    listChanges_asks (request_of_read? hread hfronts.host hfronts.web hcredentials)
  have hhome := hfronts.reads [] nofun
  refine ⟨site.withTail (path ++ ['/']), pathText (Url.entered path).reverse, _, next, ?_, ?_,
    hnext, ?_⟩
  · rw [String.toList_append]
    exact hhome
  · have hempty : ∀ seg ∈ segments true [], Url.isProper seg := by decide
    rw [Url.withTail_path hfronts.rooted hfronts.plain]
    exact (congrArg pathText (Url.resolveDots_of_proper _ hempty)).trans (Url.pathText_append _ _)
  · rw [← hscope, hrest, Url.percentDecode_pathText, literal_cons_slash]
    exact reads_iff_literal hfronts rest

namespace WebBase

/-- A base with a path and a slash at its end, and what it names. -/
def text : String := "http://graph.test/v1.0/"

def site : Url := ⟨"http".toList, [], some "graph.test".toList, none, "/v1.0/".toList, none, none⟩

theorem isBase : IsBase text site :=
  { reads := by decide +kernel
    web := by decide
    query := rfl
    fragment := rfl
    closed := by
      have hlast : text.toList.getLast? = some '/' := by decide
      intro c hc
      rw [hlast] at hc
      cases hc
      rfl }

end WebBase

open WebBase in
/-- A folder with spaces, marks and letters that no URL carries as themselves. -/
theorem folder_reaches_server_marks :
    let root : SourceRoot := ⟨⟨"main"⟩, some "b!42", some "Maße & 100%/a+b=c;d/"⟩
    let scope := "/drives/b!42/root:/Maße & 100%/a+b=c;d:/delta".toList
    (IsBase text site ∧ Literal scope ∧ isHeaderText "tok" = true) ∧
    ∃ home path url next,
      Url.read? ((Client.at text).base ++ "/").toList = some home ∧ home.path = path ++ ['/'] ∧
      (Client.at text).listChanges root none "tok" =
        .ask (.exchange ⟨url, some "Bearer tok"⟩) next ∧
      url.query = none ∧ percentDecode (utf8 url.path) =
        percentDecode (utf8 path) ++ utf8 scope := by
  intro root scope
  have hliteral : Literal scope :=
    { marks := by
        have hmarks : scope.all (fun c => !pathMarks.contains c) = true := by decide +kernel
        intro c hc
        simpa using List.all_eq_true.mp hmarks c hc
      escapes := Url.percentDecode_utf8_eq_self_iff.mp (by decide +kernel)
      dots := by decide +kernel }
  have hfolder : root.folder = some "Maße & 100%/a+b=c;d/" := rfl
  have hcredentials : isHeaderText "tok" = true := by decide +kernel
  refine ⟨⟨isBase, hliteral, hcredentials⟩, ?_⟩
  obtain ⟨home, path, url, next, hhome, hpath, hnext, hiff⟩ :=
    folder_reaches_server_iff isBase hfolder ⟨'M', by decide, by decide⟩ hcredentials
  exact ⟨home, path, url, next, hhome, hpath, hnext, hiff.mpr hliteral⟩

open WebBase in
/-- A folder whose name holds an escape is asked for by another name. -/
theorem folder_with_escape_misread :
    let root : SourceRoot := ⟨⟨"main"⟩, none, some "Tax%20Return"⟩
    (IsBase text site ∧ isHeaderText "tok" = true) ∧
    ∃ url next,
      (Client.at text).listChanges root none "tok" =
        .ask (.exchange ⟨url, some "Bearer tok"⟩) next ∧
      percentDecode (utf8 url.path) = utf8 "/v1.0/me/drive/root:/Tax Return:/delta".toList ∧
      percentDecode (utf8 url.path) ≠
        percentDecode (utf8 "/v1.0".toList) ++
          utf8 "/me/drive/root:/Tax%20Return:/delta".toList := by
  intro root
  have hread : Url.read? ((Client.at text).base ++ deltaPath root none).toList =
      some { site with path := "/v1.0/me/drive/root:/Tax%20Return:/delta".toList } := by
    decide +kernel
  have hcredentials : isHeaderText "tok" = true := by decide +kernel
  obtain ⟨next, hnext⟩ := listChanges_asks (request_of_read? hread rfl isBase.web hcredentials)
  exact ⟨⟨isBase, hcredentials⟩, _, next, hnext, by decide +kernel, by decide +kernel⟩

end CollectionSync.Drive
