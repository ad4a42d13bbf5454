import CollectionSync.Proofs.Url.Segments

/-! # Paths behind a web address

A path put behind the text of a web address is read as a path of the same host: the address is read
as far as its own path, whatever follows, and what follows is split into path, query and
fragment. -/

namespace CollectionSync.Url

/-! ## Path, query and fragment -/

/-- A text in which neither a query nor a fragment starts. -/
def Plain (s : List Char) : Prop := ∀ c ∈ s, c ≠ '?' ∧ c ≠ '#'

theorem Plain.append_slash {s t : List Char} (hs : Plain s)
    (ht : Plain t) : Plain (s ++ '/' :: t) := by
  intro c hc
  rw [List.mem_append, List.mem_cons] at hc
  rcases hc with hc | rfl | hc
  · exact hs c hc
  · decide
  · exact ht c hc

theorem splitTail_append {s : List Char} (hs : Plain s) (t : List Char) :
    splitTail (s ++ t) = (s ++ (splitTail t).1, (splitTail t).2) := by
  have hhash : ∀ c ∈ s, (c != '#') = true := fun c hc => bne_iff_ne.mpr (hs c hc).2
  have hmark : ∀ c ∈ s, (c != '?') = true := fun c hc => bne_iff_ne.mpr (hs c hc).1
  unfold splitTail
  simp only [List.takeWhile_append_of_pos hhash, List.takeWhile_append_of_pos hmark,
    List.length_append, Nat.add_left_cancel_iff, Nat.add_assoc, List.drop_length_add_append]

theorem splitTail_of_plain {s : List Char} (hs : Plain s) : splitTail s = (s, none, none) := by
  have happend := splitTail_append hs []
  rw [List.append_nil] at happend
  rw [happend]
  exact congrArg (·, none, none) (List.append_nil s)

theorem splitTail_query {s q : List Char} (hs : Plain s) (hq : '#' ∉ q) :
    splitTail (s ++ '?' :: q) = (s, some q, none) := by
  have hhash : ∀ c ∈ '?' :: q, (c != '#') = true := by
    intro c hc
    rcases List.mem_cons.mp hc with rfl | hc
    · decide
    · exact bne_iff_ne.mpr (ne_of_mem_of_not_mem hc hq)
  have htail : splitTail ('?' :: q) = ([], some q, none) := by
    have hfront : ('?' :: q).takeWhile (· != '#') = '?' :: q := by
      rw [← List.append_nil ('?' :: q), List.takeWhile_append_of_pos hhash, List.takeWhile_nil]
    unfold splitTail
    simp only [hfront]
    rw [List.takeWhile_cons_of_neg (by decide), if_neg (by simp), if_pos trivial]
    rfl
  rw [splitTail_append hs, htail, List.append_nil]

/-- The path is what the text starts with. -/
theorem splitTail_front (s : List Char) : (splitTail s).1 <+: s :=
  (List.takeWhile_prefix _).trans (List.takeWhile_prefix _)

theorem plain_of_splitTail {s : List Char} : Plain (splitTail s).1 := by
  intro c hc
  have hfront : c ∈ s.takeWhile (· != '#') := (List.takeWhile_prefix _).subset hc
  have hmark : (c != '?') = true := List.all_eq_true.mp List.all_takeWhile c hc
  have hhash : (c != '#') = true := List.all_eq_true.mp List.all_takeWhile c hfront
  exact ⟨bne_iff_ne.mp hmark, bne_iff_ne.mp hhash⟩

theorem head_of_splitTail {s : List Char} {P : Char → Prop} (h : ∀ c ∈ s.head?, P c) :
    ∀ c ∈ (splitTail s).1.head?, P c := by
  intro c hc
  obtain ⟨rest, hrest⟩ := splitTail_front s
  obtain ⟨front, hfront⟩ := List.head?_eq_some_iff.mp hc
  exact h c (by rw [← hrest, hfront]; rfl)

/-- A text with neither query nor fragment is all path. -/
theorem splitTail_eq_self {s : List Char} (hquery : (splitTail s).2.1 = none)
    (hfragment : (splitTail s).2.2 = none) : (splitTail s).1 = s := by
  have hwhole : ∀ {t s : List Char}, t <+: s →
      (if t.length = s.length then none else some (s.drop (t.length + 1))) = none → t = s := by
    intro t s hprefix h
    split at h
    · next hlen => exact hprefix.eq_of_length hlen
    · cases h
  have hfront := hwhole (List.takeWhile_prefix _) hfragment
  have hpath := hwhole (List.takeWhile_prefix _) hquery
  exact hpath.trans hfront

/-! ## Blanks -/

/-- Controls and spaces, which do not count around a URL. -/
def isOuter (c : Char) : Bool := c.toNat ≤ 0x20

/-- Line breaks and tabs do not count inside a URL either. -/
def isKept (c : Char) : Bool := c != '\t' && c != '\n' && c != '\r'

/-- What is read of a text that goes on. -/
def opening (s : List Char) : List Char := (s.dropWhile isOuter).filter isKept

theorem cleaned_of_closed {s : List Char} (h : ∀ c ∈ s.getLast?, isOuter c = false) :
    cleaned s = opening s := by
  have hself : ((s.dropWhile isOuter).reverse.dropWhile isOuter).reverse = s.dropWhile isOuter := by
    cases hlast : (s.dropWhile isOuter).reverse with
    | nil => rw [List.dropWhile_nil, List.reverse_nil, List.reverse_eq_nil_iff.mp hlast]
    | cons c rest =>
      have hc : c ∈ s.getLast? := by
        have hsuffix : s.dropWhile isOuter = rest.reverse ++ [c] := by
          rw [← List.reverse_cons, ← hlast, List.reverse_reverse]
        obtain ⟨front, hs⟩ := List.dropWhile_suffix (l := s) isOuter
        rw [← hs, hsuffix, ← List.append_assoc, List.getLast?_concat]
        rfl
      rw [List.dropWhile_cons_of_neg (by rw [h c hc]; nofun), ← hlast, List.reverse_reverse]
  exact congrArg (List.filter isKept) hself

theorem opening_append_slash (s t : List Char) :
    opening (s ++ '/' :: t) = opening s ++ '/' :: t.filter isKept := by
  have hdrop : (s ++ '/' :: t).dropWhile isOuter = s.dropWhile isOuter ++ '/' :: t := by
    rw [List.dropWhile_append]
    split
    · next h => rw [List.isEmpty_iff.mp h]; rfl
    · rfl
  rw [opening, hdrop, List.filter_append]
  rfl

theorem cleaned_append_slash (s : List Char) {t : List Char}
    (h : ∀ c ∈ t.getLast?, isOuter c = false) :
    cleaned (s ++ '/' :: t) = opening s ++ '/' :: t.filter isKept := by
  rw [cleaned_of_closed, opening_append_slash]
  intro c hc
  rw [List.getLast?_append, List.getLast?_cons] at hc
  cases ht : t.getLast? with
  | none =>
    rw [ht] at hc
    cases hc
    rfl
  | some d =>
    rw [ht] at hc
    cases hc
    exact h d ht

/-! ## Hosts -/

theorem intercalate_ne_nil {sep x : List Char} (hx : x ≠ []) (xs : List (List Char)) :
    sep.intercalate (x :: xs) ≠ [] := by
  cases xs with
  | nil => simpa [List.intercalate] using hx
  | cons y ys => simp [List.intercalate, hx]

theorem fourByteAddress_ne_nil {s host : List Char} (h : fourByteAddress s = some host) :
    host ≠ [] := by
  unfold fourByteAddress at h
  obtain ⟨parts, -, h⟩ := Option.bind_eq_some_iff.mp h
  obtain ⟨last, -, h⟩ := Option.bind_eq_some_iff.mp h
  split at h
  · cases h
  · next hparts =>
    -- An address has at most four parts, so its last part makes at least one byte.
    have hlen : parts.length ≤ 4 := by
      simp only [Bool.or_eq_true, decide_eq_true_eq, not_or] at hparts
      omega
    have hbytes : ∀ front : List Nat, ∀ f : Nat → Nat,
        ∃ b bs, front ++ (List.range (5 - parts.length)).map f = b :: bs := by
      intro front f
      rw [← List.ne_nil_iff_exists_cons]
      refine List.append_ne_nil_of_right_ne_nil _ (mt List.map_eq_nil_iff.mp ?_)
      rw [List.range_eq_nil]
      omega
    obtain ⟨b, bs, hb⟩ := hbytes parts.dropLast fun i =>
      last / Nat.pow 256 (4 - parts.length - i) % 256
    rw [← Option.some.inj h, hb, List.map_cons]
    exact intercalate_ne_nil Nat.toDigits_ne_nil _

/-- A host that can be read is not empty. -/
theorem host?_ne_nil {s host : List Char} (h : host? true s = some host) : host ≠ [] := by
  unfold host? at h
  split at h
  · split at h
    · obtain ⟨ps, -, rfl⟩ := Option.map_eq_some_iff.mp h
      exact List.cons_ne_nil _ _
    · cases h
  · rw [if_pos rfl] at h
    simp only at h
    split at h
    · cases h
    · next hname =>
      split at h
      · exact fourByteAddress_ne_nil h
      · simp only [Bool.or_eq_true, not_or] at hname
        rw [← Option.some.inj h]
        exact fun hnil => hname.1 (List.isEmpty_iff.mpr hnil)

/-! ## Authorities -/

/-- The same site with another path, query and fragment. -/
def withTail (u : Url) (s : List Char) : Url :=
  let (front, query, fragment) := splitTail s
  { u with
    path := normalPath true front
    query := query.map (percentEncode (escapedInQuery true))
    fragment := fragment.map (percentEncode escapedInFragment) }

section

variable {site : Url} {path : List Char}

/-- A path goes on with what stands before the query and the fragment of the text put behind it. -/
theorem withTail_path (hrooted : ∀ c ∈ path.head?, isSlash true c = true) (hplain : Plain path)
    (s : List Char) : (site.withTail (path ++ '/' :: s)).path =
      pathText (resolveDots (entered path) (segments true (splitTail s).1)) := by
  have hslash : Plain (path ++ ['/']) := hplain.append_slash nofun
  have hsplit := splitTail_append hslash s
  rw [List.append_assoc, List.singleton_append, List.append_assoc, List.singleton_append] at hsplit
  rw [withTail, hsplit]
  exact normalPath_append_slash hrooted _

theorem withTail_query {q : List Char} (hplain : Plain path) (hq : '#' ∉ q) :
    (site.withTail (path ++ '?' :: q)).query = some (percentEncode (escapedInQuery true) q) := by
  rw [withTail, splitTail_query hplain hq]
  rfl

theorem withTail_query_of_plain (hplain : Plain path) : (site.withTail path).query = none := by
  rw [withTail, splitTail_of_plain hplain]
  rfl

end

/-- The characters of an authority. -/
def isAuthorityChar (c : Char) : Prop := isSlash true c = false ∧ c ≠ '?' ∧ c ≠ '#'

/-- The site that the authority of a web address names. -/
def site? (scheme authority : List Char) : Option Url :=
  let (userinfo, address) := atLast '@' authority
  let (name, digits) := hostAndDigits address
  if name.isEmpty then none
  else
    (host? true name).bind fun host => (hostNumber? scheme (digits.getD [])).map fun number =>
      { scheme, userinfo := userinfoText (userinfo.getD []), host := some host, number, path := []
        query := none, fragment := none }

section

variable {scheme authority s : List Char} {u : Url}

theorem site?_scheme (h : site? scheme authority = some u) : u.scheme = scheme := by
  unfold site? at h
  simp only at h
  split at h
  · cases h
  · obtain ⟨host, -, h⟩ := Option.bind_eq_some_iff.mp h
    obtain ⟨number, -, rfl⟩ := Option.map_eq_some_iff.mp h
    rfl

theorem site?_hasHost (h : site? scheme authority = some u) : u.hasHost = true := by
  unfold site? at h
  simp only at h
  split at h
  · cases h
  · obtain ⟨host, hhost, h⟩ := Option.bind_eq_some_iff.mp h
    obtain ⟨number, -, rfl⟩ := Option.map_eq_some_iff.mp h
    exact bne_iff_ne.mpr fun heq => host?_ne_nil hhost (Option.some.inj heq)

theorem site?_ne_nil (h : site? scheme authority = some u) : authority ≠ [] := by
  rintro rfl
  cases h

/-- An authority is read the same whatever path follows. -/
theorem ofAuthority?_append (hscheme : isSpecial scheme = true)
    (ha : ∀ c ∈ authority, isAuthorityChar c)
    (hs : ∀ c ∈ (splitTail s).1.head?, isSlash true c = true) :
    ofAuthority? scheme (authority ++ s) = (site? scheme authority).map (withTail · s) := by
  have hnames : ∀ c ∈ authority, (!isSlash true c) = true := fun c hc => by rw [(ha c hc).1]; rfl
  have htake : (authority ++ (splitTail s).1).takeWhile (fun c => !isSlash true c) = authority := by
    rw [List.takeWhile_append_of_pos hnames]
    cases hcases : (splitTail s).1 with
    | nil => exact List.append_nil authority
    | cons c t =>
      have hc : isSlash true c = true := hs c (by rw [hcases]; rfl)
      rw [List.takeWhile_cons_of_neg (by rw [hc]; nofun), List.append_nil]
  unfold ofAuthority? site?
  simp only [hscheme, splitTail_append fun c hc => (ha c hc).2, htake, List.drop_left,
    Bool.true_and]
  split
  · rfl
  · cases host? true (hostAndDigits (atLast '@' authority).2).1 with
    | none => rfl
    | some host =>
      cases hostNumber? scheme ((hostAndDigits (atLast '@' authority).2).2.getD []) with
      | none => rfl
      | some number =>
        simp only [Option.bind_some, Option.map_some, Bool.not_true, Bool.and_false, assemble,
          withTail, hscheme]
        rfl

end

/-! ## Schemes -/

theorem ofAuthority?_scheme {scheme s : List Char} {u : Url} (h : ofAuthority? scheme s = some u) :
    u.scheme = scheme := by
  unfold ofAuthority? at h
  simp only at h
  split at h
  · cases h
  · split at h <;>
    · obtain ⟨host, -, h⟩ := Option.bind_eq_some_iff.mp h
      obtain ⟨number, -, h⟩ := Option.bind_eq_some_iff.mp h
      rw [← Option.some.inj h, assemble]

theorem ofFile?_scheme {scheme s : List Char} {u : Url} (h : ofFile? scheme s = some u) :
    u.scheme = scheme := by
  unfold ofFile? at h
  simp only at h
  split at h
  · split at h
    · split at h <;>
      · obtain ⟨host, -, h⟩ := Option.bind_eq_some_iff.mp h
        rw [← Option.some.inj h, assemble]
    · rw [← Option.some.inj h, assemble]
  · rw [← Option.some.inj h, assemble]

/-! ## Web addresses -/

/-- A text that opens as a web address does: with its scheme, the mark and slashes behind it, its
authority, and a path that may go on. -/
structure Opens (text scheme authority path : List Char) : Prop where
  text_eq : ∃ first letters slashes, text = first :: letters ++ ':' ::
    (slashes ++ (authority ++ path)) ∧
    first.isAlpha = true ∧ (∀ c ∈ first :: letters, isSchemeChar c = true) ∧
    (first :: letters).map Char.toLower = scheme ∧ ∀ c ∈ slashes, isSlash true c = true
  web : scheme = "http".toList ∨ scheme = "https".toList
  authority_ne : authority ≠ []
  authority_chars : ∀ c ∈ authority, isAuthorityChar c
  path_plain : Plain path
  path_rooted : ∀ c ∈ path.head?, isSlash true c = true

theorem isSpecial_of_web {scheme : List Char}
    (h : scheme = "http".toList ∨ scheme = "https".toList) :
    isSpecial scheme = true ∧ isFile scheme = false := by
  rcases h with rfl | rfl <;> decide +kernel

section

variable {text scheme authority path s : List Char} {u : Url}

theorem read?_front {first : Char} {letters rest : List Char}
    (h : cleaned s = first :: letters ++ ':' :: rest) (hfirst : first.isAlpha = true)
    (hletters : ∀ c ∈ first :: letters, isSchemeChar c = true)
    (hweb : (first :: letters).map Char.toLower = "http".toList ∨
      (first :: letters).map Char.toLower = "https".toList) :
    read? s = ofAuthority? ((first :: letters).map Char.toLower)
      (rest.dropWhile (isSlash true)) := by
  have htake : (first :: letters ++ ':' :: rest).takeWhile isSchemeChar = first :: letters := by
    rw [List.takeWhile_append_of_pos hletters, List.takeWhile_cons_of_neg (by decide),
      List.append_nil]
  obtain ⟨hspecial, hfile⟩ := isSpecial_of_web hweb
  unfold read?
  simp only [h, htake, List.drop_left, hfirst, hfile, hspecial, if_true]
  rfl

/-- The text of a web address is its scheme, the mark, and what is read as authority and path. -/
theorem front_of_read? (h : read? s = some u)
    (hweb : u.scheme = "http".toList ∨ u.scheme = "https".toList) :
    ∃ first letters rest, cleaned s = first :: letters ++ ':' :: rest ∧ first.isAlpha = true ∧
      (∀ c ∈ first :: letters, isSchemeChar c = true) ∧
      (first :: letters).map Char.toLower = u.scheme ∧
      ofAuthority? u.scheme (rest.dropWhile (isSlash true)) = some u := by
  obtain ⟨hspecial, hfile⟩ := isSpecial_of_web hweb
  obtain ⟨tail, htail⟩ := List.takeWhile_prefix isSchemeChar (l := cleaned s)
  have hdrop : ((cleaned s).takeWhile isSchemeChar ++ tail).drop
      ((cleaned s).takeWhile isSchemeChar).length = tail := List.drop_left
  rw [htail] at hdrop
  unfold read? at h
  simp only [hdrop] at h
  split at h
  · next first letters rest hletters =>
    rw [hletters] at htail
    have hchars : ∀ c ∈ first :: letters, isSchemeChar c = true := by
      rw [← hletters]
      exact List.all_eq_true.mp List.all_takeWhile
    split at h
    · next hfirst =>
      split at h
      · next hisFile =>
        rw [← ofFile?_scheme h, hfile] at hisFile
        cases hisFile
      · split at h
        · have hscheme := ofAuthority?_scheme h
          rw [← hscheme] at h
          rw [hletters] at hscheme
          exact ⟨first, letters, rest, htail.symm, hfirst, hchars, hscheme.symm, h⟩
        · next hnot =>
          refine absurd hspecial ?_
          split at h
          · rwa [ofAuthority?_scheme h]
          · rwa [← Option.some.inj h]
    · cases h
  · cases h

/-- The text of a web address without query and fragment, taken apart. -/
theorem opens_of_read? (h : read? s = some u)
    (hweb : u.scheme = "http".toList ∨ u.scheme = "https".toList)
    (hquery : u.query = none) (hfragment : u.fragment = none) :
    ∃ authority path site, Opens (cleaned s) u.scheme authority path ∧
      site? u.scheme authority = some site := by
  obtain ⟨first, letters, rest, hclean, hfirst, hchars, hscheme, hauthority⟩ :=
    front_of_read? h hweb
  generalize hm : rest.dropWhile (isSlash true) = m at hauthority
  obtain ⟨path, hpath⟩ :=
    (List.takeWhile_prefix (fun c => !isSlash true c)).trans (splitTail_front m)
  generalize hcases : (splitTail m).1.takeWhile (fun c => !isSlash true c) = authority at hpath
  have hnames : ∀ c ∈ authority, isAuthorityChar c := by
    intro c hc
    rw [← hcases] at hc
    have hslash := List.all_eq_true.mp List.all_takeWhile c hc
    have hplain := plain_of_splitTail c ((List.takeWhile_prefix _).subset hc)
    exact ⟨by simpa using hslash, hplain⟩
  have hsplit := splitTail_append (fun c hc => (hnames c hc).2) path
  rw [hpath] at hsplit
  have hrooted : ∀ c ∈ (splitTail path).1.head?, isSlash true c = true := by
    intro c hc
    obtain ⟨front, hfront⟩ := List.head?_eq_some_iff.mp hc
    rw [hsplit, hfront, List.takeWhile_append_of_pos
      fun c hc => by rw [(hnames c hc).1]; rfl] at hcases
    by_cases hslash : isSlash true c = true
    · exact hslash
    · rw [List.takeWhile_cons_of_pos (by simpa using hslash)] at hcases
      exact absurd (List.append_right_eq_self.mp hcases) (List.cons_ne_nil _ _)
  rw [← hpath, ofAuthority?_append (isSpecial_of_web hweb).1 hnames hrooted] at hauthority
  obtain ⟨site, hsite, hu⟩ := Option.map_eq_some_iff.mp hauthority
  have hself : (splitTail path).1 = path := by
    apply splitTail_eq_self
    · rw [← hu] at hquery
      exact Option.map_eq_none_iff.mp hquery
    · rw [← hu] at hfragment
      exact Option.map_eq_none_iff.mp hfragment
  rw [hself] at hrooted
  have hrest : rest = rest.takeWhile (isSlash true) ++ (authority ++ path) := by
    rw [hpath, ← hm, List.takeWhile_append_dropWhile]
  refine ⟨authority, path, site, ?_, hsite⟩
  exact
    { text_eq :=
      ⟨first, letters, rest.takeWhile (isSlash true), by rw [← hrest, hclean], hfirst, hchars,
        hscheme, List.all_eq_true.mp List.all_takeWhile⟩
      web := hweb
      authority_ne := site?_ne_nil hsite
      authority_chars := hnames
      path_plain := by
        rw [← hself]
        exact plain_of_splitTail
      path_rooted := hrooted }

theorem Opens.read? {tail : List Char} (h : Opens text scheme authority path)
    (hs : cleaned s = text ++ tail) (htail : ∀ c ∈ (path ++ tail).head?, isSlash true c = true) :
    Url.read? s = (site? scheme authority).map (withTail · (path ++ tail)) := by
  obtain ⟨first, letters, slashes, htext, hfirst, hletters, hscheme, hslashes⟩ := h.text_eq
  have hclean : cleaned s = first :: letters ++ ':' ::
      (slashes ++ (authority ++ (path ++ tail))) := by
    rw [hs, htext]
    simp only [List.append_assoc, List.cons_append]
  have hweb := h.web
  rw [← hscheme] at hweb
  have hdrop : (slashes ++ (authority ++ (path ++ tail))).dropWhile (isSlash true) =
      authority ++ (path ++ tail) := by
    rw [List.dropWhile_append_of_pos hslashes]
    obtain ⟨a, as, ha⟩ := List.exists_cons_of_ne_nil h.authority_ne
    have hnot := (h.authority_chars a (by rw [ha]; exact List.mem_cons_self)).1
    rw [ha, List.cons_append, List.dropWhile_cons_of_neg (by rw [hnot]; nofun)]
  rw [read?_front hclean hfirst hletters hweb, hdrop, hscheme,
    ofAuthority?_append (isSpecial_of_web h.web).1 h.authority_chars (head_of_splitTail htail)]

/-- Slashes at the end belong to the path: an authority cannot end in one. -/
theorem Opens.cut {k : Nat} (h : Opens (text ++ List.replicate k '/') scheme authority path) :
    ∃ path', Opens text scheme authority path' := by
  obtain ⟨first, letters, slashes, htext, hfirst, hletters, hscheme, hslashes⟩ := h.text_eq
  have hcut : ∃ path', text = first :: letters ++ ':' :: (slashes ++ (authority ++ path')) ∧
      path' <+: path := by
    have hfront : first :: letters ++ ':' :: (slashes ++ (authority ++ path)) =
        (first :: letters ++ ':' :: slashes) ++ authority ++ path := by
      simp only [List.append_assoc, List.cons_append]
    rw [hfront] at htext
    rcases List.append_eq_append_iff.mp htext with ⟨more, hmore, hslash⟩ | ⟨path', htext', hpath⟩
    · have hnil : more = [] := by
        rcases List.eq_nil_or_concat more with hnil | ⟨init, last, rfl⟩
        · exact hnil
        · have hlast : last = '/' := by
            have hmem : last ∈ List.replicate k '/' := by rw [hslash]; simp
            exact List.eq_of_mem_replicate hmem
          have hauthority : last ∈ authority := by
            refine List.mem_of_getLast? ?_
            have hends := congrArg List.getLast? hmore
            rw [List.concat_eq_append, ← List.append_assoc, List.getLast?_concat,
              List.getLast?_append,
              List.getLast?_eq_some_getLast h.authority_ne, Option.some_or] at hends
            rw [List.getLast?_eq_some_getLast h.authority_ne, hends]
          have hchar := (h.authority_chars last hauthority).1
          rw [hlast] at hchar
          cases hchar
      rw [hnil, List.append_nil] at hmore
      refine ⟨[], ?_, List.nil_prefix⟩
      rw [← hmore]
      simp only [List.append_assoc, List.cons_append, List.append_nil]
    · exact ⟨path', by rw [htext']; simp only [List.append_assoc, List.cons_append], _, hpath.symm⟩
  obtain ⟨path', htext', tail, htail⟩ := hcut
  refine ⟨path', ?_⟩
  exact
    { h with
      text_eq := ⟨first, letters, slashes, htext', hfirst, hletters, hscheme, hslashes⟩
      path_plain := fun c hc => h.path_plain c (by rw [← htail]; exact List.mem_append_left tail hc)
      path_rooted := fun c hc => by
        obtain ⟨rest, hrest⟩ := List.head?_eq_some_iff.mp hc
        exact h.path_rooted c (by rw [← htail, hrest]; rfl) }

end

/-! ## Bases -/

/-- A text that is a web address of its own, with neither query nor fragment. A reader forgives
blanks and controls behind an address; no address ends in one. -/
structure IsBase (base : String) (u : Url) : Prop where
  reads : read? base.toList = some u
  web : u.scheme = "http".toList ∨ u.scheme = "https".toList
  query : u.query = none
  fragment : u.fragment = none
  closed : ∀ c ∈ base.toList.getLast?, isOuter c = false

/-- A text that paths can be put behind: they are read as paths of one site, behind the path that
the text has. -/
structure Fronts (text : List Char) (site : Url) (path : List Char) : Prop where
  reads : ∀ s, (∀ c ∈ s.getLast?, isOuter c = false) →
    read? (text ++ '/' :: s) = some (site.withTail (path ++ '/' :: s.filter isKept))
  web : site.scheme = "http".toList ∨ site.scheme = "https".toList
  host : site.hasHost = true
  plain : Plain path
  rooted : ∀ c ∈ path.head?, isSlash true c = true

/-- Paths can be put behind a base, and behind a base without the slashes at its end. -/
theorem IsBase.fronts {base : String} {u : Url} (h : IsBase base u) {text : List Char} {k : Nat}
    (htext : base.toList = text ++ List.replicate k '/') : ∃ site path, Fronts text site path := by
  have hopening : cleaned base.toList = opening text ++ List.replicate k '/' := by
    rw [cleaned_of_closed h.closed, htext]
    cases k with
    | zero => simp only [List.replicate_zero, List.append_nil]
    | succ k =>
      rw [List.replicate_succ, opening_append_slash, List.filter_replicate_of_pos (by decide)]
  obtain ⟨authority, whole, site, hopens, hsite⟩ := opens_of_read? h.reads h.web h.query h.fragment
  rw [hopening] at hopens
  obtain ⟨path, hpath⟩ := hopens.cut
  refine ⟨site, path, ?_, ?_, site?_hasHost hsite, hpath.path_plain, hpath.path_rooted⟩
  · intro s hs
    have hrooted : ∀ c ∈ (path ++ '/' :: s.filter isKept).head?, isSlash true c = true := by
      intro c hc
      cases path with
      | nil => cases hc; rfl
      | cons d path => exact hpath.path_rooted c hc
    rw [hpath.read? (cleaned_append_slash text hs) hrooted, hsite]
    rfl
  · rw [site?_scheme hsite]
    exact h.web

end CollectionSync.Url
