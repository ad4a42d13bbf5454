import CollectionSync.Proofs.Url.Form
import CollectionSync.Url.Basic

/-! # Paths, segment by segment

What a server reads of a path is, segment by segment, what was put in: encoding leaves that as it
is, and so does the resolving of dot segments, as long as there are none. Where there is one,
something is lost. -/

namespace CollectionSync.Url

open Text (utf8 utf8_append utf8_injective)

/-! ## What a path says -/

/-- The text of a path: every segment, encoded, behind a slash. -/
def pathText (segs : List (List Char)) : List Char :=
  segs.flatMap fun seg => '/' :: percentEncode escapedInPath seg

/-- What a server reads of a path: every segment, decoded, behind a slash. -/
def pathBytes (segs : List (List Char)) : List UInt8 :=
  segs.flatMap fun seg => 0x2F :: percentDecode (utf8 seg)

section

variable (segs : List (List Char))

@[simp] theorem pathText_append (s t : List (List Char)) :
    pathText (s ++ t) = pathText s ++ pathText t :=
  List.flatMap_append

@[simp] theorem pathBytes_append (s t : List (List Char)) :
    pathBytes (s ++ t) = pathBytes s ++ pathBytes t :=
  List.flatMap_append

theorem pathBytes_cons (seg : List Char) :
    pathBytes (seg :: segs) = 0x2F :: percentDecode (utf8 seg) ++ pathBytes segs := rfl

theorem length_pathBytes_cons (seg : List Char) :
    (pathBytes (seg :: segs)).length =
      1 + (percentDecode (utf8 seg)).length + (pathBytes segs).length := by
  rw [pathBytes_cons, List.length_append, List.length_cons, Nat.add_comm 1]

/-- Parts behind slashes are decoded one by one. -/
theorem percentDecode_flatMap_slash (parts : List (List UInt8)) :
    percentDecode (parts.flatMap (0x2F :: ·)) = parts.flatMap fun part =>
      0x2F :: percentDecode part := by
  induction parts with
  | nil => exact percentDecode_nil
  | cons part parts ih =>
    rw [List.flatMap_cons, List.flatMap_cons, List.cons_append,
      percentDecode_of_ne (by decide), ← ih]
    cases parts with
    | nil => rw [List.flatMap_nil, List.append_nil, percentDecode_nil, List.append_nil]
    | cons next parts =>
      rw [List.flatMap_cons, List.cons_append, percentDecode_append_slash,
        percentDecode_of_ne (by decide)]
      rfl

theorem utf8_flatMap_slash (parts : List (List Char)) :
    utf8 (parts.flatMap ('/' :: ·)) = (parts.map utf8).flatMap (0x2F :: ·) := by
  induction parts with
  | nil => rfl
  | cons part parts ih =>
    rw [List.flatMap_cons, List.map_cons, List.flatMap_cons, utf8_append, ih]
    rfl

theorem percentDecode_utf8_flatMap_slash (parts : List (List Char)) :
    percentDecode (utf8 (parts.flatMap ('/' :: ·))) = pathBytes parts := by
  rw [utf8_flatMap_slash, percentDecode_flatMap_slash, List.flatMap_map, pathBytes]

theorem percentDecode_pathText : percentDecode (utf8 (pathText segs)) = pathBytes segs := by
  have htext : pathText segs = (segs.map (percentEncode escapedInPath)).flatMap ('/' :: ·) :=
    (List.flatMap_map ..).symm
  rw [htext, percentDecode_utf8_flatMap_slash, pathBytes, List.flatMap_map]
  simp only [percentDecode_percentEncode_path, pathBytes]

/-- Where nothing is lost from a path as a whole, nothing is lost from a segment. -/
theorem percentDecode_segment_eq_self
    (h : (segs.flatMap fun seg => 0x2F :: utf8 seg).length ≤ (pathBytes segs).length) :
    ∀ seg ∈ segs, percentDecode (utf8 seg) = utf8 seg := by
  have hle : ∀ segs : List (List Char),
      (pathBytes segs).length ≤ (segs.flatMap fun seg => 0x2F :: utf8 seg).length := by
    intro segs
    induction segs with
    | nil => exact Nat.le_refl 0
    | cons seg segs ih =>
      have hseg := length_percentDecode_le (utf8 seg)
      rw [length_pathBytes_cons, List.flatMap_cons, List.length_append, List.length_cons]
      omega
  induction segs with
  | nil => exact fun _ hseg => nomatch hseg
  | cons first segs ih =>
    have hfirst := length_percentDecode_le (utf8 first)
    have hsegs := hle segs
    rw [length_pathBytes_cons, List.flatMap_cons, List.length_append, List.length_cons] at h
    intro seg hseg
    rcases List.mem_cons.mp hseg with rfl | hseg
    · exact percentDecode_eq_self (by omega)
    · exact ih (by omega) seg hseg

end

/-! ## Splitting -/

theorem splitOn_ne_nil (c : Char) (s : List Char) : splitOn c s ≠ [] := by
  cases s with
  | nil => exact List.cons_ne_nil _ _
  | cons d s =>
    rw [splitOn]
    split
    · exact List.cons_ne_nil _ _
    · split <;> exact List.cons_ne_nil _ _

theorem splitOn_append (c : Char) (s t : List Char) :
    splitOn c (s ++ c :: t) = splitOn c s ++ splitOn c t := by
  induction s with
  | nil => exact if_pos rfl
  | cons d s ih =>
    rw [List.cons_append, splitOn, splitOn, ih]
    split
    · rfl
    · cases hs : splitOn c s with
      | nil => exact absurd hs (splitOn_ne_nil c s)
      | cons part parts => rfl

/-- The parts of a text give it back. -/
theorem flatMap_splitOn (s : List Char) : (splitOn '/' s).flatMap ('/' :: ·) = '/' :: s := by
  induction s with
  | nil => rfl
  | cons c s ih =>
    rw [splitOn]
    split
    · next hc => rw [List.flatMap_cons, ih, hc]; rfl
    · cases hs : splitOn '/' s with
      | nil => exact absurd hs (splitOn_ne_nil '/' s)
      | cons part parts =>
        rw [hs, List.flatMap_cons, List.cons_append] at ih
        rw [List.flatMap_cons, List.cons_append, List.cons_append, (List.cons.inj ih).2]

theorem pathBytes_splitOn (s : List Char) :
    pathBytes (splitOn '/' s) = 0x2F :: percentDecode (utf8 s) := by
  have hslash : utf8 ('/' :: s) = 0x2F :: utf8 s := rfl
  rw [← percentDecode_utf8_flatMap_slash, flatMap_splitOn, hslash, percentDecode_of_ne (by decide)]

/-- In the path of a web address either slash parts the segments. -/
def slashed (c : Char) : Char := if c = '\\' then '/' else c

theorem slashed_ne (c : Char) : slashed c ≠ '\\' := by
  unfold slashed
  split
  · decide
  · next h => exact h

theorem isSlash_eq (c : Char) : isSlash true c = (slashed c == '/') := by
  unfold isSlash slashed
  by_cases h : c = '\\'
  · rw [h]; rfl
  · rw [if_neg h, beq_eq_false_iff_ne.mpr h, Bool.and_false, Bool.or_false]

theorem segments_eq (s : List Char) : segments true s = splitOn '/' (s.map slashed) := by
  induction s with
  | nil => rfl
  | cons c s ih =>
    rw [segments, List.map_cons, splitOn, ih, isSlash_eq]
    by_cases h : slashed c = '/'
    · rw [if_pos h, if_pos (beq_iff_eq.mpr h)]
    · have hself : slashed c = c := if_neg fun hc => h (if_pos hc)
      cases hs : splitOn '/' (s.map slashed) with
      | nil => exact absurd hs (splitOn_ne_nil _ _)
      | cons part parts =>
        rw [if_neg h, if_neg (mt beq_iff_eq.mp h)]
        simp only [hself]

theorem segments_append_slash (s t : List Char) :
    segments true (s ++ '/' :: t) = segments true s ++ segments true t := by
  have hmap : (s ++ '/' :: t).map slashed = s.map slashed ++ '/' :: t.map slashed := List.map_append
  rw [segments_eq, segments_eq, segments_eq, hmap, splitOn_append]

theorem map_slashed {s : List Char} (h : '\\' ∉ s) : s.map slashed = s := by
  have hself : ∀ c ∈ s, slashed c = id c := fun c hc => if_neg (ne_of_mem_of_not_mem hc h)
  rw [List.map_congr_left hself, List.map_id]

theorem length_utf8_map_slashed (s : List Char) :
    (utf8 (s.map slashed)).length = (utf8 s).length := by
  induction s with
  | nil => rfl
  | cons c s ih =>
    rw [List.map_cons, Text.utf8_cons, Text.utf8_cons, List.length_append, List.length_append, ih]
    unfold slashed
    split
    · next hc => rw [hc]; rfl
    · rfl

/-! ## Dot segments -/

/-- The ways to write a dot. -/
def dots : List (List Char) := [['.'], ['%', '2', 'e'], ['%', '2', 'E']]

/-- A lower-case character comes of the characters below 128 that become it. -/
theorem mem_of_toLower_eq {c d : Char} {forms : List Char} (h : c.toLower = d) (hd : d.toNat < 0x80)
    (hforms : ∀ n < 0x80, (Char.ofNat n).toLower = d → Char.ofNat n ∈ forms) : c ∈ forms := by
  have hc : c.toNat < 0x80 := by
    unfold Char.toLower at h
    split at h
    · next hupper => exact Nat.lt_of_le_of_lt (UInt32.le_iff_toNat_le.mp hupper.2) (by decide)
    · rwa [h]
  have hform := hforms c.toNat hc
  rw [Char.ofNat_toNat] at hform
  exact hform h

theorem map_toLower_eq_cons {s t : List Char} {c : Char} (h : s.map Char.toLower = c :: t) :
    ∃ d s', s = d :: s' ∧ d.toLower = c ∧ s'.map Char.toLower = t := by
  cases s with
  | nil => cases h
  | cons d s =>
    obtain ⟨hd, hs⟩ := List.cons.inj h
    exact ⟨d, s, rfl, hd, hs⟩

theorem dot_of_map_toLower {s t : List Char} (h : s.map Char.toLower = '.' :: t) :
    ∃ dot ∈ dots, ∃ s', s = dot ++ s' ∧ s'.map Char.toLower = t := by
  obtain ⟨a, s', rfl, ha, ht⟩ := map_toLower_eq_cons h
  have ha : a ∈ ['.'] := mem_of_toLower_eq ha (by decide) (by decide)
  rw [List.mem_singleton.mp ha]
  exact ⟨['.'], by decide, s', rfl, ht⟩

theorem dot_of_map_toLower_escape {s t : List Char}
    (h : s.map Char.toLower = '%' :: '2' :: 'e' :: t) :
    ∃ dot ∈ dots, ∃ s', s = dot ++ s' ∧ s'.map Char.toLower = t := by
  obtain ⟨a, s, rfl, ha, h⟩ := map_toLower_eq_cons h
  obtain ⟨b, s, rfl, hb, h⟩ := map_toLower_eq_cons h
  obtain ⟨c, s, rfl, hc, h⟩ := map_toLower_eq_cons h
  have ha : a ∈ ['%'] := mem_of_toLower_eq ha (by decide) (by decide)
  have hb : b ∈ ['2'] := mem_of_toLower_eq hb (by decide) (by decide)
  have hc : c ∈ ['e', 'E'] := mem_of_toLower_eq hc (by decide) (by decide)
  have hdot : [a, b, c] ∈ dots := by
    rw [List.mem_singleton.mp ha, List.mem_singleton.mp hb]
    rcases List.mem_cons.mp hc with rfl | hc
    · decide
    · rw [List.mem_singleton.mp hc]
      decide
  exact ⟨[a, b, c], hdot, s, rfl, h⟩

theorem toList_eq_of_ofList_eq {s : List Char} {t : String} (h : String.ofList s = t) :
    s = t.toList := by
  rw [← h, String.toList_ofList]

theorem mem_dots_of_isSingleDot {s : List Char} (h : isSingleDot s = true) : s ∈ dots := by
  have hs : ∃ dot ∈ dots, ∃ s', s = dot ++ s' ∧ s'.map Char.toLower = [] := by
    unfold isSingleDot at h
    split at h
    · next heq => exact dot_of_map_toLower (toList_eq_of_ofList_eq heq)
    · next heq => exact dot_of_map_toLower_escape (toList_eq_of_ofList_eq heq)
    · cases h
  obtain ⟨dot, hdot, s', rfl, hs'⟩ := hs
  rwa [List.map_eq_nil_iff.mp hs', List.append_nil]

theorem append_of_isDoubleDot {s : List Char} (h : isDoubleDot s = true) :
    ∃ first ∈ dots, ∃ second ∈ dots, s = first ++ second := by
  have hs : ∃ first ∈ dots, ∃ s', s = first ++ s' ∧
      ∃ second ∈ dots, ∃ s'', s' = second ++ s'' ∧ s''.map Char.toLower = [] := by
    unfold isDoubleDot at h
    split at h
    · next heq =>
      obtain ⟨first, hfirst, s', hs, hs'⟩ := dot_of_map_toLower (toList_eq_of_ofList_eq heq)
      exact ⟨first, hfirst, s', hs, dot_of_map_toLower hs'⟩
    · next heq =>
      obtain ⟨first, hfirst, s', hs, hs'⟩ := dot_of_map_toLower (toList_eq_of_ofList_eq heq)
      exact ⟨first, hfirst, s', hs, dot_of_map_toLower_escape hs'⟩
    · next heq =>
      obtain ⟨first, hfirst, s', hs, hs'⟩ := dot_of_map_toLower_escape (toList_eq_of_ofList_eq heq)
      exact ⟨first, hfirst, s', hs, dot_of_map_toLower hs'⟩
    · next heq =>
      obtain ⟨first, hfirst, s', hs, hs'⟩ := dot_of_map_toLower_escape (toList_eq_of_ofList_eq heq)
      exact ⟨first, hfirst, s', hs, dot_of_map_toLower_escape hs'⟩
    · cases h
  obtain ⟨first, hfirst, s', rfl, second, hsecond, s'', rfl, hs''⟩ := hs
  exact ⟨first, hfirst, second, hsecond, by rw [List.map_eq_nil_iff.mp hs'', List.append_nil]⟩

/-- A dot is read as a dot, however it is written. -/
theorem percentDecode_dot {dot : List Char} (h : dot ∈ dots) (s : List Char) :
    percentDecode (utf8 (dot ++ s)) = 0x2E :: percentDecode (utf8 s) := by
  rw [utf8_append]
  simp only [dots, List.mem_cons, List.not_mem_nil, or_false] at h
  rcases h with rfl | rfl | rfl
  · exact percentDecode_of_ne (by decide)
  · exact percentDecode_escape (m := 2) (n := 14) (by decide) (by decide)
  · exact percentDecode_escape (m := 2) (n := 14) (by decide) (by decide)

theorem percentDecode_of_isSingleDot {s : List Char} (h : isSingleDot s = true) :
    percentDecode (utf8 s) = utf8 ['.'] := by
  have hdot := percentDecode_dot (mem_dots_of_isSingleDot h) []
  rwa [List.append_nil, Text.utf8_nil, percentDecode_nil] at hdot

theorem percentDecode_of_isDoubleDot {s : List Char} (h : isDoubleDot s = true) :
    percentDecode (utf8 s) = utf8 ['.', '.'] := by
  obtain ⟨first, hfirst, second, hsecond, rfl⟩ := append_of_isDoubleDot h
  have hdot := percentDecode_dot hsecond []
  rw [List.append_nil, Text.utf8_nil, percentDecode_nil] at hdot
  rw [percentDecode_dot hfirst, hdot]
  rfl

/-! ## Resolving -/

/-- A segment that is not resolved away. -/
def isProper (seg : List Char) : Prop := isDoubleDot seg = false ∧ isSingleDot seg = false

instance (seg : List Char) : Decidable (isProper seg) := inferInstanceAs (Decidable (_ ∧ _))

/-- What a segment that others follow makes of those before it. -/
def enter (done : List (List Char)) (seg : List Char) : List (List Char) :=
  if isDoubleDot seg then done.drop 1 else if isSingleDot seg then done else seg :: done

theorem resolveDots_cons (done : List (List Char)) (seg : List Char) {segs : List (List Char)}
    (h : segs ≠ []) : resolveDots done (seg :: segs) = resolveDots (enter done seg) segs := by
  rw [resolveDots.eq_def]
  unfold enter
  cases segs with
  | nil => exact absurd rfl h
  | cons next segs =>
    simp only
    split
    · rfl
    · split <;> rfl

theorem resolveDots_append (done before : List (List Char)) {segs : List (List Char)}
    (h : segs ≠ []) :
    resolveDots done (before ++ segs) = resolveDots (before.foldl enter done) segs := by
  induction before generalizing done with
  | nil => rfl
  | cons seg before ih =>
    rw [List.cons_append, resolveDots_cons done seg (List.append_ne_nil_of_right_ne_nil before h),
      ih]
    rfl

theorem resolveDots_cons_of_proper (done : List (List Char)) {seg : List Char} (h : isProper seg)
    (segs : List (List Char)) : resolveDots done (seg :: segs) = resolveDots
    (seg :: done) segs := by
  cases segs with
  | nil => exact (if_neg (by rw [h.1]; nofun)).trans (if_neg (by rw [h.2]; nofun))
  | cons next segs =>
    rw [resolveDots_cons done seg (List.cons_ne_nil next segs), enter, h.1, h.2, if_neg nofun,
      if_neg nofun]

theorem resolveDots_of_proper (done : List (List Char)) {segs : List (List Char)}
    (h : ∀ seg ∈ segs, isProper seg) : resolveDots done segs = done.reverse ++ segs := by
  induction segs generalizing done with
  | nil => rw [resolveDots, List.append_nil]
  | cons seg segs ih =>
    rw [resolveDots_cons_of_proper done (h seg List.mem_cons_self),
      ih (seg :: done) fun s hs => h s (List.mem_cons_of_mem seg hs), List.reverse_cons,
      List.append_assoc, List.singleton_append]

theorem length_pathBytes_reverse (segs : List (List Char)) :
    (pathBytes segs.reverse).length = (pathBytes segs).length := by
  induction segs with
  | nil => rfl
  | cons seg segs ih =>
    rw [List.reverse_cons, pathBytes_append, List.length_append, ih, length_pathBytes_cons,
      length_pathBytes_cons]
    exact Nat.add_comm _ _

theorem length_pathBytes_drop_le (segs : List (List Char)) :
    (pathBytes (segs.drop 1)).length ≤ (pathBytes segs).length := by
  cases segs with
  | nil => exact Nat.le_refl 0
  | cons seg segs =>
    rw [length_pathBytes_cons]
    exact Nat.le_add_left _ _

/-- Resolving adds nothing, and where there is a dot segment it loses something. -/
theorem length_pathBytes_resolveDots (done segs : List (List Char)) :
    (pathBytes (resolveDots done segs)).length ≤ (pathBytes done).length + (pathBytes segs).length ∧
    ((pathBytes done).length + (pathBytes segs).length ≤
      (pathBytes (resolveDots done segs)).length →
      ∀ seg ∈ segs, isProper seg) := by
  induction segs generalizing done with
  | nil =>
    rw [resolveDots, length_pathBytes_reverse]
    exact ⟨Nat.le_add_right _ _, fun _ _ h => nomatch h⟩
  | cons seg segs ih =>
    have hdrop := length_pathBytes_drop_le done
    have hcons := length_pathBytes_cons segs seg
    have hempty : ∀ segs, (pathBytes ([] :: segs)).length = 1 + (pathBytes segs).length :=
      fun segs => by
      rw [length_pathBytes_cons, Text.utf8_nil, percentDecode_nil, List.length_nil, Nat.add_zero]
    by_cases hdouble : isDoubleDot seg = true
    · -- The segment before goes with it.
      have hseg : (percentDecode (utf8 seg)).length =
          2 := by rw [percentDecode_of_isDoubleDot hdouble]; rfl
      have hlt : (pathBytes (resolveDots done (seg :: segs))).length <
          (pathBytes done).length + (pathBytes (seg :: segs)).length := by
        cases segs with
        | nil =>
          rw [resolveDots, if_pos hdouble, length_pathBytes_reverse, hempty]
          omega
        | cons next segs =>
          rw [resolveDots_cons done seg (List.cons_ne_nil next segs), enter, if_pos hdouble]
          have hrest := (ih (done.drop 1)).1
          omega
      exact ⟨Nat.le_of_lt hlt, fun h => absurd h (Nat.not_le_of_lt hlt)⟩
    · by_cases hsingle : isSingleDot seg = true
      · have hseg : (percentDecode (utf8 seg)).length =
            1 := by rw [percentDecode_of_isSingleDot hsingle]; rfl
        have hlt : (pathBytes (resolveDots done (seg :: segs))).length <
            (pathBytes done).length + (pathBytes (seg :: segs)).length := by
          cases segs with
          | nil =>
            rw [resolveDots, if_neg hdouble, if_pos hsingle, length_pathBytes_reverse, hempty]
            omega
          | cons next segs =>
            rw [resolveDots_cons done seg (List.cons_ne_nil next segs), enter, if_neg hdouble,
              if_pos hsingle]
            have hrest := (ih done).1
            omega
        exact ⟨Nat.le_of_lt hlt, fun h => absurd h (Nat.not_le_of_lt hlt)⟩
      · have hproper : isProper seg :=
          ⟨Bool.eq_false_iff.mpr hdouble, Bool.eq_false_iff.mpr hsingle⟩
        have hdone := length_pathBytes_cons done seg
        obtain ⟨hle, hrest⟩ := ih (seg :: done)
        rw [resolveDots_cons_of_proper done hproper]
        refine ⟨by omega, fun h s hs => ?_⟩
        rcases List.mem_cons.mp hs with rfl | hs
        · exact hproper
        · exact hrest (by omega) s hs

/-! ## Paths behind a path -/

/-- The segments that stay of a path when more of it follows, the last one first. -/
def entered : List Char → List (List Char)
  | [] => []
  | _ :: path => (segments true path).foldl enter []

theorem normalPath_append_slash {path : List Char} (h : ∀ c ∈ path.head?, isSlash true c = true)
    (s : List Char) : normalPath true (path ++ '/' :: s) =
      pathText (resolveDots (entered path) (segments true s)) := by
  cases path with
  | nil => rfl
  | cons c path =>
    have hsegs : segments true s ≠ [] := by
      rw [segments_eq]
      exact splitOn_ne_nil _ _
    unfold normalPath
    rw [List.cons_append]
    simp only
    rw [if_pos (h c rfl), segments_append_slash, resolveDots_append [] _ hsegs]
    rfl

end CollectionSync.Url
