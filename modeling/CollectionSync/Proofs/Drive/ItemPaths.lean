import CollectionSync.Proofs.Drive.Paths
import CollectionSync.Proofs.Text.Utf8

/-! # Where a file lies inside its drive

The path of a parent is what stands behind the first `root:`. That mark starts with a letter that it
does not contain again, so it cannot begin in a text before it that does not contain it, and what
names the drive has no part in the path of a file. Nor does it matter that the mark is looked for
among bytes. -/

namespace CollectionSync.Drive

/-! ## The first mark -/

section

variable {m : Char} {tail pre p : List Char}

/-- A mark that starts with a character of its own does not begin in what stands before it. -/
theorem not_prefix_of_not_mem (hm : m ∉ tail) (hne : pre ≠ []) (hpre : ¬ m :: tail <+: pre) :
    ¬ m :: tail <+: pre ++ (m :: tail ++ p) := by
  intro h
  rcases List.prefix_or_prefix_of_prefix h (List.prefix_append pre _) with hinside | ⟨u, hu⟩
  · exact hpre hinside
  -- What is left of the mark behind `pre` starts with the first character of the mark, which stands
  -- in its tail.
  cases u with
  | nil => exact hpre ⟨[], by rw [← hu, List.append_nil, List.append_nil]⟩
  | cons d u =>
    have hrest : pre ++ d :: u <+: pre ++ (m :: tail ++ p) := by rwa [hu]
    obtain rfl : d = m := (List.cons_prefix_cons.mp ((List.prefix_append_right_inj pre).mp hrest)).1
    cases pre with
    | nil => exact hne rfl
    | cons c rest =>
      rw [List.cons_append] at hu
      exact hm ((List.cons.inj hu).2 ▸ List.mem_append_right rest List.mem_cons_self)

end

theorem afterRoot_go_append {pre : List Char} (hpre : ¬ "root:".toList <:+: pre)
    (whole p : List Char) :
    afterRoot.go whole (pre ++ ("root:".toList ++ p)) = p := by
  induction pre with
  | nil => rfl
  | cons c rest ih =>
    have hstart : ¬ "root:".toList <+: (c :: rest) ++ ("root:".toList ++ p) :=
      not_prefix_of_not_mem (by decide) (List.cons_ne_nil c rest) fun h => hpre h.isInfix
    rw [List.cons_append, afterRoot.go,
      if_neg (by rwa [List.isPrefixOf_iff_prefix, ← List.cons_append])]
    exact ih fun h => hpre (List.infix_cons h)

/-- What stands behind a mark that follows a text without one. -/
theorem afterRoot_append {pre : List Char} (hpre : ¬ "root:".toList <:+: pre) (p : List Char) :
    afterRoot (pre ++ ("root:".toList ++ p)) = p :=
  afterRoot_go_append hpre _ p

/-! ## The mark among bytes -/

/-- The place at which a row of bytes contains a mark for the first time. -/
def firstAt? (mark : List UInt8) : List UInt8 → Option Nat
  | [] => none
  | b :: rest => if mark.isPrefixOf (b :: rest) then some 0 else (firstAt? mark rest).map (· + 1)

/-- The bytes behind the first `root:`, or all of them without one. -/
def bytesAfterRoot (bytes : List UInt8) : List UInt8 :=
  match firstAt? (Text.utf8 "root:".toList) bytes with
  | some i => bytes.drop (i + 5)
  | none => bytes

variable {mark skipped rest : List UInt8}

/-- Bytes at which the mark does not begin are passed over. -/
theorem firstAt?_append (h : ∀ s t, skipped = s ++ t → t ≠ [] → ¬ mark <+: t ++ rest) :
    firstAt? mark (skipped ++ rest) = (firstAt? mark rest).map (· + skipped.length) := by
  induction skipped with
  | nil => exact Option.map_id'.symm
  | cons b skipped ih =>
    have hstart : ¬ mark.isPrefixOf (b :: (skipped ++ rest)) = true := by
      rw [List.isPrefixOf_iff_prefix]
      exact h [] (b :: skipped) rfl (List.cons_ne_nil _ _)
    rw [List.cons_append, firstAt?, if_neg hstart,
      ih fun s t ht => h (b :: s) t (congrArg (b :: ·) ht), Option.map_map]
    rfl

theorem utf8_root : Text.utf8 "root:".toList = 0x72 :: Text.utf8 "oot:".toList := by decide

/-- Among the bytes of a text the mark begins where it begins among the characters. -/
theorem firstAt?_utf8_cons {c : Char} {s : List Char} (h : ¬ "root:".toList <+: c :: s) :
    firstAt? (Text.utf8 "root:".toList) (Text.utf8 (c :: s)) =
      (firstAt? (Text.utf8 "root:".toList) (Text.utf8 s)).map
        (· + (String.utf8EncodeChar c).length) := by
  refine firstAt?_append fun before t ht hne hprefix => ?_
  rcases Nat.lt_or_ge c.toNat 0x80 with hascii | hbeyond
  · -- One byte, so it is the text itself that would start with the mark.
    cases before with
    | nil =>
      rw [List.nil_append] at ht
      exact h (Text.prefix_of_utf8_prefix (by rwa [Text.utf8_cons, ht]))
    | cons b before =>
      rw [Text.utf8EncodeChar_ascii hascii, List.cons_append] at ht
      exact hne (List.append_eq_nil_iff.mp (List.cons.inj ht).2.symm).2
  · -- The bytes of other characters are not those of a letter.
    cases t with
    | nil => exact hne rfl
    | cons b t =>
      rw [utf8_root, List.cons_append] at hprefix
      have hletter : 0x72 = b := (List.cons_prefix_cons.mp hprefix).1
      have hlarge := Text.le_of_mem_utf8EncodeChar hbeyond b
        (ht ▸ List.mem_append_right before List.mem_cons_self)
      rw [← hletter] at hlarge
      revert hlarge
      decide

theorem utf8_afterRoot_go (whole s : List Char) :
    Text.utf8 (afterRoot.go whole s) =
      match firstAt? (Text.utf8 "root:".toList) (Text.utf8 s) with
      | some i => (Text.utf8 s).drop (i + 5)
      | none => Text.utf8 whole := by
  induction s with
  | nil => rfl
  | cons c s ih =>
    rw [afterRoot.go]
    split
    · next hstart =>
      obtain ⟨p, hp⟩ := List.isPrefixOf_iff_prefix.mp hstart
      rw [← hp, Text.utf8_append]
      rfl
    · next hstart =>
      rw [firstAt?_utf8_cons (mt List.isPrefixOf_iff_prefix.mpr hstart), ih]
      cases firstAt? (Text.utf8 "root:".toList) (Text.utf8 s) with
      | none => rfl
      | some i =>
        simp only [Option.map_some, Text.utf8_cons]
        rw [Nat.add_right_comm, Nat.add_comm _ (String.utf8EncodeChar c).length,
          List.drop_length_add_append]

theorem bytesAfterRoot_utf8 (s : List Char) :
    bytesAfterRoot (Text.utf8 s) = Text.utf8 (afterRoot s) :=
  (utf8_afterRoot_go s s).symm

/-! ## Slashes at the end -/

theorem trimSlashes_append {s : String} {folder : List Char} {k : Nat}
    (h : s.toList = folder ++ List.replicate k '/') :
    trimSlashes s = trimSlashes (String.ofList folder) := by
  have hslashes : ∀ c ∈ List.replicate k '/', isSlash c = true := by
    intro c hc
    rw [List.eq_of_mem_replicate hc]
    rfl
  rw [trimSlashes, trimSlashes, h, List.reverse_append, List.reverse_replicate,
    List.dropWhile_append_of_pos hslashes, String.toList_ofList]

theorem getLast?_trimSlashes (s : String) : (trimSlashes s).toList.getLast? ≠ some '/' := by
  rw [trimSlashes, String.toList_ofList, List.getLast?_reverse]
  intro hlast
  have hfirst := List.head?_dropWhile_not isSlash s.toList.reverse
  rw [hlast] at hfirst
  revert hfirst
  decide

/-- The two texts are the same but for slashes at their ends. -/
def DifferInSlashes (p q : String) : Prop :=
  ∃ folder j k, p.toList = folder ++ List.replicate j '/' ∧
  q.toList = folder ++ List.replicate k '/'

theorem trimSlashes_eq_iff {p q : String} :
    trimSlashes p = trimSlashes q ↔ DifferInSlashes p q := by
  constructor
  · intro h
    obtain ⟨j, hj⟩ := toList_trimSlashes p
    obtain ⟨k, hk⟩ := toList_trimSlashes q
    exact ⟨(trimSlashes p).toList, j, k, hj, h ▸ hk⟩
  · rintro ⟨folder, j, k, hp, hq⟩
    rw [trimSlashes_append hp, trimSlashes_append hq]

/-! ## Paths -/

variable {pre : String}

theorem itemPath_eq (hpre : ¬ "root:".toList <:+: pre.toList) (parent name : String) :
    itemPath (pre ++ "root:" ++ parent) name = trimSlashes parent ++ "/" ++ name := by
  have hparent : (pre ++ "root:" ++ parent).toList =
      pre.toList ++ ("root:".toList ++ parent.toList) := by
    rw [String.toList_append, String.toList_append, List.append_assoc]
  rw [itemPath, hparent, afterRoot_append hpre, String.ofList_toList]

/-- Behind whatever names the drive, the path of a file is that of its parent without the slashes at
its end, a slash and the name. It does not depend on the drive, and for one name it tells any two
parents apart that differ in more than such slashes. The bytes of the parent are those behind the
first mark among bytes. -/
theorem path_inside_drive (hpre : ¬ "root:".toList <:+: pre.toList) (parent name : String) :
    (∃ folder k, parent.toList = folder ++ List.replicate k '/' ∧ folder.getLast? ≠ some '/' ∧
      (itemPath (pre ++ "root:" ++ parent) name).toList = folder ++ '/' :: name.toList) ∧
    (∀ pre' : String, ¬ "root:".toList <:+: pre'.toList →
      itemPath (pre' ++ "root:" ++ parent) name = itemPath (pre ++ "root:" ++ parent) name) ∧
    (∀ parent', itemPath (pre ++ "root:" ++ parent') name =
      itemPath (pre ++ "root:" ++ parent) name ↔
      DifferInSlashes parent' parent) ∧
    bytesAfterRoot (Text.utf8 (pre ++ "root:" ++ parent).toList) = Text.utf8 parent.toList := by
  refine ⟨?_, fun pre' hpre' => ?_, fun parent' => ?_, ?_⟩
  · obtain ⟨k, hk⟩ := toList_trimSlashes parent
    refine ⟨(trimSlashes parent).toList, k, hk, getLast?_trimSlashes parent, ?_⟩
    rw [itemPath_eq hpre, String.toList_append, String.toList_append, List.append_assoc]
    rfl
  · rw [itemPath_eq hpre, itemPath_eq hpre']
  · rw [itemPath_eq hpre, itemPath_eq hpre, String.append_left_inj, String.append_left_inj,
      trimSlashes_eq_iff]
  · rw [bytesAfterRoot_utf8, String.toList_append, String.toList_append, List.append_assoc,
      afterRoot_append hpre]

/-- The name of the drive ends like a mark begins, and the parent contains the mark again. -/
theorem path_inside_drive_marks :
    ¬ "root:".toList <:+: "/drives/b!ro".toList ∧ ¬ "root:".toList <:+: "/drive/".toList ∧
    itemPath ("/drives/b!ro" ++ "root:" ++ "/Übung/root:/b//") "a.txt" = "/Übung/root:/b/a.txt" ∧
    itemPath ("/drive/" ++ "root:" ++ "/Übung/root:/b//") "a.txt"
      = itemPath ("/drives/b!ro" ++ "root:" ++ "/Übung/root:/b//") "a.txt" ∧
    itemPath ("/drives/b!ro" ++ "root:" ++ "/Übung/root:/b") "a.txt"
      = itemPath ("/drives/b!ro" ++ "root:" ++ "/Übung/root:/b//") "a.txt" := by
  have hpre : ¬ "root:".toList <:+: "/drives/b!ro".toList := by decide +kernel
  have hpre' : ¬ "root:".toList <:+: "/drive/".toList := by decide +kernel
  obtain ⟨-, hdrive, hparent, -⟩ := path_inside_drive hpre "/Übung/root:/b//" "a.txt"
  exact ⟨hpre, hpre', by decide +kernel, hdrive _ hpre',
    (hparent _).mpr ⟨"/Übung/root:/b".toList, 0, 2, by decide +kernel, by decide +kernel⟩⟩

end CollectionSync.Drive
