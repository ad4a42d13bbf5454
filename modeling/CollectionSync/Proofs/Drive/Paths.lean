import CollectionSync.Proofs.Url.Reading
import CollectionSync.Drive.Path

/-! # The paths that are asked for

What stands in the path of a root's changes: the drive, the folder with one slash in front and none
at its end, and behind that the token, encoded. -/

namespace CollectionSync.Drive

/-! ## Slashes -/

theorem toList_trimSlashes (s : String) :
    ∃ k, s.toList = (trimSlashes s).toList ++ List.replicate k '/' := by
  have hslashes : ∀ c ∈ s.toList.reverse.takeWhile isSlash, c = '/' := fun c hc =>
    beq_iff_eq.mp (List.all_eq_true.mp List.all_takeWhile c hc)
  refine ⟨(s.toList.reverse.takeWhile isSlash).length, ?_⟩
  calc s.toList
      = (s.toList.reverse.takeWhile isSlash ++ s.toList.reverse.dropWhile isSlash).reverse := by
        rw [List.takeWhile_append_dropWhile, List.reverse_reverse]
    _ = (trimSlashes s).toList ++ (s.toList.reverse.takeWhile isSlash).reverse := by
        rw [List.reverse_append, trimSlashes, String.toList_ofList]
    _ = (trimSlashes s).toList ++
        List.replicate (s.toList.reverse.takeWhile isSlash).length '/' := by
        rw [← List.reverse_replicate, ← List.eq_replicate_of_mem hslashes]

theorem mem_trimSlashes {s : String} {c : Char} (hc : c ∈ s.toList) (hslash : c ≠ '/') :
    c ∈ (trimSlashes s).toList := by
  obtain ⟨k, hk⟩ := toList_trimSlashes s
  rw [hk, List.mem_append] at hc
  rcases hc with hc | hc
  · exact hc
  · exact absurd (List.eq_of_mem_replicate hc) hslash

theorem mem_of_mem_trimSlashes {s : String} {c : Char} (hc : c ∈ (trimSlashes s).toList) :
    c ∈ s.toList := by
  obtain ⟨k, hk⟩ := toList_trimSlashes s
  rw [hk]
  exact List.mem_append_left _ hc

/-- A text with a slash in front, put there if it has none. -/
def rooted (s : String) : String := if s.toList.head? = some '/' then s else "/" ++ s

theorem mem_rooted {s : String} {c : Char} (hc : c ∈ (rooted s).toList) :
    c = '/' ∨ c ∈ s.toList := by
  unfold rooted at hc
  split at hc
  · exact .inr hc
  · rw [String.toList_append, List.mem_append] at hc
    rcases hc with hc | hc
    · exact .inl (List.mem_singleton.mp hc)
    · exact .inr hc

/-! ## Folders -/

variable {root : SourceRoot} {folder : String}

theorem folderPath?_eq (h : root.folder = some folder) :
    folderPath? root =
      if (trimSlashes folder).toList = [] then none else some (rooted (trimSlashes folder)) := by
  unfold folderPath? rooted
  rw [h]
  simp only [Option.map_some]
  cases hfolder : (trimSlashes folder).toList with
  | nil => rfl
  | cons c rest =>
    rw [if_neg (List.cons_ne_nil c rest), List.head?_cons]
    by_cases hc : c = '/'
    · rw [hc, if_pos rfl]
      rfl
    · rw [if_neg (mt Option.some.inj hc)]
      split
      · next heq => cases heq
      · next heq => exact absurd (List.cons.inj heq).1 hc
      · rfl

/-- A folder with a name is asked for by that name. -/
theorem deltaPath_folder (h : root.folder = some folder) (hname : ∃ c ∈ folder.toList, c ≠ '/') :
    deltaPath root none = drivePath root ++ "/root:" ++ rooted (trimSlashes folder) ++
      ":/delta" := by
  obtain ⟨c, hc, hslash⟩ := hname
  have hne : (trimSlashes folder).toList ≠ [] := List.ne_nil_of_mem (mem_trimSlashes hc hslash)
  unfold deltaPath
  rw [folderPath?_eq h, if_neg hne]

theorem mem_folderPath? {path : String} (h : folderPath? root = some path) {c : Char}
    (hc : c ∈ path.toList) :
    c = '/' ∨ ∃ folder ∈ root.folder, c ∈ folder.toList := by
  cases hfolder : root.folder with
  | none =>
    unfold folderPath? at h
    rw [hfolder] at h
    cases h
  | some folder =>
    rw [folderPath?_eq hfolder] at h
    split at h
    · cases h
    · rw [← Option.some.inj h] at hc
      rcases mem_rooted hc with rfl | hc
      · exact .inl rfl
      · exact .inr ⟨folder, rfl, mem_of_mem_trimSlashes hc⟩

/-- What stands between the drive and the end of the path. -/
theorem deltaPath_middle (root : SourceRoot) :
    ∃ middle, (deltaPath root none).toList = (drivePath root).toList ++ middle ++ "/delta".toList ∧
      ∀ c ∈ middle, c ∈ "/root:".toList ∨ ∃ folder ∈ root.folder, c ∈ folder.toList := by
  unfold deltaPath
  cases hfolder : folderPath? root with
  | none =>
    refine ⟨"/root".toList, ?_, fun c hc => .inl (List.mem_append_left [':'] hc)⟩
    simp only [String.toList_append, List.append_assoc]
    rfl
  | some path =>
    refine ⟨"/root:".toList ++ path.toList ++ [':'], ?_, fun c hc => ?_⟩
    · simp only [String.toList_append, List.append_assoc]
      rfl
    · rw [List.mem_append, List.mem_append] at hc
      rcases hc with (hc | hc) | hc
      · exact .inl hc
      · rcases mem_folderPath? hfolder hc with rfl | hc
        · exact .inl (by decide)
        · exact .inr hc
      · rw [List.mem_singleton.mp hc]
        exact .inl (by decide)

/-- The path of a root's changes starts with a slash and ends in a letter. -/
theorem deltaPath_rooted (root : SourceRoot) :
    ∃ path, (deltaPath root none).toList = '/' :: path ∧ path.getLast? = some 'a' := by
  have hdrive : ∃ drive, (drivePath root).toList = '/' :: drive := by
    unfold drivePath
    split
    · exact ⟨_, String.toList_append⟩
    · exact ⟨_, rfl⟩
  obtain ⟨drive, hdrive⟩ := hdrive
  obtain ⟨middle, hmiddle, -⟩ := deltaPath_middle root
  refine ⟨drive ++ middle ++ "/delta".toList, by rw [hmiddle, hdrive]; rfl, ?_⟩
  rw [List.getLast?_append]
  rfl

/-- What stands in the path of a root's changes. -/
theorem mem_deltaPath {c : Char} (hc : c ∈ (deltaPath root none).toList) :
    c ∈ "/me/drives/root:/delta".toList ∨ (∃ drive ∈ root.drive, c ∈ drive.toList) ∨
      ∃ folder ∈ root.folder, c ∈ folder.toList := by
  have hown : ∀ {c : Char} {s : List Char}, s ⊆ "/me/drives/root:/delta".toList → c ∈ s →
      c ∈ "/me/drives/root:/delta".toList := fun h hc => h hc
  obtain ⟨middle, hmiddle, hchars⟩ := deltaPath_middle root
  rw [hmiddle, List.mem_append, List.mem_append] at hc
  rcases hc with (hc | hc) | hc
  · unfold drivePath at hc
    split at hc
    · next drive hdrive =>
      rw [String.toList_append, List.mem_append] at hc
      rcases hc with hc | hc
      · exact .inl (hown (by decide) hc)
      · exact .inr (.inl ⟨drive, hdrive, hc⟩)
    · exact .inl (hown (by decide) hc)
  · rcases hchars c hc with hc | hc
    · exact .inl (hown (by decide) hc)
    · exact .inr (.inr hc)
  · exact .inl (hown (by decide) hc)

theorem deltaPath_token (root : SourceRoot) (token : DeltaToken) :
    (deltaPath root (some token)).toList =
      (deltaPath root none).toList ++ '?' :: ("token".toList ++ '=' ::
        Url.formEncode token.text.toList) := by
  have hmark : "?token=".toList = '?' :: ("token".toList ++ ['=']) := rfl
  unfold deltaPath
  simp only [String.toList_append, String.toList_ofList, hmark, List.append_assoc, List.cons_append,
    List.nil_append]

end CollectionSync.Drive
