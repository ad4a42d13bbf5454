import CollectionSync.Drive.Feed

/-! # Members that nobody asks for

A body may say more than its reader wants to know. What stands under another name makes no
difference, and does not even have to be a value that could be kept. -/

namespace CollectionSync

namespace Json

variable {α : Type} {names : List String}

/-- What stands under a name that is not asked for makes no difference. -/
theorem membersNamed?_insert {m : String × α} (hm : m.1 ∉ names)
    (before after : List (String × α)) :
    membersNamed? names (before ++ m :: after) = membersNamed? names (before ++ after) := by
  have hne : ∀ n ∈ names, ¬ m.1 = n := fun n hn heq => hm (heq ▸ hn)
  have hcount : (names.all fun n => ((before ++ m :: after).filter fun m => m.1 = n).length ≤ 1) =
      names.all fun n => ((before ++ after).filter fun m => m.1 = n).length ≤ 1 := by
    rw [Bool.eq_iff_iff, List.all_eq_true, List.all_eq_true]
    refine forall₂_congr fun n hn => ?_
    simp only [List.filter_append, List.filter_cons_of_neg, hne n hn, decide_false,
      Bool.false_eq_true, not_false_eq_true]
  have hvalues : (names.map fun n =>
        ((before ++ m :: after).find? fun m => m.1 = n).map (·.2)) =
      names.map fun n => ((before ++ after).find? fun m => m.1 = n).map (·.2) := by
    refine List.map_congr_left fun n hn => ?_
    simp only [List.find?_append, List.find?_cons_of_neg, hne n hn, decide_false,
      Bool.false_eq_true, not_false_eq_true]
  rw [membersNamed?, membersNamed?, hcount, hvalues]

namespace Wire

theorem fields?_insert {raw : List Char} {name : String} (hraw : textOf? raw = some name)
    (hname : name ∉ names) (w : Wire) (before after : List (List Char × Wire)) :
    (obj (before ++ (raw, w) :: after)).fields? names = (obj (before ++ after)).fields? names := by
  simp only [fields?, List.mapM_append, List.mapM_cons, hraw]
  cases before.mapM fun m : List Char × Wire => (textOf? m.1).map (·, m.2) with
  | none => rfl
  | some front =>
    cases after.mapM fun m : List Char × Wire => (textOf? m.1).map (·, m.2) with
    | none => rfl
    | some back => exact membersNamed?_insert (m := (name, w)) hname front back

end Wire

end Json

namespace Drive

open Json (Wire textOf?)

/-- A page is what its links and its items are, whatever else the service says beside them. -/
theorem RawPage.ofWire?_insert {raw : List Char} {name : String} (hraw : textOf? raw = some name)
    (hname : name ∉ ["value", "@odata.nextLink", "@odata.deltaLink"]) (w : Wire)
    (before after : List (List Char × Wire)) :
    RawPage.ofWire? (.obj (before ++ (raw, w) :: after)) =
      RawPage.ofWire? (.obj (before ++ after)) := by
  rw [RawPage.ofWire?, RawPage.ofWire?, Wire.fields?_insert hraw hname]

/-- A link that is half of a pair is no text, a note that is one does no harm. -/
example :
    let page (name : String) := ("\x7b\"" ++ name ++ "\":\"\\ud83d\"\x7d").toUTF8.data.toList
    (RawPage.ofBody? (page "note")).isSome = true ∧
      (RawPage.ofBody? (page "@odata.nextLink")).isSome = false := by
  decide +kernel

end Drive

end CollectionSync
