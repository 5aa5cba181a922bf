import TrafficConfig.ChangeSet

/-!
# One look instead of a scan

A change set is asked for a path and for anything beneath it. It looks the path up, and then at
one element only:

* **`isPrefix_of_between`** — strings that begin alike stand next to each other: what lies
  between a beginning and a string that begins with it, begins with it too;
* **`exists_find?_of_not_lt`** — the first element of an ascending list that is not below a
  string is the least one that is not;
* **`hasChange_iff`** — so the look finds what a scan for a path that has the asked one as a
  stem would find, be the set closed under the paths above its elements or not;
* **`mem_ofPaths`**, **`hasChange_ofPaths`** — a set that was made of paths has the stems of
  these as its elements, and reports no others.

The main result is **`one_look_suffices`**.
-/

namespace TrafficConfig.ChangeSet

/-! ## Stems -/

/-- A path is one of its own stems. -/
theorem self_mem_stems (path : List Char) : path ∈ stems path := mem_stems.mpr (.inl rfl)

/-- A stem of a stem is a stem. -/
theorem mem_stems_trans {p q r : List Char} (hpq : p ∈ stems q) (hqr : q ∈ stems r) :
    p ∈ stems r := by
  rw [mem_stems] at hpq hqr ⊢
  rcases hpq with rfl | ⟨rest, rfl⟩
  · exact hqr
  · right
    rcases hqr with rfl | ⟨rest', rfl⟩
    · exact ⟨rest, rfl⟩
    · exact ⟨rest ++ '.' :: rest', by rw [List.append_assoc, List.cons_append]⟩

theorem toList_below (path name : String) :
    (below path name).toList = path.toList ++ '.' :: name.toList := by
  rw [below, String.toList_append, String.toList_append, List.append_assoc]
  rfl

/-- A path lies below another one when it goes on behind that with a point. -/
theorem exists_below_iff {q p : String} :
    (∃ name, p = below q name) ↔ ∃ rest, p.toList = q.toList ++ '.' :: rest := by
  constructor
  · rintro ⟨name, rfl⟩
    exact ⟨name.toList, toList_below q name⟩
  · rintro ⟨rest, h⟩
    refine ⟨String.ofList rest, String.toList_inj.mp ?_⟩
    rw [h, toList_below, String.toList_ofList]

/-- A stem of a path is the path, or the path lies below it. -/
theorem mem_stems_iff_below {q p : String} :
    q.toList ∈ stems p.toList ↔ p = q ∨ ∃ name, p = below q name := by
  rw [mem_stems, exists_below_iff, String.toList_inj]

/-- What lies below a path begins with the path and a point. -/
theorem beginsWith_point_iff {q p : String} :
    (q ++ ".").toList <+: p.toList ↔ ∃ name, p = below q name := by
  rw [exists_below_iff, String.toList_append]
  refine exists_congr fun rest => ?_
  rw [List.append_assoc, eq_comm]
  rfl

/-! ## Beginnings -/

/-- **What lies between a beginning and a string that begins with it, begins with it too.** -/
theorem isPrefix_of_between {front s t : List Char} (hfront : ¬ s < front) (hst : ¬ t < s)
    (ht : front <+: t) : front <+: s := by
  induction front generalizing s t with
  | nil => exact List.nil_prefix
  | cons c front ih =>
      obtain ⟨rest, rfl⟩ := ht
      cases s with
      | nil => exact absurd (List.nil_lt_cons c front) hfront
      | cons d s =>
          rw [List.cons_append, List.cons_lt_cons_iff, not_or] at hst
          rw [List.cons_lt_cons_iff, not_or] at hfront
          -- neither character is below the other one, so the two go on behind the same
          obtain rfl : c = d := Char.le_antisymm (Char.not_lt.mp hfront.1) (Char.not_lt.mp hst.1)
          exact List.cons_prefix_cons.mpr ⟨rfl, ih (fun h => hfront.2 ⟨rfl, h⟩)
            (fun h => hst.2 ⟨rfl, h⟩) (List.prefix_append ..)⟩

/-- A string is not below what it begins with. -/
theorem not_lt_of_beginsWith {front s : List Char} (h : front <+: s) : ¬ s < front :=
  List.not_lt.mpr h.le

/-- **The first element that is not below a string is the least one that is not.** -/
theorem exists_find?_of_not_lt {paths : List String} (hasc : paths.Pairwise (· < ·))
    {front p : String} (hp : p ∈ paths) (hnot : ¬ p < front) :
    ∃ first, paths.find? (fun s => !decide (s < front)) = some first ∧
      ¬ first < front ∧ ¬ p < first := by
  induction paths with
  | nil => exact nomatch hp
  | cons s rest ih =>
      rw [List.pairwise_cons] at hasc
      by_cases hs : s < front
      · have hne : p ≠ s := fun heq => hnot (heq ▸ hs)
        obtain ⟨first, hfind, hfirst⟩ := ih hasc.2 ((List.mem_cons.mp hp).resolve_left hne)
        exact ⟨first, by rw [List.find?_cons_of_neg (by simpa using hs), hfind], hfirst⟩
      · refine ⟨s, List.find?_cons_of_pos (by simpa using hs), hs, ?_⟩
        rcases List.mem_cons.mp hp with rfl | hp
        · exact String.lt_irrefl _
        · exact String.lt_asymm (hasc.1 p hp)

/-! ## Looks -/

/-- The look behind a path finds something exactly when some element lies below the path. -/
theorem look_behind_iff (set : ChangeSet) (q : String) :
    ((set.paths.find? fun p => !decide (p < q ++ ".")).any fun p =>
      (q ++ ".").toList.isPrefixOf p.toList) = true ↔ ∃ p ∈ set, ∃ name, p = below q name := by
  rw [Option.any_eq_true]
  constructor
  · rintro ⟨p, hfind, hprefix⟩
    exact ⟨p, List.mem_of_find?_eq_some hfind,
      beginsWith_point_iff.mp (List.isPrefixOf_iff_prefix.mp hprefix)⟩
  · rintro ⟨p, hp, hbelow⟩
    have hprefix := beginsWith_point_iff.mpr hbelow
    -- the element that is looked at lies between the path with its point and what is below it
    obtain ⟨first, hfind, hfirst, hle⟩ :=
      exists_find?_of_not_lt set.ascending hp (not_lt_of_beginsWith hprefix)
    exact ⟨first, hfind,
      List.isPrefixOf_iff_prefix.mpr (isPrefix_of_between hfirst hle hprefix)⟩

/-- **A path is reported exactly when it is a stem of an element.** -/
theorem hasChange_iff {set : ChangeSet} {q : String} :
    set.hasChange q = true ↔ ∃ p ∈ set, q.toList ∈ stems p.toList := by
  rw [hasChange, Bool.or_eq_true, List.contains_iff_mem, look_behind_iff]
  constructor
  · rintro (hq | ⟨p, hp, hbelow⟩)
    · exact ⟨q, hq, self_mem_stems _⟩
    · exact ⟨p, hp, mem_stems_iff_below.mpr (.inr hbelow)⟩
  · rintro ⟨p, hp, hstem⟩
    rcases mem_stems_iff_below.mp hstem with rfl | hbelow
    · exact .inl hp
    · exact .inr ⟨p, hp, hbelow⟩

/-! ## Sets made of paths -/

private theorem mem_foldl_insert {stemList : List (List Char)} {set : ChangeSet}
    {q : String} :
    q ∈ stemList.foldl (fun acc stem => acc.insert (String.ofList stem)) set ↔ q ∈ set ∨
      q.toList ∈ stemList := by
  induction stemList generalizing set with
  | nil => simp
  | cons stem rest ih =>
      rw [List.foldl_cons, ih, mem_insert, List.mem_cons]
      have heq : q = String.ofList stem ↔ q.toList = stem := by
        constructor
        · rintro rfl
          exact String.toList_ofList
        · rintro rfl
          exact String.ofList_toList.symm
      rw [heq, or_comm (a := q.toList = stem), or_assoc]

/-- Marking a path adds all its stems. -/
theorem mem_mark {set : ChangeSet} {path q : String} :
    q ∈ set.mark path ↔ q ∈ set ∨ q.toList ∈ stems path.toList :=
  mem_foldl_insert

private theorem mem_markAll {paths : List String} {set : ChangeSet} {q : String} :
    q ∈ set.markAll paths ↔ q ∈ set ∨ ∃ p ∈ paths, q.toList ∈ stems p.toList := by
  induction paths generalizing set with
  | nil => simp [markAll]
  | cons p rest ih =>
      rw [markAll, List.foldl_cons, ← markAll, ih, mem_mark, or_assoc]
      simp

/-- The elements of a change set are the stems of the paths that it was made of. -/
theorem mem_ofPaths {paths : List String} {q : String} :
    q ∈ ofPaths paths ↔ ∃ p ∈ paths, q.toList ∈ stems p.toList := by
  rw [ofPaths, mem_markAll]
  constructor
  · rintro (h | h)
    · exact nomatch h
    · exact h
  · exact .inr

/-- A path is reported exactly when it is a stem of one of the paths that the set was made
    of. -/
theorem hasChange_ofPaths {paths : List String} {q : String} :
    (ofPaths paths).hasChange q = true ↔ ∃ p ∈ paths, q.toList ∈ stems p.toList := by
  rw [hasChange_iff]
  constructor
  · rintro ⟨p, hp, hq⟩
    obtain ⟨path, hpath, hp⟩ := mem_ofPaths.mp hp
    exact ⟨path, hpath, mem_stems_trans hq hp⟩
  · intro hstem
    exact ⟨q, mem_ofPaths.mpr hstem, self_mem_stems _⟩

/-- A path is another one, or it lies below that. -/
def AtOrBelow (q p : String) : Prop := p = q ∨ ∃ rest, p = below q rest

/-- **One look suffices.** A set that was made of paths reports a path exactly when one of these
    is the path or lies below it; and a change set, whatever its elements, when one of its
    elements is or does. -/
theorem one_look_suffices (q : String) :
    (∀ paths, (ofPaths paths).hasChange q = true ↔ ∃ p ∈ paths, AtOrBelow q p) ∧
    ∀ set : ChangeSet, set.hasChange q = true ↔ ∃ p ∈ set, AtOrBelow q p := by
  have hstem : ∀ p, q.toList ∈ stems p.toList ↔ AtOrBelow q p := fun p => mem_stems_iff_below
  constructor
  · intro paths
    simp only [hasChange_ofPaths, hstem]
  · intro set
    simp only [hasChange_iff, hstem]

/-- A point stands between a hyphen and the digits, so what is below `http` has neighbours on
    both sides that are not. -/
example : (⟨["http-a", "http.b", "http2"], by decide⟩ : ChangeSet).hasChange "http" = true ∧
    (⟨["http-a", "http2"], by decide⟩ : ChangeSet).hasChange "http" = false := by
  decide +kernel

end TrafficConfig.ChangeSet
