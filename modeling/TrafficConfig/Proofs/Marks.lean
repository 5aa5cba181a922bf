import TrafficConfig.Proofs.Changes

/-!
# Which paths are marked

A change set marks a path for every difference that the comparison of two states comes upon,
and every path above it:

* **`pathNames`** — the names of a path. What lies above a path has the first of its names
  (**`pathNames_prefix_of_mem_stems`**);
* **`ChangedAt`** — the comparison of two values comes upon a difference behind some names: the
  values differ, and it goes on inside their blocks. The bound on the depth that makes it
  total cuts nothing off (**`mem_changesWithin_iff`**);
* **`Value.along`** — what names lead to. The values behind the names of a difference differ
  (**`ChangedAt.differs_along`**);
* **`mem_between_iff`** — so the elements of a change set between two states whose names have
  no points are exactly these differences. The main result is **`marks_are_differences`**.
-/

namespace TrafficConfig

open Value

/-- A value is changed: the new one is known, and they are neither equal nor both blank. -/
def Value.Changed (before after : Value) : Prop := after ≠ .unknown ∧ ¬ Unchanged before after

namespace ChangeSet

/-! ## Names of a path -/

/-- The names of a path: what stands between its points. -/
def pathNames (path : String) : List String := (path.toList.splitOn '.').map String.ofList

/-- The names of a path below another one stand behind those of the other one. -/
theorem pathNames_below (path name : String) :
    pathNames (below path name) = pathNames path ++ pathNames name := by
  rw [pathNames, toList_below, List.splitOn_append_cons_self, List.map_append]
  rfl

/-- A name without a point is the only name of its path. -/
theorem Dotless.pathNames_eq {name : String} (h : Dotless name) : pathNames name = [name] := by
  rw [pathNames, List.splitOn_eq_singleton h, List.map_singleton, String.ofList_toList]

/-- Every path has a name. -/
theorem pathNames_ne_nil (path : String) : pathNames path ≠ [] := by
  rw [pathNames, ne_eq, List.map_eq_nil_iff]
  exact List.splitOn_ne_nil '.' _

/-- The path of names below a path. -/
def pathBelow (path : String) (inner : List String) : String := inner.foldl below path

/-- Names without points are found again in the path that is made of them. -/
theorem pathNames_pathBelow {inner : List String} (h : ∀ name ∈ inner, Dotless name)
    (path : String) : pathNames (pathBelow path inner) = pathNames path ++ inner := by
  induction inner generalizing path with
  | nil => exact (List.append_nil _).symm
  | cons name rest ih =>
      rw [List.forall_mem_cons] at h
      rw [pathBelow, List.foldl_cons, ← pathBelow, ih h.2, pathNames_below, h.1.pathNames_eq,
        List.append_assoc]
      rfl

/-- The names of a stem are the first ones of the path. -/
theorem pathNames_prefix_of_mem_stems {q path : String} (h : q.toList ∈ stems path.toList) :
    pathNames q <+: pathNames path := by
  rcases mem_stems_iff_below.mp h with rfl | ⟨rest, rfl⟩
  · exact List.prefix_rfl
  · rw [pathNames_below]
    exact List.prefix_append ..

private theorem pathBelow_eq_intercalate (name : String) (inner : List String) :
    pathBelow name inner = String.intercalate "." (name :: inner) := by
  induction inner generalizing name with
  | nil => exact String.intercalate_singleton.symm
  | cons k rest ih =>
      rw [pathBelow, List.foldl_cons, ← pathBelow, ih, below, String.intercalate_cons_append,
        String.intercalate_cons_cons]

/-- A path is made of its names. -/
theorem pathBelow_of_pathNames {path name : String} {inner : List String}
    (h : pathNames path = name :: inner) : pathBelow name inner = path := by
  rw [pathBelow_eq_intercalate, ← h, ← String.toList_inj, String.toList_intercalate, pathNames,
    List.map_map, show String.toList ∘ String.ofList = id from funext fun _ => String.toList_ofList,
    List.map_id]
  exact List.intercalate_splitOn '.'

/-! ## Where the comparison comes upon a difference -/

/-- The comparison of two values comes upon a difference behind some names: the values differ,
    and, if there is a name, the comparison goes on with what their blocks hold under it. -/
inductive ChangedAt : Value → Value → List String → Prop
  | here {before after : Value} : differs before after = true → ChangedAt before after []
  | inside {before after : Value} {b a : Assoc Value} {name : String} {rest : List String} :
      differs before after = true → innerBlocks? before after = some (b, a) →
      ChangedAt (getOrNull b name) (getOrNull a name) rest → ChangedAt before after (name :: rest)

/-- Values with a change inside of them differ. -/
theorem ChangedAt.differs {before after : Value} {inner : List String}
    (h : ChangedAt before after inner) : differs before after = true := by
  cases h <;> assumption

/-- What is above a difference differs too. -/
theorem ChangedAt.above {before after : Value} {inner front : List String}
    (h : ChangedAt before after inner) (hfront : front <+: inner) :
    ChangedAt before after front := by
  induction h generalizing front with
  | here hd => rw [List.prefix_nil.mp hfront]; exact .here hd
  | @inside before after b a name rest hd hinner _ ih =>
      cases front with
      | nil => exact .here hd
      | cons other front =>
          obtain ⟨rfl, hrest⟩ := List.cons_prefix_cons.mp hfront
          exact .inside hd hinner (ih hrest)

/-- The names inside are names of maps, so they have no points where those have none. -/
theorem ChangedAt.dotless {before after : Value} {inner : List String}
    (h : ChangedAt before after inner) (hb : DotlessNames before) (ha : DotlessNames after) :
    ∀ name ∈ inner, Dotless name := by
  induction h with
  | here => exact fun _ hname => nomatch hname
  | @inside before after b a name rest _ hinner hrest ih =>
      have hname := dotless_of_innerBlocks? hinner hb ha (mem_namesOf_of_differs hrest.differs)
      obtain ⟨rfl, rfl⟩ := eq_of_innerBlocks? hinner
      exact List.forall_mem_cons.mpr
        ⟨hname, ih (hb.blockEntries.getOrNull name) (ha.blockEntries.getOrNull name)⟩

/-- What is found under a name of a block lies deeper than the block. -/
theorem depth_getOrNull_of_singleBlock? {v : Value} {entries : Assoc Value}
    (h : singleBlock? v = some entries) (name : String) :
    (getOrNull entries name).depth < v.depth := by
  have hentries : (getOrNull entries name).depth ≤ Value.depthEntries entries := by
    rw [getOrNull]
    cases hget : Assoc.get? entries name with
    | none => exact Nat.zero_le _
    | some w => exact depth_le_depthEntries (Assoc.mem_of_get? hget)
  have hblock : Value.depthEntries entries < v.depth := by
    rcases singleBlock?_cases h with rfl | rfl
    · exact Nat.lt_succ_self _
    · show _ < max (depth (.map entries)) 0 + 1
      rw [depth]
      omega
  omega

private theorem depth_getOrNull_blockEntries {v : Value} {n : Nat} (h : v.depth ≤ n + 1)
    (name : String) : (getOrNull (blockEntries v) name).depth ≤ n := by
  rw [blockEntries]
  cases hblock : singleBlock? v with
  | none => exact Nat.zero_le _
  | some entries =>
      have hdeeper := depth_getOrNull_of_singleBlock? hblock name
      exact Nat.le_of_lt_succ (Nat.lt_of_lt_of_le hdeeper h)

private theorem exists_succ_of_innerBlocks? {before after : Value} {b a : Assoc Value} {n : Nat}
    (h : innerBlocks? before after = some (b, a)) (hb : before.depth ≤ n) (ha : after.depth ≤ n) :
    ∃ m, n = m + 1 := by
  cases n with
  | succ m => exact ⟨m, rfl⟩
  | zero =>
      have hnone : ∀ {v : Value}, v.depth ≤ 0 → singleBlock? v = none := by
        intro v hv
        rw [Option.eq_none_iff_forall_ne_some]
        intro entries hsome
        have hdeeper := depth_getOrNull_of_singleBlock? hsome ""
        omega
      have hnothing : innerBlocks? before after = none := by
        rw [innerBlocks?, hnone hb, hnone ha]
      exact absurd (h.symm.trans hnothing) (Option.some_ne_none _)

/-- Where a change is found the values differ. -/
theorem differs_of_mem_changesWithin {n : Nat} {path q : String} {before after : Value}
    (h : q ∈ changesWithin n path before after) : differs before after = true := by
  rw [← Bool.not_eq_false]
  intro hd
  rw [changesWithin_of_not_differs hd] at h
  exact nomatch h

private theorem exists_changedAt {n : Nat} {path q : String} {before after : Value}
    (h : q ∈ changesWithin n path before after) :
    ∃ inner, ChangedAt before after inner ∧ q = pathBelow path inner := by
  have hd := differs_of_mem_changesWithin h
  induction n generalizing path before after with
  | zero =>
      rcases mem_changesWithin h with rfl | ⟨m, b, a, name, hm, -⟩
      · exact ⟨[], .here hd, rfl⟩
      · exact nomatch hm
  | succ n ih =>
      rcases mem_changesWithin h with rfl | ⟨m, b, a, name, hm, hinner, hq, -⟩
      · exact ⟨[], .here hd, rfl⟩
      · obtain rfl := Nat.succ.inj hm
        obtain ⟨rest, hrest, rfl⟩ := ih hq (differs_of_mem_changesWithin hq)
        exact ⟨name :: rest, .inside hd hinner hrest, rfl⟩

/-- **The bound on the depth cuts no difference off.** -/
theorem mem_changesWithin_iff {n : Nat} {path q : String} {before after : Value}
    (hb : before.depth ≤ n) (ha : after.depth ≤ n) :
    q ∈ changesWithin n path before after ↔
      ∃ inner, ChangedAt before after inner ∧ q = pathBelow path inner := by
  refine ⟨exists_changedAt, ?_⟩
  rintro ⟨inner, h, rfl⟩
  induction h generalizing n path with
  | here hd => exact self_mem_changesWithin hd
  | @inside before after b a name rest hd hinner hrest ih =>
      obtain ⟨m, rfl⟩ := exists_succ_of_innerBlocks? hinner hb ha
      rw [changesWithin, if_pos hd, hinner]
      refine List.mem_cons_of_mem _ (List.mem_flatMap.mpr
        ⟨name, mem_namesOf_of_differs hrest.differs, ?_⟩)
      obtain ⟨rfl, rfl⟩ := eq_of_innerBlocks? hinner
      exact ih (depth_getOrNull_blockEntries hb name) (depth_getOrNull_blockEntries ha name)

/-! ## The elements of a change set -/

section Between

variable {prior planned : Value}

/-- The changed paths are those of the differences under the names of the roots. -/
theorem mem_changedPaths_iff {path : String} :
    path ∈ changedPaths prior.root planned.root ↔ ∃ name inner,
      ChangedAt (getOrNull prior.root name) (getOrNull planned.root name) inner ∧
        path = pathBelow name inner := by
  have hpaths : ∀ name, path ∈ changesWithin _ name (getOrNull prior.root name)
      (getOrNull planned.root name) ↔ _ := fun name =>
    mem_changesWithin_iff (Nat.le_max_left ..) (Nat.le_max_right ..)
  rw [changedPaths, List.mem_flatMap]
  constructor
  · rintro ⟨name, -, hpath⟩
    exact ⟨name, (hpaths name).mp hpath⟩
  · rintro ⟨name, inner, hat, rfl⟩
    exact ⟨name, mem_namesOf_of_differs hat.differs, (hpaths name).mpr ⟨inner, hat, rfl⟩⟩

/-- What is reported is above a difference, or is one. -/
theorem hasChange_between_iff_changedAt {q : String} :
    (between prior planned).hasChange q = true ↔ ∃ name inner,
      ChangedAt (getOrNull prior.root name) (getOrNull planned.root name) inner ∧
        q.toList ∈ stems (pathBelow name inner).toList := by
  rw [between, hasChange_ofPaths]
  constructor
  · rintro ⟨path, hpath, hq⟩
    obtain ⟨name, inner, hat, rfl⟩ := mem_changedPaths_iff.mp hpath
    exact ⟨name, inner, hat, hq⟩
  · rintro ⟨name, inner, hat, hq⟩
    exact ⟨_, mem_changedPaths_iff.mpr ⟨name, inner, hat, rfl⟩, hq⟩

/-- **The elements of a change set are the differences that the comparison comes upon**, when
    no name has a point: what is above a difference is one as well. -/
theorem mem_between_iff (hprior : DotlessNames prior) (hplanned : DotlessNames planned)
    {path : String} :
    path ∈ between prior planned ↔ ∃ name inner, pathNames path = name :: inner ∧
      ChangedAt (getOrNull prior.root name) (getOrNull planned.root name) inner := by
  rw [between, mem_ofPaths]
  constructor
  · rintro ⟨marked, hmarked, hstem⟩
    obtain ⟨name, inner, hat, rfl⟩ := mem_changedPaths_iff.mp hmarked
    have hname : Dotless name :=
      hprior.roots hplanned name (mem_namesOf_of_differs hat.differs)
    have hinner := hat.dotless (hprior.getOrNull name) (hplanned.getOrNull name)
    -- the names of the path are the first names of the marked one
    have hprefix := pathNames_prefix_of_mem_stems hstem
    rw [pathNames_pathBelow hinner, hname.pathNames_eq] at hprefix
    cases hnames : pathNames path with
    | nil => exact absurd hnames (pathNames_ne_nil path)
    | cons first rest =>
        rw [hnames] at hprefix
        obtain ⟨rfl, hrest⟩ := List.cons_prefix_cons.mp hprefix
        exact ⟨_, _, rfl, hat.above hrest⟩
  · rintro ⟨name, inner, hnames, hat⟩
    refine ⟨path, mem_changedPaths_iff.mpr ⟨name, inner, hat, ?_⟩, self_mem_stems _⟩
    exact (pathBelow_of_pathNames hnames).symm

end Between

end ChangeSet

/-! ## What names lead to -/

namespace Value

/-- What names lead to, from block to block. A name that cannot be followed leads to null, and
    so does every name behind it. -/
def along : Value → List String → Value
  | v, [] => v
  | v, name :: rest => along (getOrNull (ChangeSet.blockEntries v) name) rest

/-- What is reported as changed is changed. -/
theorem differs_iff_changed {before after : Value} :
    ChangeSet.differs before after = true ↔ Changed before after := by
  by_cases hu : after = .unknown
  · subst hu
    exact iff_of_false Bool.false_ne_true fun h => h.1 rfl
  · rw [Changed, ← differs_eq_false_iff hu, Bool.not_eq_false]
    exact ⟨fun h => ⟨hu, h⟩, And.right⟩

end Value

namespace ChangeSet

/-- The values behind the names of a difference differ. -/
theorem ChangedAt.differs_along {before after : Value} {inner : List String}
    (h : ChangedAt before after inner) :
    ChangeSet.differs (before.along inner) (after.along inner) = true := by
  induction h with
  | here hd => exact hd
  | inside _ hinner _ ih =>
      obtain ⟨rfl, rfl⟩ := eq_of_innerBlocks? hinner
      exact ih

/-- **Every mark is a difference, and no difference of the roots is missed.** Where no name has
    a point, the names of every element lead from the two roots to values of which the new one
    is known, and that are neither equal nor both blank; and whatever holds such values under
    a name, has this name in the set. -/
theorem marks_are_differences {prior planned : Assoc Value} (hprior : DotlessNames (.map prior))
    (hplanned : DotlessNames (.map planned)) :
    (∀ path ∈ between (.map prior) (.map planned),
      Changed (along (.map prior) (pathNames path)) (along (.map planned) (pathNames path))) ∧
    ∀ name, Changed (getOrNull prior name) (getOrNull planned name) →
      name ∈ between (.map prior) (.map planned) := by
  constructor
  · intro path hpath
    obtain ⟨name, inner, hnames, hat⟩ := (mem_between_iff hprior hplanned).mp hpath
    rw [hnames, ← differs_iff_changed]
    exact hat.differs_along
  · intro name hchanged
    have hat : ChangedAt (getOrNull prior name) (getOrNull planned name) [] :=
      .here (differs_iff_changed.mpr hchanged)
    rw [between, mem_ofPaths]
    exact ⟨name, mem_changedPaths_iff.mpr ⟨name, [], hat, rfl⟩, self_mem_stems _⟩

section Issuers

/-- A block that is stated as a list, and one that is stated as a map. -/
private def issuedInternally : Assoc Value :=
  [("log", .map [("format", .string "%h")]),
    ("ssl", .list [.map [("issuer", .string "internal"), ("ocsp_enable", .bool true)]])]

/-- Another issuer, and no logging. -/
private def issuedPublicly : Assoc Value :=
  [("ssl", .list [.map [("issuer", .string "public"), ("ocsp_enable", .bool true)]])]

private def issuerChanges : ChangeSet := between (.map issuedInternally) (.map issuedPublicly)

/-- Of a block that is kept only the changed field is marked, of a removed one every field; the
    names of both lead to the values that were compared. -/
theorem marks_of_new_issuer :
    issuerChanges.paths = ["log", "log.format", "ssl", "ssl.issuer"] ∧
    Changed (.string "internal") (.string "public") ∧ Changed (.string "%h") .null ∧
      "ssl" ∈ issuerChanges := by
  have hpaths : issuerChanges.paths = ["log", "log.format", "ssl", "ssl.issuer"] := by
    decide +kernel
  have hmem : ∀ path ∈ ["log", "log.format", "ssl", "ssl.issuer"], path ∈ issuerChanges := by
    intro path h
    show path ∈ issuerChanges.paths
    rwa [hpaths]
  have hbefore : DotlessNames (.map issuedInternally) := by decide
  have hafter : DotlessNames (.map issuedPublicly) := by decide
  obtain ⟨hmarked, hmissed⟩ := marks_are_differences hbefore hafter
  have hssl : Changed (getOrNull issuedInternally "ssl") (getOrNull issuedPublicly "ssl") :=
    hmarked "ssl" (hmem _ (by decide))
  exact ⟨hpaths, hmarked "ssl.issuer" (hmem _ (by decide)),
    hmarked "log.format" (hmem _ (by decide)), hmissed "ssl" hssl⟩

end Issuers

end ChangeSet

end TrafficConfig
