import TrafficConfig.Proofs.Equality
import TrafficConfig.Proofs.Scans

/-!
# What a change set reports

A change set between two states is made of the paths at which they differ:

* **`hasChange_between`** — a path is reported exactly when it is a stem of such a path;
* **`unchanged_of_not_hasChange`** — an attribute that is not reported did not change;
* **`Dotless`** — names without a point. Among such names different attributes have
  different paths: such a name is reported exactly when a value differs under it
  (**`hasChange_between_iff`**). So an attribute whose new value is unknown is never reported
  (**`not_hasChange_of_unknown`**), and neither is a field of a block
  (**`not_hasChange_below_of_unknown`**).
-/

namespace TrafficConfig.ChangeSet

/-! ## Changed paths -/

/-- The names of two roots are those of either one. -/
theorem mem_namesOf {before after : Assoc Value} {name : String} :
    name ∈ namesOf before after ↔ name ∈ Assoc.keys before ∨ name ∈ Assoc.keys after := by
  have hfold : ∀ names : List String, name ∈ names.foldr place [] ↔ name ∈ names := by
    intro names
    induction names with
    | nil => rfl
    | cons n rest ih => rw [List.foldr_cons, mem_place, ih, List.mem_cons]
  rw [namesOf, hfold, List.mem_append]

/-- Nothing is reported at and below a value that does not differ. -/
theorem changesWithin_of_not_differs {n : Nat} {path : String} {before after : Value}
    (h : differs before after = false) : changesWithin n path before after = [] := by
  cases n <;> simp [changesWithin, h]

/-- The path of a difference is found. -/
theorem self_mem_changesWithin {n : Nat} {path : String} {before after : Value}
    (h : differs before after = true) : path ∈ changesWithin n path before after := by
  cases n <;> simp [changesWithin, h]

/-- A changed path is that of the value itself, or it is one inside a name of its
    block. -/
theorem mem_changesWithin {n : Nat} {path q : String} {before after : Value}
    (h : q ∈ changesWithin n path before after) :
    q = path ∨ ∃ m b a name, n = m + 1 ∧ innerBlocks? before after = some (b, a) ∧
      q ∈ changesWithin m (below path name) (Value.getOrNull b name)
        (Value.getOrNull a name) ∧ name ∈ namesOf b a := by
  cases n with
  | zero =>
      rw [changesWithin] at h
      split at h
      · exact .inl (List.mem_singleton.mp h)
      · exact nomatch h
  | succ m =>
      rw [changesWithin] at h
      split at h
      · rcases List.mem_cons.mp h with h | h
        · exact .inl h
        · cases hi : innerBlocks? before after with
          | none => rw [hi] at h; exact nomatch h
          | some ba =>
              obtain ⟨b, a⟩ := ba
              rw [hi] at h
              obtain ⟨name, hname, hq⟩ := List.mem_flatMap.mp h
              exact .inr ⟨m, b, a, name, rfl, rfl, hq, hname⟩
      · exact nomatch h

/-- Changed paths lie at and below the path of the compared value. -/
theorem mem_stems_of_mem_changesWithin {n : Nat} {path q : String} {before after : Value}
    (h : q ∈ changesWithin n path before after) : path.toList ∈ stems q.toList := by
  induction n generalizing path before after with
  | zero =>
      rcases mem_changesWithin h with rfl | ⟨m, b, a, name, hm, -⟩
      · exact self_mem_stems _
      · exact nomatch hm
  | succ n ih =>
      rcases mem_changesWithin h with rfl | ⟨m, b, a, name, hm, -, hq, -⟩
      · exact self_mem_stems _
      · obtain rfl := Nat.succ.inj hm
        refine mem_stems_trans (mem_stems.mpr (.inr ⟨name.toList, ?_⟩)) (ih hq)
        exact toList_below path name

section Between

variable {prior planned : Value}

/-- What has changed between two values is what is found below one of their names, however deep it
    lies. -/
theorem hasChange_between {q : String} : (between prior planned).hasChange q = true ↔
    ∃ name ∈ namesOf prior.root planned.root, ∃ path ∈ changesWithin
      (max (Value.getOrNull prior.root name).depth
        (Value.getOrNull planned.root name).depth) name
      (Value.getOrNull prior.root name) (Value.getOrNull planned.root name),
        q.toList ∈ stems path.toList := by
  rw [between, hasChange_ofPaths]
  constructor
  · rintro ⟨path, hpath, hq⟩
    obtain ⟨name, hname, hpath⟩ := List.mem_flatMap.mp hpath
    exact ⟨name, hname, path, hpath, hq⟩
  · rintro ⟨name, hname, path, hpath, hq⟩
    exact ⟨path, List.mem_flatMap.mpr ⟨name, hname, hpath⟩, hq⟩

/-- Without a value on both sides nothing differs, so a name whose values differ is a name
    of one side. -/
theorem mem_namesOf_of_differs {before after : Assoc Value} {name : String}
    (h : differs (Value.getOrNull before name) (Value.getOrNull after name) = true) :
    name ∈ namesOf before after := by
  rw [mem_namesOf]
  by_contra hnone
  rw [not_or, ← Assoc.get?_isSome, ← Assoc.get?_isSome, Option.not_isSome_iff_eq_none,
    Option.not_isSome_iff_eq_none] at hnone
  rw [Value.getOrNull, Value.getOrNull, hnone.1, hnone.2] at h
  exact Bool.noConfusion h

/-- An attribute that is not reported, and has no unknown value, did not change. -/
theorem unchanged_of_not_hasChange {name : String}
    (hu : Value.getOrNull planned.root name ≠ .unknown)
    (h : (between prior planned).hasChange name = false) :
    Value.Unchanged (Value.getOrNull prior.root name)
      (Value.getOrNull planned.root name) := by
  refine (Value.differs_eq_false_iff hu).mp ?_
  by_contra hd
  rw [Bool.not_eq_false] at hd
  rw [hasChange_between.mpr ⟨name, mem_namesOf_of_differs hd, name,
    self_mem_changesWithin hd, self_mem_stems _⟩] at h
  exact Bool.noConfusion h

end Between

/-! ## Names without points -/

/-- A name without a point. -/
def Dotless (name : String) : Prop := '.' ∉ name.toList

/-- No name in a map inside a value has a point. -/
def DotlessNames : Value → Prop := Value.Everywhere fun v => ∀ e ∈ v.root, Dotless e.1

instance (name : String) : Decidable (Dotless name) :=
  inferInstanceAs (Decidable ('.' ∉ name.toList))

instance (v : Value) : Decidable (DotlessNames v) :=
  inferInstanceAs (Decidable (Value.Everywhere _ v))

/-- A name without a point that a path begins with is one that every stem of the path
    begins with. -/
theorem Dotless.mem_stems_of_mem_stems {q : String} (hq : Dotless q) {key path : List Char}
    (hqp : q.toList ∈ stems path) (hkey : key ∈ stems path) : q.toList ∈ stems key := by
  rcases mem_stems.mp hkey with rfl | ⟨rest, rfl⟩
  · exact hqp
  rcases mem_stems.mp hqp with heq | ⟨rest', heq⟩
  · refine absurd ?_ hq
    rw [← heq]
    exact List.mem_append_right key List.mem_cons_self
  · -- the longer one goes on with the point behind the shorter one
    rcases List.append_eq_append_iff.mp heq with ⟨more, hmore, hrest⟩ | ⟨more, hmore, hrest⟩
    · cases more with
      | nil =>
          rw [List.append_nil] at hmore
          rw [hmore]
          exact self_mem_stems key
      | cons c more =>
          refine absurd ?_ hq
          rw [hmore, ← (List.cons.inj hrest).1]
          exact List.mem_append_right key List.mem_cons_self
    · cases more with
      | nil =>
          rw [List.append_nil] at hmore
          rw [hmore]
          exact self_mem_stems _
      | cons c more =>
          rw [← (List.cons.inj hrest).1] at hmore
          exact mem_stems.mpr (.inr ⟨more, hmore⟩)

/-- A path begins with only one name without a point. -/
theorem Dotless.eq_of_mem_stems {p q : String} (hp : Dotless p) (hq : Dotless q)
    {path : List Char} (hps : p.toList ∈ stems path) (hqs : q.toList ∈ stems path) :
    p = q := by
  rcases mem_stems.mp (hp.mem_stems_of_mem_stems hps hqs) with heq | ⟨rest, heq⟩
  · exact (String.toList_inj.mp heq).symm
  · refine absurd ?_ hq
    rw [heq]
    exact List.mem_append_right _ List.mem_cons_self

/-- **A name without a point is reported exactly when a value differs** under it, or under a
    name that begins with it. -/
theorem hasChange_between_iff {prior planned : Value} {q : String} (hq : Dotless q) :
    (between prior planned).hasChange q = true ↔ ∃ key : String,
      q.toList ∈ stems key.toList ∧
        differs (Value.getOrNull prior.root key) (Value.getOrNull planned.root key) = true := by
  rw [hasChange_between]
  constructor
  · rintro ⟨key, -, path, hpath, hstem⟩
    refine ⟨key, hq.mem_stems_of_mem_stems hstem (mem_stems_of_mem_changesWithin hpath), ?_⟩
    by_contra hd
    rw [changesWithin_of_not_differs (Bool.eq_false_iff.mpr hd)] at hpath
    exact nomatch hpath
  · rintro ⟨key, hstem, hd⟩
    exact ⟨key, mem_namesOf_of_differs hd, key, self_mem_changesWithin hd, hstem⟩

/-- **A name without a point changed if and only if its value did**, as long as nothing
    changed under names with points. -/
theorem hasChange_between_eq_false_iff {prior planned : Value} {q : String} (hq : Dotless q)
    (hknown : ∀ key, Value.getOrNull planned.root key ≠ .unknown)
    (hdots : ∀ key, ¬ Dotless key →
      Value.Unchanged (Value.getOrNull prior.root key) (Value.getOrNull planned.root key)) :
    (between prior planned).hasChange q = false ↔
      Value.Unchanged (Value.getOrNull prior.root q) (Value.getOrNull planned.root q) := by
  refine ⟨unchanged_of_not_hasChange (hknown q), fun h => ?_⟩
  rw [Bool.eq_false_iff, ne_eq, hasChange_between_iff hq]
  rintro ⟨key, hstem, hdiffers⟩
  rw [← Bool.not_eq_false, Value.differs_eq_false_iff (hknown key)] at hdiffers
  by_cases hkey : Dotless key
  · rw [hq.eq_of_mem_stems hkey hstem (self_mem_stems _)] at h
    exact hdiffers h
  · exact hdiffers (hdots key hkey)

/-- Below one block, a path begins with only one name without a point. -/
theorem Dotless.eq_of_below_mem_stems {block p q : String} (hp : Dotless p)
    (hq : Dotless q) {path : List Char} (hps : (below block p).toList ∈ stems path)
    (hqs : (below block q).toList ∈ stems path) : p = q := by
  -- behind the block and its point both names begin what is left
  have hdrop : ∀ {r : String}, (below block r).toList ∈ stems path →
      r.toList ∈ stems (path.drop (block.toList.length + 1)) := by
    intro r hr
    rw [toList_below] at hr
    rw [mem_stems]
    rcases mem_stems.mp hr with rfl | ⟨rest, rfl⟩
    · left
      simp
    · right
      exact ⟨rest, by simp⟩
  exact hp.eq_of_mem_stems hq (hdrop hps) (hdrop hqs)

/-- The path of a block does not begin with that of one of its fields. -/
theorem below_not_mem_stems (block name : String) :
    (below block name).toList ∉ stems block.toList := by
  intro h
  rw [toList_below, mem_stems] at h
  rcases h with h | ⟨rest, h⟩
  · have hlength := congrArg List.length h
    simp at hlength
  · have hlength := congrArg List.length h
    simp at hlength

/-- No name at the top of such a value has a point. -/
theorem DotlessNames.of_mem_keys {v : Value} (h : DotlessNames v) {name : String}
    (hn : name ∈ Assoc.keys v.root) : Dotless name := by
  obtain ⟨e, he, rfl⟩ := List.mem_map.mp hn
  exact h.here e he

/-- Names without points are inherited by what stands under a name. -/
theorem DotlessNames.getOrNull {v : Value} (h : DotlessNames v) (name : String) :
    DotlessNames (Value.getOrNull v.root name) := by
  refine Value.everywhere_getOrNull ?_ (fun _ he => nomatch he) name
  cases v with
  | map entries => exact (Value.everywhere_map.mp h).2
  | _ => exact fun _ he => nomatch he

/-- The values that are taken as one block. -/
theorem singleBlock?_cases {v : Value} {entries : Assoc Value}
    (h : singleBlock? v = some entries) : v = .map entries ∨ v = .list [.map entries] := by
  unfold singleBlock? at h
  split at h
  · exact .inl (by rw [Option.some.inj h])
  · exact .inr (by rw [Option.some.inj h])
  · cases h

/-- Names without points are inherited by the instance of a block. -/
theorem DotlessNames.of_singleBlock? {v : Value} (h : DotlessNames v)
    {entries : Assoc Value} (hb : singleBlock? v = some entries) :
    DotlessNames (.map entries) := by
  obtain rfl | rfl := singleBlock?_cases hb
  · exact h
  · exact (Value.everywhere_list.mp h).2 _ List.mem_cons_self

/-- The entries of a block with one instance; anything else has none. -/
def blockEntries (v : Value) : Assoc Value := (singleBlock? v).getD []

/-- Names without points are inherited by what is compared of a block. -/
theorem DotlessNames.blockEntries {v : Value} (h : DotlessNames v) :
    DotlessNames (.map (blockEntries v)) := by
  rw [ChangeSet.blockEntries]
  cases hb : singleBlock? v with
  | some entries => exact h.of_singleBlock? hb
  | none => exact Value.everywhere_map.mpr ⟨(fun _ he => nomatch he), (fun _ he => nomatch he)⟩

/-- What is compared inside two values is what their blocks hold. -/
theorem eq_of_innerBlocks? {before after : Value} {b a : Assoc Value}
    (h : innerBlocks? before after = some (b, a)) :
    b = blockEntries before ∧ a = blockEntries after := by
  rw [blockEntries, blockEntries]
  rw [innerBlocks?] at h
  split at h
  · next hb ha => simpa [hb, ha, eq_comm] using h
  · next hb ha =>
      split at h
      · simpa [hb, ha, eq_comm] using h
      · exact nomatch h
  · next hb ha =>
      split at h
      · simpa [hb, ha, eq_comm] using h
      · exact nomatch h
  · exact nomatch h

/-! ## Unknown values are not reported -/

section Unknown

variable {prior planned : Value}

private theorem differs_unknown (before : Value) : differs before .unknown = false := rfl

private theorem eq_unknown_of_isAbsent {v : Value} (h : v.isAbsent = true)
    (hnull : v.isNull = false) : v = .unknown := by
  cases v with
  | unknown => rfl
  | null => exact Bool.noConfusion hnull
  | _ => exact Bool.noConfusion h

/-- No name in either of two roots has a point. -/
def DotlessRoots (prior planned : Value) : Prop :=
  ∀ name ∈ namesOf prior.root planned.root, Dotless name

/-- Values whose names have no points have such roots. -/
theorem DotlessNames.roots (hprior : DotlessNames prior) (hplanned : DotlessNames planned) :
    DotlessRoots prior planned := fun _ hname =>
  (mem_namesOf.mp hname).elim hprior.of_mem_keys hplanned.of_mem_keys

/-- A changed path that begins with a name without a point is found at and below the
    attribute with this name. -/
theorem DotlessRoots.eq_of_mem_changesWithin (hroots : DotlessRoots prior planned)
    {name path : String} (hn : Dotless name) {q : String} (hq : name.toList ∈ stems q.toList)
    (hpath : q.toList ∈ stems path.toList) {key : String}
    (hkey : key ∈ namesOf prior.root planned.root) {n : Nat} {before after : Value}
    (hmem : path ∈ changesWithin n key before after) : key = name :=
  (hroots key hkey).eq_of_mem_stems hn (mem_stems_of_mem_changesWithin hmem)
    (mem_stems_trans hq hpath)

/-- **An attribute with an unknown value is not reported**, when no name has a point. -/
theorem not_hasChange_of_unknown (hprior : DotlessNames prior)
    (hplanned : DotlessNames planned) {name : String} (hn : Dotless name)
    (hu : Value.getOrNull planned.root name = .unknown) :
    (between prior planned).hasChange name = false := by
  rw [Bool.eq_false_iff]
  intro h
  obtain ⟨key, hkey, path, hmem, hpath⟩ := hasChange_between.mp h
  obtain rfl := (hprior.roots hplanned).eq_of_mem_changesWithin hn (self_mem_stems _) hpath
      hkey hmem
  rw [hu, changesWithin_of_not_differs (differs_unknown _)] at hmem
  exact nomatch hmem

private theorem innerBlocks?_after {before after : Value} {b a : Assoc Value}
    (h : innerBlocks? before after = some (b, a)) :
    (singleBlock? after = some a) ∨ (after.isAbsent = true ∧ a = []) := by
  rw [innerBlocks?] at h
  split at h
  · next hb ha =>
      obtain ⟨-, rfl⟩ := Prod.mk.inj (Option.some.inj h)
      exact .inl ha
  · split at h
    · next habsent =>
        obtain ⟨-, rfl⟩ := Prod.mk.inj (Option.some.inj h)
        exact .inr ⟨habsent, rfl⟩
    · exact nomatch h
  · split at h
    · obtain ⟨-, rfl⟩ := Prod.mk.inj (Option.some.inj h)
      next ha _ => exact .inl ha
    · exact nomatch h
  · exact nomatch h

/-- The names of compared blocks have no points when those of the compared values have
    none. -/
theorem dotless_of_innerBlocks? {before after : Value} {b a : Assoc Value}
    (h : innerBlocks? before after = some (b, a)) (hb : DotlessNames before)
    (ha : DotlessNames after) {name : String} (hname : name ∈ namesOf b a) :
    Dotless name := by
  obtain ⟨rfl, rfl⟩ := eq_of_innerBlocks? h
  rcases mem_namesOf.mp hname with hmem | hmem
  · exact hb.blockEntries.of_mem_keys hmem
  · exact ha.blockEntries.of_mem_keys hmem

/-- **A field of a block that has an unknown value is not reported**, when no name has a
    point. It is looked for in the instance that the change set compares; an unknown block
    counts as one in which every field is unknown. -/
theorem not_hasChange_below_of_unknown (hprior : DotlessNames prior)
    (hplanned : DotlessNames planned) {block name : String} (hb : Dotless block)
    (hn : Dotless name)
    (hu : Value.getOrNull planned.root block = .unknown ∨ ∀ entries,
      singleBlock? (Value.getOrNull planned.root block) = some entries →
        Value.getOrNull entries name = .unknown)
    (habsent : (Value.getOrNull planned.root block).isNull = false) :
    (between prior planned).hasChange (below block name) = false := by
  rw [Bool.eq_false_iff]
  intro h
  obtain ⟨key, hkey, path, hmem, hpath⟩ := hasChange_between.mp h
  have hblock : block.toList ∈ stems (below block name).toList :=
    mem_stems.mpr (.inr ⟨name.toList, toList_below block name⟩)
  obtain rfl := (hprior.roots hplanned).eq_of_mem_changesWithin hb hblock hpath hkey hmem
  rcases hu with hu | hu
  · rw [hu, changesWithin_of_not_differs (differs_unknown _)] at hmem
    exact nomatch hmem
  · rcases mem_changesWithin hmem with rfl | ⟨m, b, a, other, -, hinner, hq, hother⟩
    · exact below_not_mem_stems _ name hpath
    · -- the change lies inside the block, at or below the attribute with the name itself
      have hdotless := dotless_of_innerBlocks? hinner (hprior.getOrNull _)
          (hplanned.getOrNull _) hother
      obtain rfl := hdotless.eq_of_below_mem_stems hn
          (mem_stems_of_mem_changesWithin hq) hpath
      rcases innerBlocks?_after hinner with ha | ⟨ha, -⟩
      · rw [hu a ha, changesWithin_of_not_differs (differs_unknown _)] at hq
        exact nomatch hq
      · rw [eq_unknown_of_isAbsent ha habsent,
          changesWithin_of_not_differs (differs_unknown _)] at hmem
        exact nomatch hmem

end Unknown

end TrafficConfig.ChangeSet
