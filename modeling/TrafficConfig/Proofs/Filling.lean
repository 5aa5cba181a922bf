import TrafficConfig.Proofs.Plain
import TrafficConfig.Proofs.Tables
import TrafficConfig.Schema.Validation

/-!
# Filling in defaults

What the defaults of a block do to values, name by name:

* **`get?_fillAll`** — a name that is set, or has no default, keeps its value;
  **`getOrNull_fillAll`** says what the others get;
* **`get?_applyNested`** — a nested block changes the instances under its own name, and
  nothing else;
* **`equals_mapInstances`** — a value that equals another one equals it also after its
  instances were changed, as long as this keeps them equal;
* **`Block.induction`** — blocks are nested finitely often.
-/

namespace TrafficConfig

open Value ChangeSet

/-! ## Attributes -/

/-- The defaults of attributes, one after the other. -/
def fillAll (attributes : List Attribute) (values : Assoc Value) : Assoc Value :=
  attributes.foldl (fun acc a => a.fill acc) values

theorem applyDefaults_eq (description : String) (deprecated : Bool)
    (attributes : List Attribute) (blocks : List NestedBlock) (values : Assoc Value) :
    (Block.mk description deprecated attributes blocks).applyDefaults values =
      Block.applyNestedDefaults blocks (fillAll attributes values) := by
  rw [Block.applyDefaults]
  rfl

/-- An attribute changes nothing, or it gives its default to an unset name. -/
theorem fill_cases (a : Attribute) (values : Assoc Value) :
    (a.fill values = values ∧ (a.default = none ∨ getOrNull values a.name ≠ .null)) ∨
      ∃ d, a.default = some d ∧ getOrNull values a.name = .null ∧
        a.fill values = Assoc.insert values a.name d := by
  rw [Attribute.fill]
  cases hd : a.default with
  | none => exact .inl ⟨rfl, .inl rfl⟩
  | some d =>
      cases hv : getOrNull values a.name with
      | null => exact .inr ⟨d, rfl, rfl, rfl⟩
      | _ => exact .inl ⟨rfl, .inr (fun hn => nomatch hn)⟩

section Fill

variable {attributes : List Attribute} {q : String}

/-- A name that is set, or has no default, keeps its value. -/
theorem get?_fillAll {values : Assoc Value}
    (h : ∀ a ∈ attributes, a.name = q → a.default = none ∨ getOrNull values q ≠ .null) :
    Assoc.get? (fillAll attributes values) q = Assoc.get? values q := by
  induction attributes generalizing values with
  | nil => rfl
  | cons a rest ih =>
      rw [List.forall_mem_cons] at h
      have hone : Assoc.get? (a.fill values) q = Assoc.get? values q := by
        rcases fill_cases a values with ⟨hsame, -⟩ | ⟨d, hd, hnull, hinsert⟩
        · rw [hsame]
        · rw [hinsert, Assoc.get?_insert, if_neg]
          rintro rfl
          rcases h.1 rfl with hnone | hset
          · rw [hd] at hnone
            exact nomatch hnone
          · exact hset hnull
      show Assoc.get? (fillAll rest (a.fill values)) q = _
      rw [ih, hone]
      rw [getOrNull_congr hone]
      exact h.2

/-- A name has what it had before, or it was unset and has a default. -/
theorem getOrNull_fillAll (attributes : List Attribute) (values : Assoc Value)
    (q : String) : getOrNull (fillAll attributes values) q = getOrNull values q ∨
      (getOrNull values q = .null ∧
        ∃ a ∈ attributes, a.name = q ∧
          a.default = some (getOrNull (fillAll attributes values) q)) := by
  induction attributes generalizing values with
  | nil => exact .inl rfl
  | cons a rest ih =>
      show getOrNull (fillAll rest (a.fill values)) q = _ ∨
        (_ ∧ ∃ b ∈ a :: rest, b.name = q ∧
        b.default = some (getOrNull (fillAll rest (a.fill values)) q))
      rcases fill_cases a values with ⟨hsame, -⟩ | ⟨d, hd, hnull, hinsert⟩
      · rw [hsame]
        refine (ih values).imp_right ?_
        rintro ⟨hunset, b, hb, hrest⟩
        exact ⟨hunset, b, List.mem_cons_of_mem a hb, hrest⟩
      · rw [hinsert]
        by_cases hq : a.name = q
        · subst hq
          have hfilled : getOrNull (Assoc.insert values a.name d) a.name = d :=
            getOrNull_of_get? (Assoc.get?_insert_self values a.name d)
          right
          refine ⟨hnull, ?_⟩
          -- the default is kept by the later attributes, or one of them gives the name
          -- its own
          rcases ih (Assoc.insert values a.name d) with hkept | ⟨-, b, hb, hrest⟩
          · exact ⟨a, List.mem_cons_self, rfl, by rw [hkept, hfilled, hd]⟩
          · exact ⟨b, List.mem_cons_of_mem a hb, hrest⟩
        · have hother : getOrNull (Assoc.insert values a.name d) q =
              getOrNull values q := by
            refine getOrNull_congr ?_
            rw [Assoc.get?_insert, if_neg hq]
          rw [← hother]
          refine (ih _).imp_right ?_
          rintro ⟨hunset, b, hb, hrest⟩
          exact ⟨hunset, b, List.mem_cons_of_mem a hb, hrest⟩

/-- Plain defaults keep a map plain. -/
theorem plain_fillAll {values : Assoc Value}
    (hd : ∀ a ∈ attributes, ∀ d ∈ a.default, Plain d) (h : Plain (.map values)) :
    Plain (.map (fillAll attributes values)) := by
  induction attributes generalizing values with
  | nil => exact h
  | cons a rest ih =>
      rw [List.forall_mem_cons] at hd
      show Plain (.map (fillAll rest (a.fill values)))
      refine ih hd.2 ?_
      rcases fill_cases a values with ⟨hsame, -⟩ | ⟨d, hdefault, -, hinsert⟩
      · rw [hsame]
        exact h
      · rw [hinsert]
        exact h.insert (hd.1 d hdefault) a.name

/-- Nothing with a default stays unset. -/
theorem getOrNull_fillAll_ne_null {values : Assoc Value}
    (hd : ∀ a ∈ attributes, a.default ≠ some .null) {a : Attribute} (ha : a ∈ attributes)
    (hdefault : a.default ≠ none) :
    getOrNull (fillAll attributes values) a.name ≠ .null := by
  induction attributes generalizing values with
  | nil => exact nomatch ha
  | cons b rest ih =>
      rw [List.forall_mem_cons] at hd
      show getOrNull (fillAll rest (b.fill values)) a.name ≠ .null
      rcases List.mem_cons.mp ha with rfl | ha
      · -- what the attribute has filled in is not taken away by later ones
        have hset : getOrNull (a.fill values) a.name ≠ .null := by
          rcases fill_cases a values with ⟨hsame, hnone | hset⟩ | ⟨d, hd', -, hinsert⟩
          · exact absurd hnone hdefault
          · rw [hsame]
            exact hset
          · rw [hinsert, getOrNull_of_get? (Assoc.get?_insert_self values a.name d)]
            rintro rfl
            exact hd.1 hd'
        rcases getOrNull_fillAll rest (a.fill values) a.name with hkept | ⟨hunset, -⟩
        · rw [hkept]
          exact hset
        · exact absurd hunset hset
      · exact ih hd.2 ha

end Fill

/-! ## Instances -/

section Instances

variable {f : Assoc Value → Assoc Value} {v w : Value}

/-- A function on maps; other values stay. -/
private def onMap (f : Assoc Value → Assoc Value) : Value → Value
  | .map entries => .map (f entries)
  | v => v

private theorem mapInstances_list (items : List Value) :
    (Value.list items).mapInstances f = .list (items.map (onMap f)) := by
  rw [mapInstances]
  rfl

private theorem mapInstances_set (items : List Value) :
    (Value.set items).mapInstances f = .set (items.map (onMap f)) := by
  rw [mapInstances]
  rfl

/-- Changing instances leaves the kind of a value as it is. -/
theorem kindName_mapInstances (f : Assoc Value → Assoc Value) (v : Value) :
    (v.mapInstances f).kindName = v.kindName := by
  cases v <;> rfl

/-- Only null becomes null when instances are changed. -/
theorem mapInstances_eq_null_iff : v.mapInstances f = .null ↔ v = .null := by
  cases v <;> simp [mapInstances]

/-- Changing instances makes nothing blank that was not. -/
theorem isBlank_mapInstances (f : Assoc Value → Assoc Value) (v : Value) :
    isBlank (v.mapInstances f) = isBlank v := by
  cases v with
  | list items => cases items <;> rfl
  | set items => cases items <;> rfl
  | _ => rfl

/-- A blank value has no instances to change. -/
theorem mapInstances_of_isBlank (f : Assoc Value → Assoc Value) (h : isBlank v = true) :
    v.mapInstances f = v := by
  rcases isBlank_iff.mp h with rfl | rfl | rfl <;> rfl

private theorem filterMap_onMap (items : List Value) :
    (items.map (onMap f)).filterMap asMap? = (items.filterMap asMap?).map f := by
  induction items with
  | nil => rfl
  | cons v rest ih =>
      cases v with
      | map entries =>
          show f entries :: (rest.map (onMap f)).filterMap asMap? =
            f entries :: (rest.filterMap asMap?).map f
          rw [ih]
      | _ => exact ih

/-- The rows of a table are changed one by one. -/
theorem rows_mapInstances (f : Assoc Value → Assoc Value) (v : Value) :
    (v.mapInstances f).rows = v.rows.map f := by
  cases v with
  | list items =>
      rw [mapInstances_list]
      exact filterMap_onMap items
  | set items =>
      rw [mapInstances_set]
      exact filterMap_onMap items
  | _ => rfl

/-- What two functions do to instances one after the other, they do at once. -/
theorem mapInstances_mapInstances (f g : Assoc Value → Assoc Value) (v : Value) :
    (v.mapInstances f).mapInstances g = v.mapInstances (g ∘ f) := by
  have hitem : onMap g ∘ onMap f = onMap (g ∘ f) := by
    funext item
    cases item <;> rfl
  cases v with
  | list items => rw [mapInstances_list, mapInstances_list, mapInstances_list, List.map_map, hitem]
  | set items => rw [mapInstances_set, mapInstances_set, mapInstances_set, List.map_map, hitem]
  | _ => rfl

private theorem instances_mapInstances (f : Assoc Value → Assoc Value) (v : Value) :
    (v.mapInstances f).instances = v.instances.map (onMap f) := by
  cases v with
  | list items => rw [mapInstances_list]; rfl
  | set items => rw [mapInstances_set]; rfl
  | _ => rfl

/-- Instances keep their places. -/
theorem getElem?_instances_mapInstances {i : Nat} {row : Assoc Value} :
    (v.mapInstances f).instances[i]? = some (.map row) ↔
      ∃ before, v.instances[i]? = some (.map before) ∧ row = f before := by
  rw [instances_mapInstances, List.getElem?_map, Option.map_eq_some_iff]
  constructor
  · rintro ⟨item, hitem, hmap⟩
    cases item with
    | map entries => exact ⟨entries, hitem, (Value.map.inj hmap).symm⟩
    | _ => exact nomatch hmap
  · rintro ⟨before, hbefore, rfl⟩
    exact ⟨.map before, hbefore, rfl⟩

/-- Instances afterwards come from instances before. -/
theorem mem_instances_mapInstances {row : Assoc Value}
    (h : .map row ∈ (v.mapInstances f).instances) :
    ∃ before, .map before ∈ v.instances ∧ row = f before := by
  obtain ⟨i, hi⟩ := List.mem_iff_getElem?.mp h
  obtain ⟨before, hbefore, heq⟩ := getElem?_instances_mapInstances.mp hi
  exact ⟨before, List.mem_of_getElem? hbefore, heq⟩

/-- What holds everywhere in a value holds everywhere in its instances. -/
theorem not_mem_instances_of_isBlank (h : isBlank v = true) (item : Value) :
    item ∉ v.instances := by
  rcases isBlank_iff.mp h with rfl | rfl | rfl <;> exact List.not_mem_nil

/-- What holds everywhere in a value holds everywhere in its instances. -/
theorem everywhere_instances {p : Value → Prop} (h : Everywhere p v) {row : Assoc Value}
    (hrow : .map row ∈ v.instances) : Everywhere p (.map row) := by
  cases v with
  | list items => exact (everywhere_list.mp h).2 _ hrow
  | set items => exact (everywhere_set.mp h).2 _ hrow
  | map entries => exact (List.mem_singleton.mp hrow) ▸ h
  | _ => exact nomatch hrow

/-- The instances of a plain value are plain. -/
theorem plain_instances (h : Plain v) {row : Assoc Value} (hrow : .map row ∈ v.instances) :
    Plain (.map row) :=
  ⟨everywhere_instances h.nanFree hrow, everywhere_instances h.unknownFree hrow,
    everywhere_instances h.ascending hrow⟩

/-- Every instance of a value equals one of an equal value. -/
theorem exists_equal_instance (hv : NaNFree v) (hw : NaNFree w) (h : v.equals w = true)
    {es : Assoc Value} (hes : .map es ∈ v.instances) :
    ∃ fs, .map fs ∈ w.instances ∧ sameEntries equals es fs = true := by
  have hfind : ∀ {xs ys : List Value}, Matching equals xs ys → .map es ∈ xs →
      ∃ fs, .map fs ∈ ys ∧ sameEntries equals es fs = true := by
    intro xs ys hm hmem
    obtain ⟨i, hi, heq⟩ := List.getElem_of_mem hmem
    have hi' : i < ys.length := by rw [← hm.length_eq]; exact hi
    have hpair : equals xs[i] ys[i] = true := hm.get hi hi'
    rw [heq] at hpair
    obtain ⟨fs, hfs, hs⟩ := equals_map_iff.mp hpair
    exact ⟨fs, hfs ▸ List.getElem_mem hi', hs⟩
  cases v with
  | list xs =>
      obtain ⟨ys, rfl, hm⟩ := equals_list_iff.mp h
      exact hfind hm hes
  | set xs =>
      obtain ⟨ys, rfl, hs⟩ := equals_set_iff.mp h
      obtain ⟨zs, hperm, hm⟩ := equals_congruence.exists_perm_of_sameMembers
          (everywhere_set.mp hv).2 (everywhere_set.mp hw).2 hs
      obtain ⟨fs, hfs, hsame⟩ := hfind hm hes
      exact ⟨fs, hperm.mem_iff.mp hfs, hsame⟩
  | map entries =>
      obtain ⟨fs, rfl, hs⟩ := equals_map_iff.mp h
      obtain rfl := Value.map.inj (List.mem_singleton.mp hes)
      exact ⟨fs, List.mem_singleton.mpr rfl, hs⟩
  | _ => exact nomatch hes

private theorem plain_onMap
    (hf : ∀ entries, Plain (.map entries) → Plain (.map (f entries))) (h : Plain v) :
    Plain (onMap f v) := by
  cases v with
  | map entries => exact hf entries h
  | _ => exact h

/-- A change of the instances keeps a value plain when it keeps every instance plain. -/
theorem plain_mapInstances
    (hf : ∀ entries, Plain (.map entries) → Plain (.map (f entries))) (h : Plain v) :
    Plain (v.mapInstances f) := by
  have hall : ∀ {items : List Value}, (∀ item ∈ items, Plain item) →
      ∀ item ∈ items.map (onMap f), Plain item := by
    intro items hitems item hitem
    obtain ⟨before, hbefore, rfl⟩ := List.mem_map.mp hitem
    exact plain_onMap hf (hitems before hbefore)
  cases v with
  | list items =>
      rw [mapInstances_list]
      exact plain_list_iff.mpr (hall (plain_list_iff.mp h))
  | set items =>
      rw [mapInstances_set]
      exact plain_set_iff.mpr (hall (plain_set_iff.mp h))
  | map entries => exact hf entries h
  | _ => exact h

private theorem matching_onMap {xs ys : List Value} (hm : Matching equals xs ys)
    (hf : ∀ es fs, .map es ∈ xs → .map fs ∈ ys → sameEntries equals es fs = true →
      sameEntries equals es (f fs) = true) :
    Matching equals xs (ys.map (onMap f)) := by
  induction hm with
  | nil => exact .nil
  | @cons x y xs ys hxy _ ih =>
      refine .cons ?_ (ih fun es fs hes hfs =>
        hf es fs (List.mem_cons_of_mem x hes) (List.mem_cons_of_mem y hfs))
      cases y with
      | map fs =>
          have hk := kindName_eq_of_equals hxy
          cases x with
          | map es =>
              obtain ⟨fs', hfs, hs⟩ := equals_map_iff.mp hxy
              obtain rfl := Value.map.inj hfs
              exact equals_map_iff.mpr
                ⟨f fs, rfl, hf es fs List.mem_cons_self List.mem_cons_self hs⟩
          | _ => simp [kindName] at hk
      | _ => exact hxy

/-- **A value that equals another one equals it also after its instances were changed**,
    as long as this keeps them equal. -/
theorem equals_mapInstances (hv : NaNFree v) (hw : NaNFree w)
    (hchanged : NaNFree (w.mapInstances f)) (h : v.equals w = true)
    (hf : ∀ es fs, .map es ∈ v.instances → .map fs ∈ w.instances →
      sameEntries equals es fs = true → sameEntries equals es (f fs) = true) :
    v.equals (w.mapInstances f) = true := by
  cases v with
  | list xs =>
      obtain ⟨ys, rfl, hm⟩ := equals_list_iff.mp h
      rw [mapInstances_list]
      exact equals_list_iff.mpr ⟨_, rfl, matching_onMap hm hf⟩
  | set xs =>
      obtain ⟨ys, rfl, hs⟩ := equals_set_iff.mp h
      have hxs := (everywhere_set.mp hv).2
      obtain ⟨zs, hperm, hm⟩ :=
        equals_congruence.exists_perm_of_sameMembers hxs (everywhere_set.mp hw).2 hs
      rw [mapInstances_set] at hchanged ⊢
      refine equals_set_iff.mpr ⟨_, rfl, ?_⟩
      rw [equals_congruence.sameMembers_iff hxs (everywhere_set.mp hchanged).2]
      -- a set is rearranged in the same way before and after
      refine ⟨zs.map (onMap f), hperm.map _, matching_onMap hm ?_⟩
      intro es fs hes hfs
      exact hf es fs hes (hperm.mem_iff.mp hfs)
  | map es =>
      obtain ⟨fs, rfl, hs⟩ := equals_map_iff.mp h
      exact equals_map_iff.mpr
        ⟨f fs, rfl, hf es fs (List.mem_singleton.mpr rfl) (List.mem_singleton.mpr rfl) hs⟩
  | _ => cases w <;> exact h

end Instances

/-! ## Nested blocks -/

section Nested

variable {blocks : List NestedBlock} {values : Assoc Value}

/-- Nested blocks are completed one after the other. -/
theorem applyNested_cons (n : NestedBlock) (rest : List NestedBlock)
    (values : Assoc Value) :
    Block.applyNestedDefaults (n :: rest) values = Block.applyNestedDefaults rest
      (match Assoc.get? values n.name with
        | some v => Assoc.insert values n.name (v.mapInstances n.block.applyDefaults)
        | none => values) := by
  obtain ⟨name, nesting, minItems, maxItems, block⟩ := n
  rw [Block.applyNestedDefaults]
  rfl

private theorem get?_applyNested_step (n : NestedBlock) (values : Assoc Value)
    (q : String) :
    Assoc.get? (match Assoc.get? values n.name with
        | some v => Assoc.insert values n.name (v.mapInstances n.block.applyDefaults)
        | none => values) q =
      if n.name = q
        then (Assoc.get? values q).map fun v => v.mapInstances n.block.applyDefaults
        else Assoc.get? values q := by
  cases hv : Assoc.get? values n.name with
  | none =>
      show Assoc.get? values q = _
      split
      · next hq =>
          subst hq
          rw [hv]
          rfl
      · rfl
  | some v =>
      show Assoc.get? (Assoc.insert values n.name _) q = _
      rw [Assoc.get?_insert]
      split
      · next hq =>
          subst hq
          rw [hv]
          rfl
      · rfl

/-- Nested blocks change nothing under other names. -/
theorem get?_applyNested_of_not_mem {q : String} (h : ∀ n ∈ blocks, n.name ≠ q) :
    Assoc.get? (Block.applyNestedDefaults blocks values) q = Assoc.get? values q := by
  induction blocks generalizing values with
  | nil => rw [Block.applyNestedDefaults]
  | cons n rest ih =>
      rw [List.forall_mem_cons] at h
      rw [applyNested_cons, ih h.2, get?_applyNested_step, if_neg h.1]

/-- **A nested block changes the instances under its own name.** -/
theorem get?_applyNested (hn : (blocks.map NestedBlock.name).Nodup) {n : NestedBlock}
    (hmem : n ∈ blocks) :
    Assoc.get? (Block.applyNestedDefaults blocks values) n.name =
      (Assoc.get? values n.name).map fun v => v.mapInstances n.block.applyDefaults := by
  induction blocks generalizing values with
  | nil => exact nomatch hmem
  | cons m rest ih =>
      rw [List.map_cons, List.nodup_cons] at hn
      rw [applyNested_cons]
      rcases List.mem_cons.mp hmem with rfl | hmem
      · rw [get?_applyNested_of_not_mem, get?_applyNested_step, if_pos rfl]
        rintro k hk hname
        exact hn.1 (hname ▸ List.mem_map_of_mem hk)
      · have hne : m.name ≠ n.name := fun hname => hn.1 (hname ▸ List.mem_map_of_mem hmem)
        rw [ih hn.2 hmem, get?_applyNested_step, if_neg hne]

/-- Nested blocks keep a map plain when they keep every instance plain. -/
theorem plain_applyNested
    (hblocks : ∀ n ∈ blocks, ∀ es, Plain (.map es) →
      Plain (.map (n.block.applyDefaults es)))
    (h : Plain (.map values)) : Plain (.map (Block.applyNestedDefaults blocks values)) := by
  induction blocks generalizing values with
  | nil =>
      rw [Block.applyNestedDefaults]
      exact h
  | cons n rest ih =>
      rw [List.forall_mem_cons] at hblocks
      rw [applyNested_cons]
      refine ih hblocks.2 ?_
      cases hv : Assoc.get? values n.name with
      | none => exact h
      | some v => exact h.insert (plain_mapInstances hblocks.1
          ((plain_map_iff.mp h).2 _ (Assoc.mem_of_get? hv))) n.name

/-- Each nested block completes its own instances. -/
theorem getOrNull_applyNested (hn : (blocks.map NestedBlock.name).Nodup) {n : NestedBlock}
    (hmem : n ∈ blocks) :
    getOrNull (Block.applyNestedDefaults blocks values) n.name =
      (getOrNull values n.name).mapInstances n.block.applyDefaults := by
  simp only [getOrNull]
  rw [get?_applyNested hn hmem]
  cases Assoc.get? values n.name <;> rfl

end Nested

/-! ## Induction -/

mutual

/-- What holds of a block when it holds of the blocks nested in it, holds of every
    block. -/
@[elab_as_elim]
theorem Block.induction {motive : Block → Prop}
    (mk : ∀ description deprecated attributes blocks, (∀ n ∈ blocks, motive n.block) →
      motive (.mk description deprecated attributes blocks)) : ∀ b : Block, motive b
  | .mk description deprecated attributes blocks =>
      mk description deprecated attributes blocks (nestedInduction mk blocks)

private theorem nestedInduction {motive : Block → Prop}
    (mk : ∀ description deprecated attributes blocks, (∀ n ∈ blocks, motive n.block) →
      motive (.mk description deprecated attributes blocks)) :
    ∀ blocks : List NestedBlock, ∀ n ∈ blocks, motive n.block
  | [], _, hn => nomatch hn
  | .mk _ _ _ _ block :: rest, n, hn => by
    rcases List.mem_cons.mp hn with rfl | hn
    · exact Block.induction mk block
    · exact nestedInduction mk rest n hn

end

end TrafficConfig
