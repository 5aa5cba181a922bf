import TrafficConfig.Proofs.Nesting

/-!
# Completed values

What the defaults of a block make of values, on all levels at once:

* **`Block.applyDefaults_eq_updateAll`** — each name of the block is updated once;
* **`Block.applyDefaults_applyDefaults`** — the second time nothing is left to be filled in;
* **`Block.instanceAt_applyDefaults`** — every instance is filled in, in its place, and
  there are no others;
* **`Block.Completed`** — what may happen to the values of one instance. The main result
  is **`Block.defaults_complete_values`**: this is what happens, at every depth.
-/

namespace TrafficConfig

open Value

/-! ## What may happen to values -/

/-- A value without what is inside its instances: of a block, its kind, how many instances
    there are, and everything in between that is no instance. -/
def Value.outline (v : Value) : Value := v.mapInstances fun _ => []

/-- Changing instances leaves the outline of a value as it is. -/
theorem Value.outline_mapInstances (f : Assoc Value → Assoc Value) (v : Value) :
    (v.mapInstances f).outline = v.outline :=
  mapInstances_mapInstances f (fun _ => []) v

/-- How the defaults of a block may change the values of an instance. -/
structure Block.Completed (b : Block) (before after : Assoc Value) : Prop where
  /-- What has a default is set. -/
  set : ∀ a ∈ b.attributes, ∀ d ∈ a.default, d ≠ .null → getOrNull after a.name ≠ .null
  /-- What was not set has its default. -/
  filled : ∀ a ∈ b.attributes, ∀ d ∈ a.default, getOrNull before a.name = .null →
    Assoc.get? after a.name = some d
  /-- What was set, be it to an unknown value, or has no default, is kept as it was. -/
  kept : ∀ q, (∀ n ∈ b.blocks, n.name ≠ q) →
    (∀ a ∈ b.attributes, a.name = q → a.default = none ∨ getOrNull before q ≠ .null) →
    Assoc.get? after q = Assoc.get? before q
  /-- Nested blocks are kept up to what is inside their instances. -/
  outlines : ∀ n ∈ b.blocks,
    (Assoc.get? after n.name).map outline = (Assoc.get? before n.name).map outline
  /-- No names are added but those with a default. -/
  names : ∀ q ∈ Assoc.keys after, q ∈ Assoc.keys before ∨
    ∃ a ∈ b.attributes, a.name = q ∧ a.default ≠ none

/-! ## Updates -/

/-- The default of an attribute, if the value is not set. -/
def Attribute.offer (a : Attribute) (v? : Option Value) : Option Value :=
  if (v?.getD .null).isNull then a.default else none

/-- An attribute offers its default where nothing is set, and nothing otherwise. -/
theorem Attribute.offer_cases (a : Attribute) (v? : Option Value) :
    (v?.getD .null = .null ∧ a.offer v? = a.default) ∨
      (v?.getD .null ≠ .null ∧ a.offer v? = none) := by
  rw [offer]
  cases hv : v?.getD .null with
  | null => exact .inl ⟨rfl, rfl⟩
  | _ => exact .inr ⟨fun hn => (nomatch hn), rfl⟩

private theorem fill_eq_update (a : Attribute) (values : Assoc Value) :
    a.fill values = Assoc.update values a.name a.offer := by
  rw [Assoc.update]
  rcases a.offer_cases (Assoc.get? values a.name) with ⟨hnull, hoffer⟩ | ⟨hset, hoffer⟩
  · rw [hoffer, Attribute.fill, show getOrNull values a.name = .null from hnull]
    cases a.default <;> rfl
  · rw [hoffer]
    rcases fill_cases a values with ⟨hsame, -⟩ | ⟨-, -, hnull, -⟩
    · exact hsame
    · exact absurd hnull hset

private theorem fillAll_eq_updateAll (attributes : List Attribute) (values : Assoc Value) :
    fillAll attributes values =
      Assoc.updateAll values (attributes.map fun a => (a.name, a.offer)) := by
  induction attributes generalizing values with
  | nil => rfl
  | cons a rest ih =>
      show fillAll rest (a.fill values) = _
      rw [ih, fill_eq_update]
      rfl

private theorem applyNested_eq_updateAll (blocks : List NestedBlock)
    (values : Assoc Value) :
    Block.applyNestedDefaults blocks values = Assoc.updateAll values
      (blocks.map fun n => (n.name, Option.map (mapInstances n.block.applyDefaults))) := by
  induction blocks generalizing values with
  | nil => rw [Block.applyNestedDefaults]; rfl
  | cons n rest ih =>
      rw [applyNested_cons, ih]
      show Assoc.updateAll _ _ = Assoc.updateAll (Assoc.update values n.name _) _
      rw [Assoc.update]
      cases Assoc.get? values n.name <;> rfl

namespace Block

/-- What the defaults of a block do under each of its names. -/
def updates (b : Block) : List (String × (Option Value → Option Value)) :=
  b.attributes.map (fun a => (a.name, a.offer)) ++
    b.blocks.map fun n => (n.name, Option.map (mapInstances n.block.applyDefaults))

/-- **Each name of a block is updated once.** -/
theorem applyDefaults_eq_updateAll (b : Block) (values : Assoc Value) :
    b.applyDefaults values = Assoc.updateAll values b.updates := by
  obtain ⟨description, deprecated, attributes, blocks⟩ := b
  rw [applyDefaults_eq, applyNested_eq_updateAll, fillAll_eq_updateAll]
  exact List.foldl_append.symm

/-- A block updates the values under its own names. -/
theorem map_fst_updates (b : Block) : b.updates.map Prod.fst = b.names := by
  rw [updates, List.map_append, List.map_map, List.map_map]
  rfl

section Names

variable {b : Block} (h : b.NamesDistinct) (values : Assoc Value)
include h

private theorem nodup_updates : (b.updates.map Prod.fst).Nodup := by
  rw [map_fst_updates]
  exact h b (self_mem_levels b)

/-- Under the name of an attribute stands what was set, or the default. -/
theorem get?_applyDefaults_attribute {a : Attribute} (ha : a ∈ b.attributes) :
    Assoc.get? (b.applyDefaults values) a.name =
      (a.offer (Assoc.get? values a.name)).or (Assoc.get? values a.name) := by
  rw [applyDefaults_eq_updateAll]
  refine Assoc.get?_updateAll (nodup_updates h) (List.mem_append_left _ ?_) values
  exact List.mem_map.mpr ⟨a, ha, rfl⟩

/-- Under the name of a nested block stands what was there, with its instances filled in. -/
theorem get?_applyDefaults_nested {n : NestedBlock} (hn : n ∈ b.blocks) :
    Assoc.get? (b.applyDefaults values) n.name =
      (Assoc.get? values n.name).map (mapInstances n.block.applyDefaults) := by
  have hget := Assoc.get?_updateAll (nodup_updates h)
    (List.mem_append_right _ (List.mem_map.mpr ⟨n, hn, rfl⟩)) values
  rw [applyDefaults_eq_updateAll, hget]
  cases Assoc.get? values n.name <;> rfl

/-- Defaults complete the instances of a nested block where the block stands. -/
theorem getOrNull_applyDefaults_nested {n : NestedBlock} (hn : n ∈ b.blocks) :
    getOrNull (b.applyDefaults values) n.name =
      (getOrNull values n.name).mapInstances n.block.applyDefaults := by
  rw [getOrNull, get?_applyDefaults_nested h values hn, getOrNull]
  cases Assoc.get? values n.name <;> rfl

omit h in
/-- Under other names nothing changes. -/
theorem get?_applyDefaults_of_not_mem {q : String} (hq : q ∉ b.names) :
    Assoc.get? (b.applyDefaults values) q = Assoc.get? values q := by
  rw [applyDefaults_eq_updateAll, Assoc.get?_updateAll_of_not_mem]
  rwa [map_fst_updates]

end Names

/-! ## Filling in again -/

/-- A second offer of the default changes nothing. -/
theorem settles_offer (a : Attribute) : Assoc.Settles a.offer := by
  intro v? d hd y hy
  rcases a.offer_cases v? with ⟨-, hoffer⟩ | ⟨-, hoffer⟩
  · rw [hoffer] at hd
    rcases a.offer_cases (some d) with ⟨-, hagain⟩ | ⟨-, hagain⟩
    · rw [hagain, hd] at hy
      exact (Option.some.inj hy).symm
    · rw [hagain] at hy
      exact nomatch hy
  · rw [hoffer] at hd
    exact nomatch hd

/-- A change of instances settles if it settles in each of them. -/
theorem settles_mapInstances {f : Assoc Value → Assoc Value} (h : ∀ es, f (f es) = f es) :
    Assoc.Settles (Option.map (mapInstances f)) := by
  intro v? w hw u hu
  obtain ⟨v, -, rfl⟩ := Option.map_eq_some_iff.mp hw
  obtain ⟨w, hw, rfl⟩ := Option.map_eq_some_iff.mp hu
  obtain rfl := Option.some.inj hw
  rw [mapInstances_mapInstances]
  congr 1
  exact funext h

/-- **Filling in defaults twice is the same as doing it once.** -/
theorem applyDefaults_applyDefaults {b : Block} (h : b.NamesDistinct) (values : Assoc Value) :
    b.applyDefaults (b.applyDefaults values) = b.applyDefaults values := by
  induction b using Block.induction generalizing values with
  | mk description deprecated attributes blocks ih =>
      rw [applyDefaults_eq_updateAll, applyDefaults_eq_updateAll]
      refine Assoc.updateAll_updateAll (nodup_updates h) ?_ values
      intro u hu
      rcases List.mem_append.mp hu with hu | hu
      · obtain ⟨a, -, rfl⟩ := List.mem_map.mp hu
        exact settles_offer a
      · obtain ⟨n, hn, rfl⟩ := List.mem_map.mp hu
        exact settles_mapInstances fun es => ih n hn (h.nested hn) es

/-! ## Every instance -/

/-- **The instances afterwards are those before, each filled in, in its place.** -/
theorem instanceAt_applyDefaults {b c : Block} (h : b.NamesDistinct) {values after : Assoc Value}
    {path : Path} : b.InstanceAt (b.applyDefaults values) path c after ↔
      ∃ before, b.InstanceAt values path c before ∧ after = c.applyDefaults before := by
  constructor
  · intro hi
    generalize hfilled : b.applyDefaults values = filled at hi
    induction hi generalizing values with
    | root b filled => exact ⟨values, .root b values, hfilled.symm⟩
    | nested hn hrow _ ih =>
        subst hfilled
        rw [getOrNull_applyDefaults_nested h values hn] at hrow
        obtain ⟨row, hbefore, rfl⟩ := getElem?_instances_mapInstances.mp hrow
        obtain ⟨before, hinner, heq⟩ := ih (h.nested hn) rfl
        exact ⟨before, .nested hn hbefore hinner, heq⟩
  · rintro ⟨before, hi, rfl⟩
    induction hi with
    | root b values => exact .root b _
    | @nested b c values row inner n i path hn hrow _ ih =>
        refine .nested hn ?_ (ih (h.nested hn))
        rw [getOrNull_applyDefaults_nested h values hn]
        exact getElem?_instances_mapInstances.mpr ⟨row, hrow, rfl⟩

/-- **What defaults do to the values of one instance.** -/
theorem completed_applyDefaults {b : Block} (h : b.NamesDistinct) (values : Assoc Value) :
    b.Completed values (b.applyDefaults values) where
  set := by
    intro a ha d hd hne
    rw [getOrNull, get?_applyDefaults_attribute h values ha]
    rcases a.offer_cases (Assoc.get? values a.name) with ⟨-, hoffer⟩ | ⟨hset, hoffer⟩
    · rw [hoffer, Option.mem_def.mp hd]
      exact hne
    · rw [hoffer]
      exact hset
  filled := by
    intro a ha d hd hnull
    rw [get?_applyDefaults_attribute h values ha]
    rcases a.offer_cases (Assoc.get? values a.name) with ⟨-, hoffer⟩ | ⟨hset, -⟩
    · rw [hoffer, Option.mem_def.mp hd]
      rfl
    · exact absurd hnull hset
  kept := by
    intro q hblocks hattributes
    by_cases hq : ∃ a ∈ b.attributes, a.name = q
    · obtain ⟨a, ha, rfl⟩ := hq
      rw [get?_applyDefaults_attribute h values ha]
      have hnone : a.offer (Assoc.get? values a.name) = none := by
        rcases a.offer_cases (Assoc.get? values a.name) with ⟨hnull, hoffer⟩ | ⟨-, hoffer⟩
        · rcases hattributes a ha rfl with hnone | hset
          · rw [hoffer, hnone]
          · exact absurd hnull hset
        · exact hoffer
      rw [hnone, Option.none_or]
    · refine get?_applyDefaults_of_not_mem values ?_
      intro hmem
      rcases List.mem_append.mp hmem with hmem | hmem
      · exact hq (List.mem_map.mp hmem)
      · obtain ⟨n, hn, hname⟩ := List.mem_map.mp hmem
        exact hblocks n hn hname
  outlines := by
    intro n hn
    rw [get?_applyDefaults_nested h values hn, Option.map_map]
    congr 1
    exact funext (outline_mapInstances _)
  names := by
    intro q hq
    rw [← Assoc.get?_isSome] at hq ⊢
    by_cases hmem : q ∈ b.names
    · rcases List.mem_append.mp hmem with hmem | hmem
      · obtain ⟨a, ha, rfl⟩ := List.mem_map.mp hmem
        rw [get?_applyDefaults_attribute h values ha] at hq
        by_cases hd : a.default = none
        · left
          rcases a.offer_cases (Assoc.get? values a.name) with ⟨-, hoffer⟩ | ⟨-, hoffer⟩
          · rwa [hoffer, hd] at hq
          · rwa [hoffer] at hq
        · exact .inr ⟨a, ha, rfl, hd⟩
      · obtain ⟨n, hn, rfl⟩ := List.mem_map.mp hmem
        rw [get?_applyDefaults_nested h values hn, Option.isSome_map] at hq
        exact .inl hq
    · rw [get?_applyDefaults_of_not_mem values hmem] at hq
      exact .inl hq

/-- **Defaults complete values on all levels.** Nothing is left for a second time. The
    instances afterwards are those before, at the same paths, and what happens to the values
    of each is that unset attributes get their defaults. -/
theorem defaults_complete_values {b : Block} (h : b.NamesDistinct) (values : Assoc Value) :
    b.applyDefaults (b.applyDefaults values) = b.applyDefaults values ∧
      (∀ path c before, b.InstanceAt values path c before →
        ∃ after, b.InstanceAt (b.applyDefaults values) path c after ∧
          c.Completed before after) ∧
      (∀ path c after, b.InstanceAt (b.applyDefaults values) path c after →
        ∃ before, b.InstanceAt values path c before ∧ c.Completed before after) := by
  refine ⟨applyDefaults_applyDefaults h values, ?_, ?_⟩
  · intro path c before hi
    exact ⟨c.applyDefaults before, (instanceAt_applyDefaults h).mpr ⟨before, hi, rfl⟩,
      completed_applyDefaults (h.at hi) before⟩
  · intro path c after hi
    obtain ⟨before, hbefore, rfl⟩ := (instanceAt_applyDefaults h).mp hi
    exact ⟨before, hbefore, completed_applyDefaults (h.at hbefore) before⟩

end Block

/-! ## Interfaces of an appliance -/

section Interfaces

open Catalog Catalog.TrafficManager

/-- The network interfaces of an appliance. -/
private def interfaces : NestedBlock := applianceBlock.block.blocks.get ⟨1, by decide⟩

/-- An interface whose speed is not set and whose transmission unit is not known yet. -/
private def pending : Assoc Value :=
  [("mtu", .unknown), ("name", .string "eth0"), ("speed", .null)]

private def appliance : Assoc Value :=
  [("appliance", .list [.map [("if", .list [.map pending])]])]

/-- An interface two levels below the root gets its speed by default, and keeps the unit that
    is not known. -/
theorem interface_completed :
    TrafficManager.schema.block.NamesDistinct ∧
      ∃ after, TrafficManager.schema.block.InstanceAt
        (TrafficManager.schema.block.applyDefaults appliance)
        [.name "appliance", .index 0, .name "if", .index 0] interfaces.block after ∧
      Assoc.get? after "speed" = some (.string "1000") ∧
      Assoc.get? after "mtu" = some .unknown := by
  have hnames : TrafficManager.schema.block.NamesDistinct :=
    namesDistinct trafficManager (by simp [resources])
  refine ⟨hnames, ?_⟩
  have hbefore : TrafficManager.schema.block.InstanceAt appliance
      [.name "appliance", .index 0, .name "if", .index 0] interfaces.block pending :=
    .nested (n := applianceBlock) (i := 0) (List.mem_append_right _ List.mem_cons_self) rfl
      (.nested (n := interfaces) (i := 0) (List.get_mem _ _) rfl (.root _ _))
  obtain ⟨after, hafter, hcompleted⟩ :=
    (Block.defaults_complete_values hnames appliance).2.1 _ _ _ hbefore
  refine ⟨after, hafter, ?_, ?_⟩
  · exact hcompleted.filled (interfaces.block.attributes.get ⟨6, by decide⟩)
      (List.get_mem _ _) _ rfl rfl
  · refine hcompleted.kept "mtu" (fun n hn => nomatch hn) fun a _ _ => .inr ?_
    intro hnull
    exact nomatch hnull

end Interfaces

end TrafficConfig
