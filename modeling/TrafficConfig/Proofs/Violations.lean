import TrafficConfig.Proofs.Nesting

/-!
# Violations

Every violation has its place, so none hides or shifts another:

* **`Block.violations_eq`** — the violations of an instance are those of its attributes, then
  those of the blocks nested in it, each of them by one value;
* **`Block.ReportsInPlace.reportsBelow`** — they lie below the path of the instance, behind
  the name of the attribute or block that they are about;
* **`Block.DifferAt`** — two configurations differ in one attribute of one instance only.
  The main result is **`Block.violations_independent`**: then they have the same violations
  elsewhere, and a required attribute that is not set is reported once, at its path.
-/

namespace TrafficConfig

open Value

/-! ## Violations by their origin -/

/-- A validator reports at the path that it is given. -/
def Validator.ReportsInPlace (check : Validator) : Prop :=
  ∀ path v, ∀ d ∈ check.validate path v, d.path = some path

/-- The validators of all attributes report at the paths that they are given, on every
    level. -/
def Block.ReportsInPlace (b : Block) : Prop :=
  ∀ c ∈ b.levels, ∀ a ∈ c.attributes, ∀ check ∈ a.validators, check.ReportsInPlace

/-- The violations of an element of a nested block at a path: those of an instance, since
    only an instance can have any. -/
def Block.itemViolations (b : Block) (path : Path) : Value × Nat → List Diagnostic
  | (.map entries, i) => b.violations (path.index i) entries
  | _ => []

/-- The violations of a nested block whose instances are those of a value. -/
def NestedBlock.violations (n : NestedBlock) (origin : Path) (v : Value) : List Diagnostic :=
  countViolations n.name n.minItems n.maxItems (origin.name n.name) v.instances.length ++
    v.instances.zipIdx.flatMap (n.block.itemViolations (origin.name n.name))

private theorem nestedViolations_eq (blocks : List NestedBlock) (origin : Path)
    (values : Assoc Value) : Block.nestedViolations blocks origin values =
      blocks.flatMap fun n => n.violations origin (getOrNull values n.name) := by
  induction blocks with
  | nil => rw [Block.nestedViolations]; rfl
  | cons n rest ih =>
      obtain ⟨name, nesting, minItems, maxItems, block⟩ := n
      rw [Block.nestedViolations, ih, List.flatMap_cons]
      rfl

/-- **The violations of an instance, name by name.** -/
theorem Block.violations_eq (b : Block) (origin : Path) (values : Assoc Value) :
    b.violations origin values =
      b.attributes.flatMap (fun a => a.validate origin values) ++
        b.blocks.flatMap fun n => n.violations origin (getOrNull values n.name) := by
  obtain ⟨description, deprecated, attributes, blocks⟩ := b
  rw [violations, nestedViolations_eq]
  rfl

/-- The violations of an attribute depend on its own value only. -/
theorem Attribute.validate_congr {a : Attribute} {values others : Assoc Value}
    (h : getOrNull values a.name = getOrNull others a.name) (origin : Path) :
    a.validate origin values = a.validate origin others := by
  rw [validate, validate, h]

namespace Block.ReportsInPlace

variable {b : Block} (h : b.ReportsInPlace)
include h

/-- Reports in place are inherited by nested blocks. -/
theorem nested {n : NestedBlock} (hn : n ∈ b.blocks) : n.block.ReportsInPlace := by
  intro c hc
  exact h c (mem_levels_of_nested hn hc)

/-- The violations of an attribute are at its path. -/
theorem path_of_mem_validate {a : Attribute} (ha : a ∈ b.attributes) {origin : Path}
    {values : Assoc Value} {d : Diagnostic} (hd : d ∈ a.validate origin values) :
    d.path = some (origin.name a.name) := by
  rw [Attribute.validate] at hd
  split at hd
  · split at hd
    · rw [List.mem_singleton.mp hd]
      rfl
    · exact nomatch hd
  · exact nomatch hd
  · split at hd
    · obtain ⟨check, hcheck, hd⟩ := List.mem_flatMap.mp hd
      exact h b (self_mem_levels b) a ha check hcheck _ _ d hd
    · rw [List.mem_singleton.mp hd]
      rfl

end Block.ReportsInPlace

private theorem path_of_mem_countViolations {name : String} {minItems maxItems : Int}
    {path : Path} {count : Nat} {d : Diagnostic}
    (hd : d ∈ NestedBlock.countViolations name minItems maxItems path count) :
    d.path = some path := by
  rw [NestedBlock.countViolations, List.mem_append] at hd
  rcases hd with hd | hd
  · split at hd
    · rw [List.mem_singleton.mp hd]
      rfl
    · exact nomatch hd
  · split at hd
    · rw [List.mem_singleton.mp hd]
      rfl
    · exact nomatch hd

/-- All violations of an instance lie below its path, behind a name of its block. -/
def Block.ReportsBelow (b : Block) : Prop :=
  ∀ {origin values d}, d ∈ b.violations origin values →
    ∃ q ∈ b.names, ∃ rest, d.path = some (origin ++ .name q :: rest)

namespace Block.ReportsBelow

variable {n : NestedBlock} (h : n.block.ReportsBelow) {d : Diagnostic}
include h

/-- The violations of an element lie below its place. -/
theorem of_item {path : Path} {item : Value} {i : Nat}
    (hd : d ∈ n.block.itemViolations path (item, i)) :
    ∃ rest, d.path = some (path ++ .index i :: rest) := by
  cases item with
  | map entries =>
      obtain ⟨q, -, rest, hpath⟩ := h hd
      refine ⟨.name q :: rest, ?_⟩
      rw [hpath, Path.index, List.append_assoc]
      rfl
  | _ => exact nomatch hd

/-- The violations of a nested block lie behind its name. -/
theorem of_nested {origin : Path} {v : Value} (hd : d ∈ n.violations origin v) :
    ∃ rest, d.path = some (origin ++ .name n.name :: rest) := by
  rcases List.mem_append.mp hd with hd | hd
  · exact ⟨[], path_of_mem_countViolations hd⟩
  · obtain ⟨⟨item, i⟩, -, hd⟩ := List.mem_flatMap.mp hd
    obtain ⟨rest, hpath⟩ := of_item h hd
    refine ⟨.index i :: rest, ?_⟩
    rw [hpath, Path.name, List.append_assoc]
    rfl

end Block.ReportsBelow

/-- **The violations of an instance lie below its path**, behind the name of an attribute or
    a nested block. -/
theorem Block.ReportsInPlace.reportsBelow {b : Block} (h : b.ReportsInPlace) :
    b.ReportsBelow := by
  induction b using Block.induction with
  | mk description deprecated attributes blocks ih =>
      intro origin values d hd
      rw [violations_eq, List.mem_append] at hd
      rcases hd with hd | hd
      · obtain ⟨a, ha, hd⟩ := List.mem_flatMap.mp hd
        exact ⟨a.name, List.mem_append_left _ (List.mem_map_of_mem ha), [],
          h.path_of_mem_validate ha hd⟩
      · obtain ⟨n, hn, hd⟩ := List.mem_flatMap.mp hd
        exact ⟨n.name, List.mem_append_right _ (List.mem_map_of_mem hn),
          ReportsBelow.of_nested (ih n hn (h.nested hn)) hd⟩

/-! ## Configurations that differ in one attribute -/

namespace Block

/-- Two configurations of a block differ at most in what stands under one name, which is not
    that of a nested block, in one instance: in the configurations themselves, or in an
    instance of a nested block that has the same place in both. -/
inductive DifferAt : Block → Path → Assoc Value → Assoc Value → Prop
  | here {b : Block} {values others : Assoc Value} {name : String}
      (hname : ∀ n ∈ b.blocks, n.name ≠ name)
      (h : ∀ q, q ≠ name → getOrNull values q = getOrNull others q) :
      DifferAt b [.name name] values others
  | nested {b : Block} {values others row other : Assoc Value} {n : NestedBlock} {i : Nat}
      {path : Path} (hn : n ∈ b.blocks)
      (h : ∀ q, q ≠ n.name → getOrNull values q = getOrNull others q)
      (hrow : (getOrNull values n.name).instances[i]? = some (.map row))
      (hother : (getOrNull others n.name).instances =
        (getOrNull values n.name).instances.set i (.map other))
      (hdiffer : DifferAt n.block path row other) :
      DifferAt b (.name n.name :: .index i :: path) values others

end Block

/-- The reports about other places than one. -/
def elsewhere (path : Path) (ds : List Diagnostic) : List Diagnostic :=
  ds.filter fun d => d.path ≠ some path

/-- The reports about one place. -/
def reportsAt (path : Path) (ds : List Diagnostic) : List Diagnostic :=
  ds.filter fun d => d.path = some path

section Reports

variable {path : Path} {ds es : List Diagnostic}

/-- What is reported at a path is reported by one part or the other. -/
theorem reportsAt_append : reportsAt path (ds ++ es) = reportsAt path ds ++ reportsAt path es :=
  List.filter_append ds es

theorem reportsAt_flatMap {α : Type} {l : List α} {f : α → List Diagnostic} :
    reportsAt path (l.flatMap f) = l.flatMap fun x => reportsAt path (f x) :=
  List.filter_flatMap

/-- Where no report has the path nothing is reported at it. -/
theorem reportsAt_eq_nil (h : ∀ d ∈ ds, d.path ≠ some path) : reportsAt path ds = [] := by
  rw [reportsAt, List.filter_eq_nil_iff]
  intro d hd
  simpa using h d hd

end Reports

section Lists

variable {α β : Type}

private theorem flatMap_zipIdx_congr {xs ys : List α} {f : α × Nat → List β}
    (hlength : xs.length = ys.length)
    (h : ∀ i (hx : i < xs.length) (hy : i < ys.length), f (xs[i], i) = f (ys[i], i)) :
    xs.zipIdx.flatMap f = ys.zipIdx.flatMap f := by
  have hmap : xs.zipIdx.map f = ys.zipIdx.map f := by
    refine List.ext_getElem (by simp [hlength]) ?_
    intro i hi hi'
    simp only [List.getElem_map, List.getElem_zipIdx, Nat.zero_add]
    exact h i (by simpa using hi) (by simpa using hi')
  rw [List.flatMap_def, hmap, List.flatMap_def]

private theorem flatMap_eq_of_key {κ : Type} {key : α → κ} {f : α → List β} {l : List α}
    (hn : (l.map key).Nodup) {x : α} (hx : x ∈ l) (h : ∀ y ∈ l, key y ≠ key x → f y = []) :
    l.flatMap f = f x := by
  induction l with
  | nil => exact nomatch hx
  | cons y rest ih =>
      rw [List.map_cons, List.nodup_cons] at hn
      rw [List.forall_mem_cons] at h
      rw [List.flatMap_cons]
      rcases List.mem_cons.mp hx with rfl | hx
      · have hrest : rest.flatMap f = [] := by
          rw [List.flatMap_eq_nil_iff]
          intro z hz
          exact h.2 z hz fun hkey => hn.1 (hkey ▸ List.mem_map_of_mem hz)
        rw [hrest, List.append_nil]
      · have hy : f y = [] := h.1 fun hkey => hn.1 (hkey ▸ List.mem_map_of_mem hx)
        rw [hy, ih hn.2 hx h.2, List.nil_append]

end Lists

namespace Block

variable {b c : Block} {origin path : Path} {values others row : Assoc Value}

/-- **What is violated elsewhere does not depend on one attribute.** -/
theorem DifferAt.elsewhere_eq (hd : b.DifferAt path values others)
    (hnames : b.NamesDistinct) (hplace : b.ReportsInPlace) (origin : Path) :
    elsewhere (origin ++ path) (b.violations origin values) =
      elsewhere (origin ++ path) (b.violations origin others) := by
  induction hd generalizing origin with
  | @here b values others name hname h =>
      simp only [elsewhere, violations_eq, List.filter_append, List.filter_flatMap]
      congr 1
      · refine List.flatMap_congr fun a ha => ?_
        by_cases hq : a.name = name
        · -- both sides report only at the path that is left out
          have hnone : ∀ entries, (a.validate origin entries).filter
              (fun d => d.path ≠ some (origin ++ [.name name])) = [] := by
            intro entries
            rw [List.filter_eq_nil_iff]
            intro d hd
            rw [hplace.path_of_mem_validate ha hd, hq]
            simp [Path.name]
          rw [hnone, hnone]
        · rw [Attribute.validate_congr (h a.name hq)]
      · refine List.flatMap_congr fun n hn => ?_
        rw [h n.name (hname n hn)]
  | @nested b values others row other n i path hn h hrow hother _ ih =>
      simp only [elsewhere, violations_eq, List.filter_append, List.filter_flatMap]
      congr 1
      · refine List.flatMap_congr fun a ha => ?_
        rw [Attribute.validate_congr (h a.name (hnames.attribute_ne_block ha hn))]
      · refine List.flatMap_congr fun m hm => ?_
        by_cases hq : m.name = n.name
        · obtain rfl := List.inj_on_of_nodup_map hnames.blockNames hm hn hq
          simp only [NestedBlock.violations, List.filter_append, List.filter_flatMap]
          rw [hother, List.length_set]
          congr 1
          refine flatMap_zipIdx_congr List.length_set.symm fun j hj hj' => ?_
          rw [List.getElem_set]
          split
          · next hij =>
              subst hij
              have hitem := List.getElem?_eq_some_iff.mp hrow
              obtain ⟨_, hitem⟩ := hitem
              rw [hitem]
              have hpath : origin ++ .name m.name :: .index i :: path =
                  ((origin.name m.name).index i) ++ path := by
                simp [Path.name, Path.index]
              rw [hpath]
              exact ih (hnames.nested hm) (hplace.nested hm) _
          · rfl
        · rw [h m.name hq]

/-- What is reported at the path of an attribute is what is wrong with it. -/
theorem reportsAt_attribute (hnames : b.NamesDistinct) (hplace : b.ReportsInPlace)
    {a : Attribute} (ha : a ∈ b.attributes) :
    reportsAt (origin.name a.name) (b.violations origin values) = a.validate origin values := by
  have hattributes : b.attributes.flatMap (fun a' =>
      reportsAt (origin.name a.name) (a'.validate origin values)) =
        a.validate origin values := by
    rw [flatMap_eq_of_key hnames.attributeNames ha]
    · refine List.filter_eq_self.mpr fun d hd => ?_
      simpa using hplace.path_of_mem_validate ha hd
    · intro a' ha' hne
      refine reportsAt_eq_nil fun d hd => ?_
      rw [hplace.path_of_mem_validate ha' hd]
      simpa [Path.name] using hne
  have hblocks : b.blocks.flatMap (fun n => reportsAt (origin.name a.name)
      (n.violations origin (getOrNull values n.name))) = [] := by
    rw [List.flatMap_eq_nil_iff]
    intro n hn
    refine reportsAt_eq_nil fun d hd => ?_
    obtain ⟨rest, hpath⟩ := ReportsBelow.of_nested (hplace.nested hn).reportsBelow hd
    have hne := hnames.attribute_ne_block ha hn
    simp [hpath, Path.name, Ne.symm hne]
  rw [violations_eq, reportsAt_append, reportsAt_flatMap, reportsAt_flatMap, hattributes,
    hblocks, List.append_nil]

/-- What is reported behind the name of a nested block is what is wrong with it. -/
theorem reportsAt_nested (hnames : b.NamesDistinct) (hplace : b.ReportsInPlace)
    {n : NestedBlock} (hn : n ∈ b.blocks) (rest : Path) :
    reportsAt (origin ++ .name n.name :: rest) (b.violations origin values) =
      reportsAt (origin ++ .name n.name :: rest)
        (n.violations origin (getOrNull values n.name)) := by
  have hattributes : b.attributes.flatMap (fun a =>
      reportsAt (origin ++ .name n.name :: rest) (a.validate origin values)) = [] := by
    rw [List.flatMap_eq_nil_iff]
    intro a ha
    refine reportsAt_eq_nil fun d hd => ?_
    have hne := hnames.attribute_ne_block ha hn
    simp [hplace.path_of_mem_validate ha hd, Path.name, hne]
  rw [violations_eq, reportsAt_append, reportsAt_flatMap, hattributes, List.nil_append,
    reportsAt_flatMap, flatMap_eq_of_key hnames.blockNames hn]
  intro m hm hne
  refine reportsAt_eq_nil fun d hd => ?_
  obtain ⟨rest', hpath⟩ := ReportsBelow.of_nested (hplace.nested hm).reportsBelow hd
  simp [hpath, hne]

/-- What is reported inside an instance of a nested block is what is wrong with it. -/
theorem reportsAt_instance {n : NestedBlock} (hbelow : n.block.ReportsBelow) {v : Value}
    {i : Nat} (hrow : v.instances[i]? = some (.map row)) (rest : Path) :
    reportsAt (origin ++ .name n.name :: .index i :: rest) (n.violations origin v) =
      reportsAt ((origin.name n.name).index i ++ rest)
        (n.block.violations ((origin.name n.name).index i) row) := by
  have hpath : origin ++ .name n.name :: .index i :: rest =
      (origin.name n.name).index i ++ rest := by
    simp [Path.name, Path.index]
  have hcount : reportsAt ((origin.name n.name).index i ++ rest)
      (NestedBlock.countViolations n.name n.minItems n.maxItems (origin.name n.name)
        v.instances.length) = [] := by
    refine reportsAt_eq_nil fun d hd => ?_
    simp [path_of_mem_countViolations hd, Path.index]
  have hplaces : (v.instances.zipIdx.map Prod.snd).Nodup := by
    rw [List.zipIdx_map_snd]
    exact List.nodup_range'
  rw [hpath, NestedBlock.violations, reportsAt_append, hcount, reportsAt_flatMap,
    List.nil_append,
    flatMap_eq_of_key hplaces (List.mk_mem_zipIdx_iff_getElem?.mpr hrow)]
  · rfl
  · intro item _ hne
    refine reportsAt_eq_nil fun d hd => ?_
    obtain ⟨rest', hitem⟩ := hbelow.of_item hd
    have hplace : (item.2 : Int) ≠ i := fun h => hne (Int.ofNat_inj.mp h)
    simp [hitem, Path.index, hplace]

/-- **A required attribute that is not set is reported once**, at its path. -/
theorem InstanceAt.reportsAt_eq {a : Attribute} (hi : b.InstanceAt values path c row)
    (hnames : b.NamesDistinct) (hplace : b.ReportsInPlace) (ha : a ∈ c.attributes)
    (hrequired : a.required = true) (hnull : getOrNull row a.name = .null) (origin : Path) :
    reportsAt (origin ++ path.name a.name) (b.violations origin values) =
      [missing a.name (origin ++ path.name a.name)] := by
  induction hi generalizing origin with
  | root b values =>
      show reportsAt (origin.name a.name) _ = [missing a.name (origin.name a.name)]
      rw [reportsAt_attribute hnames hplace ha, Attribute.validate, hnull]
      exact if_pos hrequired
  | @nested b c values row inner n i path hn hrow _ ih =>
      have hinner := ih (hnames.nested hn) (hplace.nested hn) ha hnull
        ((origin.name n.name).index i)
      show reportsAt (origin ++ .name n.name :: .index i :: path.name a.name) _ = _
      rw [reportsAt_nested hnames hplace hn,
        reportsAt_instance (hplace.nested hn).reportsBelow hrow, hinner]
      simp [Path.name, Path.index]

/-- **Violations are independent of each other.** Configurations that differ in one attribute
    of one instance have the same violations at all other places, in the same order, and a
    required attribute that is not set brings one report at its place, whatever else there
    is. -/
theorem violations_independent {b : Block} (hnames : b.NamesDistinct)
    (hplace : b.ReportsInPlace) :
    (∀ (config other : Value) (path : Path), b.DifferAt path config.root other.root →
      elsewhere path (b.validate config) = elsewhere path (b.validate other)) ∧
    (∀ (config : Value) (path : Path) (c : Block) (row : Assoc Value),
      b.InstanceAt config.root path c row → ∀ a ∈ c.attributes, a.required = true →
        getOrNull row a.name = .null →
        reportsAt (path.name a.name) (b.validate config) =
          [missing a.name (path.name a.name)]) := by
  constructor
  · intro config other path hdiffer
    exact hdiffer.elsewhere_eq hnames hplace []
  · intro config path c row hi a ha hrequired hnull
    exact hi.reportsAt_eq hnames hplace ha hrequired hnull []

end Block

/-! ## Validators -/

namespace Validator

private theorem path_of_mem_unless {path : Path} {d : Diagnostic} {c : Prop} [Decidable c]
    {summary detail : String} (hd : d ∈ if c then [] else report path summary detail) :
    d.path = some path := by
  by_cases h : c
  · rw [if_pos h] at hd
    exact nomatch hd
  · rw [if_neg h] at hd
    rw [List.mem_singleton.mp hd]
    rfl

/-- A choice of texts is reported in place. -/
theorem reportsInPlace_oneOf (allowed : List String) (message : Option String) :
    (oneOf allowed message).ReportsInPlace := by
  intro path v d hd
  cases v with
  | string s =>
      have hunless : d ∈ if allowed.contains s then [] else report path _ _ := hd
      exact path_of_mem_unless hunless
  | _ => exact nomatch hd

/-- Bounds of a whole number are reported in place. -/
theorem reportsInPlace_wholeWithin (least most : Int) (message : Option String) :
    (wholeWithin least most message).ReportsInPlace := by
  intro path v d hd
  cases v with
  | number x =>
      have hunless : d ∈ if inRange least most x then [] else report path _ _ := hd
      exact path_of_mem_unless hunless
  | _ => exact nomatch hd

end Validator

/-! ## Locations of a service -/

section Services

open Catalog

/-- A service without a name, whose settings of a location have a weight but no location. -/
private def unnamed (weight : Value) : Value :=
  .map [("location_settings", .set [.map [("weight", weight)]]), ("ttl", .bool true)]

private theorem reportsInPlace_service :
    LoadBalancing.schema.block.ReportsInPlace := by
  have hall : ∀ check ∈ (LoadBalancing.schema.block.levels.flatMap
      Block.attributes).flatMap (·.validators), check.ReportsInPlace := by
    show ∀ check ∈ [Validator.oneOf _ _, .wholeWithin _ _ _, .wholeWithin _ _ _], _
    simp [Validator.reportsInPlace_oneOf, Validator.reportsInPlace_wholeWithin]
  intro c hc a ha check hcheck
  exact hall check (List.mem_flatMap.mpr ⟨a, List.mem_flatMap.mpr ⟨c, hc, ha⟩, hcheck⟩)

/-- The weight of a location decides nothing about the other reports, and the missing
    location is reported in its place. -/
theorem violations_of_unnamed :
    elsewhere [.name "location_settings", .index 0, .name "weight"]
        (LoadBalancing.schema.block.validate (unnamed (.string "heavy"))) =
      elsewhere [.name "location_settings", .index 0, .name "weight"]
        (LoadBalancing.schema.block.validate (unnamed .null)) ∧
      reportsAt [.name "location_settings", .index 0, .name "location"]
          (LoadBalancing.schema.block.validate (unnamed (.string "heavy"))) =
        [missing "location" [.name "location_settings", .index 0, .name "location"]] := by
  have hnames : LoadBalancing.schema.block.NamesDistinct :=
    namesDistinct loadBalancing (by simp [resources])
  obtain ⟨helsewhere, hrequired⟩ :=
    Block.violations_independent hnames reportsInPlace_service
  let settings : NestedBlock := LoadBalancing.schema.block.blocks.get ⟨0, by decide⟩
  have hsettings : settings ∈ LoadBalancing.schema.block.blocks := List.get_mem _ _
  constructor
  · refine helsewhere _ _ _ ?_
    refine .nested (n := settings) (i := 0) hsettings ?_
      rfl rfl (.here (fun n hn => nomatch hn) ?_)
    · intro q hq
      show getOrNull [("location_settings", _), ("ttl", _)] q =
        getOrNull [("location_settings", _), ("ttl", _)] q
      have hne : "location_settings" ≠ q := Ne.symm hq
      simp only [getOrNull, Assoc.get?_cons, if_neg hne]
    · intro q hq
      have hne : "weight" ≠ q := Ne.symm hq
      show getOrNull [("weight", .string "heavy")] q = getOrNull [("weight", .null)] q
      simp only [getOrNull, Assoc.get?_cons, if_neg hne, Assoc.get?_nil]
  · exact hrequired (unnamed (.string "heavy")) [.name "location_settings", .index 0]
      settings.block [("weight", .string "heavy")]
      (.nested (n := settings) (i := 0) hsettings rfl (.root _ _))
      (settings.block.attributes.get ⟨0, by decide⟩) (List.get_mem _ _) rfl rfl

end Services

end TrafficConfig
