import TrafficConfig.Catalog
import TrafficConfig.Proofs.Filling

/-!
# Nested blocks and their instances

A block and the blocks nested in it form a tree, and so do the instances that values hold:

* **`Block.levels`** — a block and all that are nested in it; **`Block.NamesDistinct`** says
  that no two attributes or blocks of one level have the same name, which is so in every
  schema of the catalog (**`Catalog.namesDistinct`**);
* **`Block.InstanceAt`** — the instances within values, at any depth, each at its path.
-/

namespace TrafficConfig

open Value

namespace Block

/-! ## Levels -/

mutual

/-- A block and all that are nested in it, at any depth. -/
def levels : Block → List Block
  | .mk description deprecated attributes blocks =>
    .mk description deprecated attributes blocks :: nestedLevels blocks

/-- The levels of nested blocks. -/
def nestedLevels : List NestedBlock → List Block
  | [] => []
  | .mk _ _ _ _ block :: rest => levels block ++ nestedLevels rest

end

/-- A block is one of its own levels. -/
theorem self_mem_levels (b : Block) : b ∈ b.levels := by
  obtain ⟨description, deprecated, attributes, blocks⟩ := b
  rw [levels]
  exact List.mem_cons_self

private theorem mem_nestedLevels {blocks : List NestedBlock} {n : NestedBlock} {c : Block}
    (hn : n ∈ blocks) (hc : c ∈ n.block.levels) : c ∈ nestedLevels blocks := by
  induction blocks with
  | nil => exact absurd hn List.not_mem_nil
  | cons m rest ih =>
      obtain ⟨name, nesting, minItems, maxItems, block⟩ := m
      rw [nestedLevels, List.mem_append]
      rcases List.mem_cons.mp hn with rfl | hn
      · exact .inl hc
      · exact .inr (ih hn)

/-- The levels of a nested block are levels of the block around it. -/
theorem mem_levels_of_nested {b c : Block} {n : NestedBlock} (hn : n ∈ b.blocks)
    (hc : c ∈ n.block.levels) : c ∈ b.levels := by
  obtain ⟨description, deprecated, attributes, blocks⟩ := b
  rw [levels]
  exact List.mem_cons_of_mem _ (mem_nestedLevels hn hc)

/-! ## Names -/

/-- The names of a block: those of its attributes, and those of the blocks nested in it. -/
def names (b : Block) : List String := b.attributes.map (·.name) ++ b.blocks.map (·.name)

/-- On every level each name stands for one attribute or one nested block. -/
def NamesDistinct (b : Block) : Prop := ∀ c ∈ b.levels, c.names.Nodup

instance (b : Block) : Decidable b.NamesDistinct :=
  inferInstanceAs (Decidable (∀ c ∈ b.levels, c.names.Nodup))

namespace NamesDistinct

variable {b : Block} (h : b.NamesDistinct)
include h

/-- Distinct names are inherited by nested blocks. -/
theorem nested {n : NestedBlock} (hn : n ∈ b.blocks) : n.block.NamesDistinct := by
  intro c hc
  exact h c (mem_levels_of_nested hn hc)

/-- The attributes of a block have distinct names. -/
theorem attributeNames : (b.attributes.map (·.name)).Nodup :=
  (List.nodup_append.mp (h b (self_mem_levels b))).1

/-- The nested blocks of a block have distinct names. -/
theorem blockNames : (b.blocks.map NestedBlock.name).Nodup :=
  (List.nodup_append.mp (h b (self_mem_levels b))).2.1

/-- An attribute does not have the name of a nested block. -/
theorem attribute_ne_block {a : Attribute} (ha : a ∈ b.attributes) {n : NestedBlock}
    (hn : n ∈ b.blocks) : a.name ≠ n.name :=
  (List.nodup_append.mp (h b (self_mem_levels b))).2.2 _ (List.mem_map_of_mem ha) _
    (List.mem_map_of_mem hn)

end NamesDistinct

/-! ## Instances -/

/-- The instances within the values of a block: the values themselves, at the empty path, and
    the instances within those of a nested block, behind its name and their place. -/
inductive InstanceAt : Block → Assoc Value → Path → Block → Assoc Value → Prop
  | root (b : Block) (values : Assoc Value) : InstanceAt b values [] b values
  | nested {b c : Block} {values row inner : Assoc Value} {n : NestedBlock} {i : Nat}
      {path : Path} (hn : n ∈ b.blocks)
      (hrow : (getOrNull values n.name).instances[i]? = some (.map row))
      (h : InstanceAt n.block row path c inner) :
      InstanceAt b values (.name n.name :: .index i :: path) c inner

/-- Distinct names are inherited by the block of every instance. -/
theorem NamesDistinct.at {b c : Block} {values inner : Assoc Value} {path : Path}
    (h : b.NamesDistinct) (hi : b.InstanceAt values path c inner) : c.NamesDistinct := by
  induction hi with
  | root b values => exact h
  | nested hn hrow _ ih => exact ih (h.nested hn)

end Block

/-- **Names are distinct in every schema of the catalog.** -/
theorem Catalog.namesDistinct : ∀ r ∈ resources, r.schema.block.NamesDistinct := by
  decide +kernel

end TrafficConfig
