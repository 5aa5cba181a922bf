import TrafficConfig.Value

/-!
# Change sets

The paths at which two states differ. A path is a dotted name: `port` is a top-level attribute,
`ssl.ocsp_enable` a field of a single-instance block:

* **`ChangeSet`** is a set of strings in ascending order; `mark` puts in a path and everything
  above it;
* **`hasChange`** asks whether a path or anything beneath it changed. It looks the path up, and
  then only at the first element not below the path with a point behind it;
* **`between`** compares two root objects. Inside a block it goes on field by field, also when one
  side has no block.
-/

namespace TrafficConfig

/-- A set of paths. -/
structure ChangeSet where
  /-- The elements, in ascending order. -/
  paths : List String
  ascending : paths.Pairwise (· < ·)

namespace ChangeSet

/-- No path. -/
def empty : ChangeSet := ⟨[], List.Pairwise.nil⟩

def isEmpty (set : ChangeSet) : Bool := set.paths.isEmpty

def size (set : ChangeSet) : Nat := set.paths.length

instance : Membership String ChangeSet := ⟨fun set path => path ∈ set.paths⟩

/-! ## Ascending lists of strings -/

/-- Put a string at its place in an ascending list, unless it is there already. -/
def place (s : String) : List String → List String
  | [] => [s]
  | t :: rest => if s < t then s :: t :: rest else if s = t then t :: rest else t :: place s rest

/-- Putting a path into its place adds this path and nothing else. -/
theorem mem_place {s t : String} : ∀ {paths : List String}, t ∈ place s paths ↔ t = s ∨ t ∈ paths
  | [] => by simp [place]
  | u :: rest => by
    simp only [place]
    split
    · simp
    · split
      · next h => subst h; simp
      · simp [show t ∈ place s rest ↔ t = s ∨ t ∈ rest from mem_place, or_left_comm]

/-- Paths stay in order when one is put into its place. -/
theorem ascending_place (s : String) :
    ∀ {paths : List String}, paths.Pairwise (· < ·) → (place s paths).Pairwise (· < ·)
  | [], _ => by simp [place]
  | t :: rest, h => by
    have hc := List.pairwise_cons.mp h
    simp only [place]
    split
    · next hs =>
      refine List.pairwise_cons.mpr ⟨fun u hu => ?_, h⟩
      rcases List.mem_cons.mp hu with rfl | hu
      · exact hs
      · exact String.lt_trans hs (hc.1 u hu)
    · split
      · exact h
      · next h1 h2 =>
        refine List.pairwise_cons.mpr ⟨fun u hu => ?_, ascending_place s hc.2⟩
        rcases mem_place.mp hu with rfl | hu
        · grind
        · exact hc.1 u hu

/-- The set with one more element. -/
def insert (set : ChangeSet) (path : String) : ChangeSet :=
  ⟨place path set.paths, ascending_place path set.ascending⟩

/-- A set that a path is put into holds this path and what it held. -/
theorem mem_insert {set : ChangeSet} {path q : String} :
    q ∈ set.insert path ↔ q = path ∨ q ∈ set := mem_place

/-! ## Marking -/

/-- The parts of a path that end before a point, and the path itself, shortest first. -/
def stems : List Char → List (List Char)
  | [] => [[]]
  | c :: rest =>
    if c = '.' then [] :: (stems rest).map (c :: ·) else (stems rest).map (c :: ·)

/-- A string is a stem of a path when it is the path or the path goes on behind it with a point. -/
theorem mem_stems {p : List Char} :
    ∀ {path : List Char}, p ∈ stems path ↔ path = p ∨ ∃ rest, path = p ++ '.' :: rest
  | [] => by
    simp only [stems, List.mem_singleton]
    exact ⟨fun h => .inl h.symm, fun h => by
      rcases h with h | ⟨rest, h⟩
      · exact h.symm
      · exact absurd h (by simp)⟩
  | c :: rest => by
    have ih (q : List Char) : q ∈ stems rest ↔ rest = q ∨ ∃ r, rest = q ++ '.' :: r := mem_stems
    have hmap : p ∈ (stems rest).map (c :: ·) ↔
        ∃ q, p = c :: q ∧ (rest = q ∨ ∃ r, rest = q ++ '.' :: r) := by
      rw [List.mem_map]
      exact ⟨fun ⟨q, hq, h⟩ => ⟨q, h.symm, (ih q).mp hq⟩,
        fun ⟨q, h, hq⟩ => ⟨q, (ih q).mpr hq, h.symm⟩⟩
    have hlong : (∃ q, p = c :: q ∧ (rest = q ∨ ∃ r, rest = q ++ '.' :: r)) ↔
        p ≠ [] ∧ (c :: rest = p ∨ ∃ r, c :: rest = p ++ '.' :: r) := by
      constructor
      · rintro ⟨q, rfl, h⟩
        refine ⟨by simp, ?_⟩
        rcases h with rfl | ⟨r, rfl⟩
        · exact .inl rfl
        · exact .inr ⟨r, rfl⟩
      · rintro ⟨hne, h⟩
        cases p with
        | nil => exact absurd rfl hne
        | cons d q =>
          rcases h with h | ⟨r, h⟩
          · injection h with h1 h2
            exact ⟨q, by rw [h1], .inl h2⟩
          · injection h with h1 h2
            exact ⟨q, by rw [h1], .inr ⟨r, h2⟩⟩
    simp only [stems]
    by_cases hc : c = '.'
    · rw [if_pos hc, List.mem_cons, hmap, hlong]
      constructor
      · rintro (rfl | h)
        · exact .inr ⟨rest, by rw [hc]; rfl⟩
        · exact h.2
      · intro h
        by_cases hp : p = []
        · exact .inl hp
        · exact .inr ⟨hp, h⟩
    · rw [if_neg hc, hmap, hlong]
      refine ⟨fun h => h.2, fun h => ⟨?_, h⟩⟩
      rintro rfl
      rcases h with h | ⟨r, h⟩
      · exact absurd h (by simp)
      · injection h with h1 _
        exact hc h1

/-- Put in a path and every path above it. -/
def mark (set : ChangeSet) (path : String) : ChangeSet :=
  (stems path.toList).foldl (fun acc stem => acc.insert (String.ofList stem)) set

/-- Mark many paths. -/
def markAll (set : ChangeSet) (paths : List String) : ChangeSet := paths.foldl mark set

/-- The set of the given paths and of every path above one of them. -/
def ofPaths (paths : List String) : ChangeSet := markAll empty paths

/-- Whether the path itself or anything beneath it is in the set. -/
def hasChange (set : ChangeSet) (path : String) : Bool :=
  set.paths.contains path ||
    let nested := path ++ "."
    (set.paths.find? fun p => !decide (p < nested)).any fun p => nested.toList.isPrefixOf p.toList

/-! ## Comparing states -/

/-- Not set, or an empty collection: the same configuration. -/
def isBlank : Value → Bool
  | .null => true
  | .list items => items.isEmpty
  | .set items => items.isEmpty
  | _ => false

/-- The entries of a block with one instance: a map, or a list that holds just one. -/
def singleBlock? : Value → Option (Assoc Value)
  | .map entries => some entries
  | .list [.map entries] => some entries
  | _ => none

/-- A name below a path. -/
def below (path name : String) : String := path ++ "." ++ name

/-- The names of either of two maps, ascending and without repetition. -/
def namesOf (before after : Assoc Value) : List String :=
  (Assoc.keys before ++ Assoc.keys after).foldr place []

/-- The pairs of entries to look at inside two values: those of their blocks, where an absent
value has an empty block. -/
def innerBlocks? (before after : Value) : Option (Assoc Value × Assoc Value) :=
  match singleBlock? before, singleBlock? after with
  | some b, some a => some (b, a)
  | some b, none => if after.isAbsent then some (b, []) else none
  | none, some a => if before.isAbsent then some ([], a) else none
  | none, none => none

/-- Whether a value is reported as changed. A value known only after the apply is no change, and
neither is an empty collection in the place of an unset one. -/
def differs (before after : Value) : Bool :=
  !after.isUnknown && !before.equals after && !(isBlank before && isBlank after)

/-- The changed paths at and below a path, for values nested at most `n` deep. -/
def changesWithin : Nat → String → Value → Value → List String
  | 0, path, before, after => if differs before after then [path] else []
  | n + 1, path, before, after =>
    if differs before after then
      path :: match innerBlocks? before after with
        | some (b, a) => (namesOf b a).flatMap fun name =>
            changesWithin n (below path name) (Value.getOrNull b name) (Value.getOrNull a name)
        | none => []
    else []

/-- The changed paths of two root objects. -/
def changedPaths (prior planned : Assoc Value) : List String :=
  (namesOf prior planned).flatMap fun name =>
    let before := Value.getOrNull prior name
    let after := Value.getOrNull planned name
    changesWithin (max before.depth after.depth) name before after

/-- The change set from one state to another; a state that is no map has no attributes. -/
def between (prior planned : Value) : ChangeSet := ofPaths (changedPaths prior.root planned.root)

end ChangeSet

end TrafficConfig
