import TrafficConfig.Assoc
import TrafficConfig.Number

/-!
# Values

The values of configurations, plans and states:

* **`Value`** has lists, sets and maps of values; `unknown` is a value that only the apply will
  bring;
* **`equals`** compares values. The order of a set does not matter, but how often an element
  occurs does; not-a-number differs from itself, so a value that holds one may differ from itself
  too;
* **`equals_list`**, **`equals_set`** and **`equals_map`** say it without the bound on the depth
  that makes the comparison total.
-/

namespace TrafficConfig

/-- A value of a configuration, a plan or a state. -/
inductive Value where
  /-- Not set. -/
  | null
  | bool (b : Bool)
  | number (x : Number)
  | string (s : String)
  /-- In order, repetitions allowed. -/
  | list (items : List Value)
  /-- Without order. -/
  | set (items : List Value)
  /-- An object, a block instance or a map with string keys. -/
  | map (entries : List (String × Value))
  /-- Known only after the apply. -/
  | unknown
  deriving Inhabited

namespace Value

/-- The kind of a value, as messages call it. -/
def kindName : Value → String
  | .null => "null"
  | .bool _ => "bool"
  | .number _ => "number"
  | .string _ => "string"
  | .list _ => "list"
  | .set _ => "set"
  | .map _ => "map"
  | .unknown => "unknown"

/-- Neither set nor about to be known. -/
def isAbsent : Value → Bool
  | .null => true
  | .unknown => true
  | _ => false

def isNull : Value → Bool
  | .null => true
  | _ => false

def isUnknown : Value → Bool
  | .unknown => true
  | _ => false

def asString? : Value → Option String
  | .string s => some s
  | _ => none

def asMap? : Value → Option (Assoc Value)
  | .map entries => some entries
  | _ => none

/-- The elements of a list or a set, in stored order. -/
def elements? : Value → Option (List Value)
  | .list items => some items
  | .set items => some items
  | _ => none

/-- The entries of a root object; anything but a map has none. -/
def root (v : Value) : Assoc Value := v.asMap?.getD []

/-- The value under a name of a map, where a missing one reads as not set. -/
def getOrNull (entries : Assoc Value) (name : String) : Value :=
  (Assoc.get? entries name).getD .null

/-! ## Depth -/

mutual

/-- How many lists, sets and maps are nested in each other at the deepest place. -/
def depth : Value → Nat
  | .list items => depthItems items + 1
  | .set items => depthItems items + 1
  | .map entries => depthEntries entries + 1
  | _ => 0

/-- The depth of the deepest element. -/
def depthItems : List Value → Nat
  | [] => 0
  | v :: rest => max (depth v) (depthItems rest)

/-- The depth of the deepest entry. -/
def depthEntries : List (String × Value) → Nat
  | [] => 0
  | (_, v) :: rest => max (depth v) (depthEntries rest)

end

/-- An item is no deeper than the items. -/
theorem depth_le_depthItems {v : Value} :
    ∀ {items : List Value}, v ∈ items → depth v ≤ depthItems items
  | w :: rest, h => by
    rcases List.mem_cons.mp h with rfl | h
    · exact Nat.le_max_left ..
    · exact Nat.le_trans (depth_le_depthItems h) (Nat.le_max_right ..)

/-- A value is no deeper than the entries. -/
theorem depth_le_depthEntries {k : String} {v : Value} :
    ∀ {entries : List (String × Value)}, (k, v) ∈ entries → depth v ≤ depthEntries entries
  | (k', w) :: rest, h => by
    rcases List.mem_cons.mp h with h | h
    · obtain ⟨rfl, rfl⟩ := Prod.mk.injEq .. ▸ h
      exact Nat.le_max_left ..
    · exact Nat.le_trans (depth_le_depthEntries h) (Nat.le_max_right ..)

/-! ## Equality -/

section Related

variable {α : Type u}

/-- The lists are related element by element. -/
def allPairs (r : α → α → Bool) : List α → List α → Bool
  | [], [] => true
  | x :: xs, y :: ys => r x y && allPairs r xs ys
  | _, _ => false

/-- The lists are equally long, and every element of the left one is met equally often in both. -/
def sameMembers (r : α → α → Bool) (xs ys : List α) : Bool :=
  xs.length == ys.length && xs.all fun x => xs.countP (r · x) == ys.countP (r · x)

/-- The maps have the same keys, and their values are related key by key. -/
def sameEntries (r : α → α → Bool) : Assoc α → Assoc α → Bool :=
  allPairs fun a b => a.1 == b.1 && r a.2 b.2

theorem allPairs_congr {r s : α → α → Bool} :
    ∀ {xs ys : List α}, (∀ x ∈ xs, ∀ y ∈ ys, r x y = s x y) →
    allPairs r xs ys = allPairs s xs ys
  | [], [], _ => rfl
  | [], _ :: _, _ => rfl
  | _ :: _, [], _ => rfl
  | x :: xs, y :: ys, h => by
    rw [allPairs, allPairs, h x List.mem_cons_self y List.mem_cons_self,
      allPairs_congr fun a ha b hb => h a (List.mem_cons_of_mem _ ha) b (List.mem_cons_of_mem _ hb)]

theorem sameMembers_congr {r s : α → α → Bool} {xs ys : List α}
    (h : ∀ x ∈ xs ++ ys, ∀ y ∈ xs, r x y = s x y) : sameMembers r xs ys = sameMembers s xs ys := by
  unfold sameMembers
  congr 1
  rw [Bool.eq_iff_iff, List.all_eq_true, List.all_eq_true]
  refine forall_congr' fun x => forall_congr' fun hx => ?_
  rw [List.countP_congr (p := (r · x)) (q := (s · x)) fun y hy => by
      rw [h y (List.mem_append_left _ hy) x hx],
    List.countP_congr (p := (r · x)) (q := (s · x)) fun y hy => by
      rw [h y (List.mem_append_right _ hy) x hx]]

end Related

/-- Equality of values whose depth is at most a bound. -/
def equalsWithin : Nat → Value → Value → Bool
  | _, .null, .null => true
  | _, .unknown, .unknown => true
  | _, .bool a, .bool b => a == b
  | _, .number x, .number y => x.equals y
  | _, .string s, .string t => s == t
  | n + 1, .list xs, .list ys => allPairs (equalsWithin n) xs ys
  | n + 1, .set xs, .set ys => sameMembers (equalsWithin n) xs ys
  | n + 1, .map es, .map fs => sameEntries (equalsWithin n) es fs
  | _, _, _ => false

/-- Equality of values. -/
def equals (v w : Value) : Bool := equalsWithin (max v.depth w.depth) v w

/-- A larger bound changes nothing. -/
theorem equalsWithin_eq :
    ∀ (n m : Nat) (v w : Value), v.depth ≤ n → w.depth ≤ n → v.depth ≤ m → w.depth ≤ m →
    equalsWithin n v w = equalsWithin m v w := by
  intro n
  induction n with
  | zero =>
    intro m v w hv hw _ _
    cases v <;> cases w <;> first
      | (simp only [depth] at hv hw; omega)
      | (cases m <;> rfl)
  | succ n ih =>
    intro m v w hv hw hv' hw'
    cases m with
    | zero =>
      cases v <;> cases w <;> first
        | (simp only [depth] at hv' hw'; omega)
        | rfl
    | succ m =>
      cases v <;> cases w <;> try rfl
      · simp only [depth, Nat.add_le_add_iff_right] at hv hw hv' hw'
        simp only [equalsWithin]
        exact allPairs_congr fun x hx y hy => ih m x y
          (Nat.le_trans (depth_le_depthItems hx) hv) (Nat.le_trans (depth_le_depthItems hy) hw)
          (Nat.le_trans (depth_le_depthItems hx) hv') (Nat.le_trans (depth_le_depthItems hy) hw')
      · simp only [depth, Nat.add_le_add_iff_right] at hv hw hv' hw'
        simp only [equalsWithin]
        refine sameMembers_congr fun x hx y hy => ?_
        have hy1 := Nat.le_trans (depth_le_depthItems hy) hv
        have hy2 := Nat.le_trans (depth_le_depthItems hy) hv'
        rcases List.mem_append.mp hx with hx | hx
        · exact ih m x y (Nat.le_trans (depth_le_depthItems hx) hv) hy1
            (Nat.le_trans (depth_le_depthItems hx) hv') hy2
        · exact ih m x y (Nat.le_trans (depth_le_depthItems hx) hw) hy1
            (Nat.le_trans (depth_le_depthItems hx) hw') hy2
      · simp only [depth, Nat.add_le_add_iff_right] at hv hw hv' hw'
        simp only [equalsWithin, sameEntries]
        refine allPairs_congr fun x hx y hy => ?_
        rw [ih m x.2 y.2
          (Nat.le_trans (depth_le_depthEntries hx) hv) (Nat.le_trans (depth_le_depthEntries hy) hw)
          (Nat.le_trans (depth_le_depthEntries hx) hv')
          (Nat.le_trans (depth_le_depthEntries hy) hw')]

/-- Any bound that both depths keep gives equality. -/
theorem equalsWithin_eq_equals {n : Nat} {v w : Value} (hv : v.depth ≤ n) (hw : w.depth ≤ n) :
    equalsWithin n v w = equals v w :=
  equalsWithin_eq n _ v w hv hw (Nat.le_max_left ..) (Nat.le_max_right ..)

/-- Lists are equal element by element. -/
theorem equals_list (xs ys : List Value) :
    equals (.list xs) (.list ys) = allPairs equals xs ys := by
  rw [← equalsWithin_eq_equals (n := max (depthItems xs) (depthItems ys) + 1)
    (by simp only [depth]; omega) (by simp only [depth]; omega)]
  simp only [equalsWithin]
  exact allPairs_congr fun x hx y hy => equalsWithin_eq_equals
    (Nat.le_trans (depth_le_depthItems hx) (Nat.le_max_left ..))
    (Nat.le_trans (depth_le_depthItems hy) (Nat.le_max_right ..))

/-- Sets are equal when every element of the left one is met equally often in both. -/
theorem equals_set (xs ys : List Value) :
    equals (.set xs) (.set ys) = sameMembers equals xs ys := by
  rw [← equalsWithin_eq_equals (n := max (depthItems xs) (depthItems ys) + 1)
    (by simp only [depth]; omega) (by simp only [depth]; omega)]
  simp only [equalsWithin]
  refine sameMembers_congr fun x hx y hy => equalsWithin_eq_equals ?_
    (Nat.le_trans (depth_le_depthItems hy) (Nat.le_max_left ..))
  rcases List.mem_append.mp hx with hx | hx
  · exact Nat.le_trans (depth_le_depthItems hx) (Nat.le_max_left ..)
  · exact Nat.le_trans (depth_le_depthItems hx) (Nat.le_max_right ..)

/-- Maps are equal key by key. -/
theorem equals_map (es fs : Assoc Value) :
    equals (.map es) (.map fs) = sameEntries equals es fs := by
  rw [← equalsWithin_eq_equals (n := max (depthEntries es) (depthEntries fs) + 1)
    (by simp only [depth]; omega) (by simp only [depth]; omega)]
  simp only [equalsWithin, sameEntries]
  refine allPairs_congr fun x hx y hy => ?_
  rw [equalsWithin_eq_equals
    (Nat.le_trans (depth_le_depthEntries hx) (Nat.le_max_left ..))
    (Nat.le_trans (depth_le_depthEntries hy) (Nat.le_max_right ..))]

end Value

end TrafficConfig
