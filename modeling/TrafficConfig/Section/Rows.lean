import TrafficConfig.Section
import TrafficConfig.Number.Shortest

/-!
# Rows of keyed tables

A row is known again by its key. The rows of an ordered table are put into the order that their
keys had before, with new keys behind them in the order of arrival; those of a set are put into
the order of their keys. Sorting is stable.
-/

namespace TrafficConfig

namespace Rows

section Sorting

variable {α : Type u}

/-- Put an element before the first one that it may precede. -/
def insertBy (le : α → α → Bool) (x : α) : List α → List α
  | [] => [x]
  | y :: rest => if le x y then x :: y :: rest else y :: insertBy le x rest

/-- Sort; elements that may precede each other keep their order. -/
def sortBy (le : α → α → Bool) : List α → List α
  | [] => []
  | x :: rest => insertBy le x (sortBy le rest)

/-- Putting an element into its place loses no other one. -/
theorem insertBy_perm (le : α → α → Bool) (x : α) : ∀ ys : List α, (insertBy le x ys).Perm (x :: ys)
  | [] => .refl _
  | y :: rest => by
    rw [insertBy]
    split
    · exact .refl _
    · exact ((insertBy_perm le x rest).cons y).trans (.swap x y rest)

/-- Sorting only changes the order. -/
theorem sortBy_perm (le : α → α → Bool) : ∀ xs : List α, (sortBy le xs).Perm xs
  | [] => .refl _
  | x :: rest => (insertBy_perm le x _).trans ((sortBy_perm le rest).cons x)

end Sorting

/-- The text of a row's key: a string, or a number as it is displayed. -/
def key? (row : Assoc Value) (key : String) : Option String :=
  match Assoc.get? row key with
  | some (.string s) => some s
  | some (.number x) => some x.display
  | _ => none

/-- The first row with a key. -/
def find? (rows : List (Assoc Value)) (key id : String) : Option (Assoc Value) :=
  rows.find? fun row => key? row key == some id

/-- Where the key of a row stood among earlier rows; behind all of them when it is new. -/
def position (earlier : List (Assoc Value)) (key : String) (row : Assoc Value) : Nat :=
  match key? row key with
  | none => earlier.length
  | some id => (earlier.findIdx? fun r => key? r key == some id).getD earlier.length

/-- The order of keys; a row without a key comes first. -/
def keyLe : Option String → Option String → Bool
  | none, _ => true
  | some _, none => false
  | some a, some b => !decide (b < a)

/-- Rows in the order of their table. -/
def arrange (table : Table) (earlier rows : List (Assoc Value)) : List (Assoc Value) :=
  match table.key, table.ordered with
  | some key, true => sortBy (fun a b => position earlier key a ≤ position earlier key b) rows
  | some key, false => sortBy (fun a b => keyLe (key? a key) (key? b key)) rows
  | none, _ => rows

end Rows

end TrafficConfig
