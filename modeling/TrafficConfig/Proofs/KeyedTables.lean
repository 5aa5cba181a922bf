import TrafficConfig.Catalog.TrafficManager.Sections
import TrafficConfig.Proofs.RemoteRows

/-!
# Keyed tables are read row by row

The rows of a remote table carry distinct strings as keys, and the table is read over a prior
value:

* **`RowOf`** — what a row is that was read of one remote row over one prior row: every field
  is decoded from the remote row, or kept from the prior row, and there is nothing else;
* **`Rows.InOrderOf`** — rows stand in the order of earlier ones, the new ones behind them as
  they arrived. So an ordered table puts them (**`Rows.arrange_inOrderOf`**);
* **`Rows.Ascending`** — rows stand in the order of their keys. So a table without order puts
  them (**`Rows.ascending_arrange`**);
* **`Rows.arrange_eq_of_perm`** — the order of arrival does not matter, unless rows of an
  ordered table are new;
* **`keyed_table_read`** — all of it for a table that can be read.
-/

namespace TrafficConfig

open Value

/-! ## The order of rows -/

namespace Rows

/-- The keys of earlier rows, in their order. -/
def keysOf (key : String) (rows : List (Assoc Value)) : List (Option String) :=
  rows.map (key? · key)

/-- Rows stand in the order of earlier ones: first those whose keys stand there, each where its
    key stands first; behind them the others, as they arrived. -/
def InOrderOf (key : String) (earlier arrived rows : List (Assoc Value)) : Prop :=
  ∃ known, rows = known ++ arrived.filter (fun row => keyOf key row ∉ keysOf key earlier) ∧
    known.Perm (arrived.filter fun row => keyOf key row ∈ keysOf key earlier) ∧
    known.Pairwise fun a b =>
      (keysOf key earlier).idxOf (keyOf key a) < (keysOf key earlier).idxOf (keyOf key b)

/-- Rows stand in the order of their keys, and no two have the same. -/
def Ascending (key : String) (rows : List (Assoc Value)) : Prop :=
  rows.Pairwise fun a b => ∃ x ∈ keyOf key a, ∃ y ∈ keyOf key b, x < y

/-- A row stands where its key stands first. -/
theorem position_eq_idxOf (earlier : List (Assoc Value)) {key id : String} {row : Assoc Value}
    (h : keyOf key row = some id) :
    position earlier key row = (keysOf key earlier).idxOf (keyOf key row) := by
  rw [position, key?_of_keyOf h, h, keysOf, List.idxOf, List.findIdx_map,
    List.findIdx_eq_getD_findIdx?]
  rfl

/-- The order of keys is transitive. -/
theorem keyLe_trans (a b c : Option String) (hab : keyLe a b = true) (hbc : keyLe b c = true) :
    keyLe a c = true := by
  cases a with
  | none => rfl
  | some a =>
      cases b with
      | none => exact nomatch hab
      | some b =>
          cases c with
          | none => exact nomatch hbc
          | some c =>
              simp only [keyLe, Bool.not_eq_true', decide_eq_false_iff_not, String.not_lt] at *
              exact String.le_trans hab hbc

/-- Of two keys one comes before the other. -/
theorem keyLe_total (a b : Option String) (h : ¬ keyLe a b = true) : keyLe b a = true := by
  cases b with
  | none => rfl
  | some b =>
      cases a with
      | none => exact absurd rfl h
      | some a =>
          simp only [keyLe, Bool.not_eq_true', decide_eq_false_iff_not, String.not_lt] at *
          exact (String.le_total a b).resolve_left h

/-- Different keys that are in order are in strict order. -/
theorem lt_of_keyLe {a b : String} (h : keyLe (some a) (some b) = true) (hne : a ≠ b) :
    a < b := by
  simp only [keyLe, Bool.not_eq_true', decide_eq_false_iff_not, String.not_lt] at h
  by_contra hlt
  exact hne (String.le_antisymm h (String.not_lt.mp hlt))

private theorem filter_append_others {α : Type} {p : α → Prop} [DecidablePred p]
    {xs : List α} (h : xs.Pairwise fun a b => p b → p a) :
    xs.filter p ++ xs.filter (¬ p ·) = xs := by
  induction xs with
  | nil => rfl
  | cons x rest ih =>
      obtain ⟨hx, hrest⟩ := List.pairwise_cons.mp h
      by_cases hp : p x
      · rw [List.filter_cons, if_pos (decide_eq_true hp), List.filter_cons,
          if_neg (by simpa using hp), List.cons_append, ih hrest]
      · -- behind the first other element there are only others
        have hothers : ∀ y ∈ x :: rest, ¬ p y :=
          List.forall_mem_cons.mpr ⟨hp, fun y hy hpy => hp (hx y hy hpy)⟩
        rw [List.filter_eq_nil_iff.mpr fun y hy h => hothers y hy (of_decide_eq_true h),
          List.nil_append, List.filter_eq_self.mpr fun y hy => decide_eq_true (hothers y hy)]

section Keyed

variable {table : Table} {key : String} {arrived : List (Assoc Value)}
  (hkey : table.key = some key) (hkeyed : KeyedRows (some key) arrived)
include hkeyed

private theorem eq_of_keyOf {a b : Assoc Value} (ha : a ∈ arrived) (hb : b ∈ arrived)
    (h : keyOf key a = keyOf key b) : a = b :=
  List.inj_on_of_nodup_map (hkeyed key rfl).2 ha hb h

private theorem exists_keyOf {row : Assoc Value} (hrow : row ∈ arrived) :
    ∃ id, keyOf key row = some id :=
  Option.isSome_iff_exists.mp ((hkeyed key rfl).1 row hrow)

private theorem position_eq_of_mem (earlier : List (Assoc Value)) {row : Assoc Value}
    (hrow : row ∈ arrived) :
    position earlier key row = (keysOf key earlier).idxOf (keyOf key row) := by
  obtain ⟨id, hid⟩ := exists_keyOf hkeyed hrow
  exact position_eq_idxOf earlier hid

private theorem pairwise_ne_of_perm {rows : List (Assoc Value)} (h : rows.Perm arrived) :
    rows.Pairwise fun a b => keyOf key a ≠ keyOf key b :=
  List.pairwise_map.mp (hkeyed.of_perm h key rfl).2

include hkey

/-- No row of an ordered table stands behind one whose key stands later among earlier rows. -/
theorem pairwise_idxOf_arrange (hordered : table.ordered = true)
    (earlier : List (Assoc Value)) : (arrange table earlier arrived).Pairwise fun a b =>
      (keysOf key earlier).idxOf (keyOf key a) ≤ (keysOf key earlier).idxOf (keyOf key b) := by
  have hperm := arrange_perm table earlier arrived
  have hsorted : (arrange table earlier arrived).Pairwise fun a b =>
      decide (position earlier key a ≤ position earlier key b) = true := by
    rw [arrange]
    rw [hkey, hordered]
    exact pairwise_sortBy (by grind) (by grind) arrived
  refine hsorted.imp_of_mem fun {a b} ha hb hab => ?_
  rw [← position_eq_of_mem hkeyed earlier (hperm.mem_iff.mp ha),
    ← position_eq_of_mem hkeyed earlier (hperm.mem_iff.mp hb)]
  exact of_decide_eq_true hab

/-- The rows of an ordered table that are new stay as they arrived. -/
theorem filter_new_arrange (hordered : table.ordered = true)
    (earlier : List (Assoc Value)) :
    (arrange table earlier arrived).filter (fun row => keyOf key row ∉ keysOf key earlier) =
      arrived.filter (fun row => keyOf key row ∉ keysOf key earlier) := by
  rw [arrange]
  rw [hkey, hordered]
  refine filter_sortBy fun a ha b hb hnewa hnewb => decide_eq_true (Nat.le_of_eq ?_)
  rw [position_eq_of_mem hkeyed earlier ha, position_eq_of_mem hkeyed earlier hb,
    List.idxOf_of_notMem (of_decide_eq_true hnewa), List.idxOf_of_notMem (of_decide_eq_true hnewb)]

/-- **An ordered table puts its rows into the order of earlier ones.** -/
theorem arrange_inOrderOf (hordered : table.ordered = true) (earlier : List (Assoc Value)) :
    InOrderOf key earlier arrived (arrange table earlier arrived) := by
  have hperm := arrange_perm table earlier arrived
  have hle := pairwise_idxOf_arrange hkey hkeyed hordered earlier
  -- a key that is known stands before the end, all others stand at the end
  have hsplit := filter_append_others (p := fun row => keyOf key row ∈ keysOf key earlier)
    (hle.imp fun hab hb => List.idxOf_lt_length_iff.mp
      (Nat.lt_of_le_of_lt hab (List.idxOf_lt_length_iff.mpr hb)))
  rw [filter_new_arrange hkey hkeyed hordered] at hsplit
  refine ⟨_, hsplit.symm, hperm.filter _, ?_⟩
  have hlt := (hle.and (pairwise_ne_of_perm hkeyed hperm)).filter
    fun row => keyOf key row ∈ keysOf key earlier
  refine hlt.imp_of_mem fun {a b} ha hb hab => ?_
  have hknown := of_decide_eq_true (List.mem_filter.mp ha).2
  exact Nat.lt_of_le_of_ne hab.1 fun heq => hab.2 ((List.idxOf_inj hknown).mp heq)

/-- **A table without order puts its rows into the order of their keys.** -/
theorem ascending_arrange (hunordered : table.ordered = false) (earlier : List (Assoc Value)) :
    Ascending key (arrange table earlier arrived) := by
  have hperm := arrange_perm table earlier arrived
  have hle : (arrange table earlier arrived).Pairwise fun a b =>
      keyLe (key? a key) (key? b key) = true := by
    rw [arrange]
    rw [hkey, hunordered]
    exact pairwise_sortBy (fun a b c => keyLe_trans (key? a key) (key? b key) (key? c key))
      (fun a b => keyLe_total (key? a key) (key? b key)) arrived
  refine (hle.and (pairwise_ne_of_perm hkeyed hperm)).imp_of_mem ?_
  rintro a b ha hb ⟨hle, hne⟩
  obtain ⟨x, hx⟩ := exists_keyOf hkeyed (hperm.mem_iff.mp ha)
  obtain ⟨y, hy⟩ := exists_keyOf hkeyed (hperm.mem_iff.mp hb)
  rw [key?_of_keyOf hx, key?_of_keyOf hy] at hle
  rw [hx, hy] at hne
  exact ⟨x, hx, y, hy, lt_of_keyLe hle fun heq => hne (congrArg some heq)⟩

/-- **The order of arrival does not matter** in a table without order, and in an ordered one
    when no row is new. -/
theorem arrange_eq_of_perm {earlier others : List (Assoc Value)}
    (hknown : table.ordered = false ∨ ∀ row ∈ arrived, keyOf key row ∈ keysOf key earlier)
    (hperm : others.Perm arrived) :
    arrange table earlier others = arrange table earlier arrived := by
  rw [arrange, arrange]
  rw [hkey]
  cases hordered : table.ordered with
  | false =>
      refine sortBy_eq_of_perm
        (fun a b c => keyLe_trans (key? a key) (key? b key) (key? c key))
        (fun a b => keyLe_total (key? a key) (key? b key)) ?_ hperm
      intro a ha b hb hab hba
      refine eq_of_keyOf hkeyed ha hb ?_
      obtain ⟨x, hx⟩ := exists_keyOf hkeyed ha
      obtain ⟨y, hy⟩ := exists_keyOf hkeyed hb
      rw [key?_of_keyOf hx, key?_of_keyOf hy] at hab hba
      rw [hx, hy]
      by_contra hne
      have hxy : x ≠ y := fun heq => hne (congrArg some heq)
      exact String.lt_irrefl x (String.lt_trans (lt_of_keyLe hab hxy) (lt_of_keyLe hba hxy.symm))
  | true =>
      replace hknown := hknown.resolve_left fun h => Bool.noConfusion (hordered.symm.trans h)
      refine sortBy_eq_of_perm (by simp only [decide_eq_true_eq]; omega)
        (by simp only [decide_eq_true_eq]; omega) ?_ hperm
      intro a ha b hb hab hba
      refine eq_of_keyOf hkeyed ha hb ?_
      rw [decide_eq_true_iff] at hab hba
      have hpos := Nat.le_antisymm hab hba
      rw [position_eq_of_mem hkeyed earlier ha, position_eq_of_mem hkeyed earlier hb] at hpos
      exact (List.idxOf_inj (hknown a ha)).mp hpos

end Keyed

end Rows

/-! ## The fields of a row -/

section Fields

variable {f : Field} {remote : Assoc Json} {prior : Option (Assoc Value)}

/-- A field is kept: the remote row omits it, or holds what a removed value is sent as while
    there is a prior row that leaves it unset. -/
def Field.Kept (f : Field) (remote : Assoc Json) (prior : Option (Assoc Value)) : Prop :=
  ∀ j, Assoc.get? remote f.remote = some j → j = f.kind.cleared ∧
    ∃ row, prior = some row ∧ (getOrNull row f.name).isAbsent = true

/-- A name is unset in an earlier row when the row is there and has nothing under the name. -/
theorem unsetIn_iff {name : String} : unsetIn prior name = true ↔
    ∃ row, prior = some row ∧ (getOrNull row name).isAbsent = true := by
  cases prior with
  | none => simp [unsetIn]
  | some row =>
      have hvalue : (getOrNull row name).isAbsent = (Assoc.get? row name).all isAbsent := by
        rw [getOrNull]
        cases Assoc.get? row name <;> rfl
      simp [unsetIn, priorValue?, hvalue]

/-- A field that is kept has its prior value. -/
theorem Field.declared?_of_kept (h : f.Kept remote prior) :
    f.declared? remote prior = .ok (priorValue? prior f.name) := by
  rw [declared?]
  cases hj : Assoc.get? remote f.remote with
  | none => rfl
  | some j =>
      obtain ⟨hcleared, hunset⟩ := h j hj
      simp only [unsetIn_iff.mpr hunset, (f.kind.isCleared_iff j).mpr hcleared, Bool.and_self,
        if_true]

/-- A field that is not kept is decoded. -/
theorem Field.decoded_of_not_kept (h : ¬ f.Kept remote prior) {v? : Option Value}
    (hv : f.declared? remote prior = .ok v?) :
    ∃ j v, Assoc.get? remote f.remote = some j ∧
      f.kind.toValue f.name j (priorValue? prior f.name) = .ok v ∧ v? = some v := by
  rw [declared?] at hv
  cases hj : Assoc.get? remote f.remote with
  | none =>
      refine absurd (fun j hsome => ?_) h
      rw [hj] at hsome
      cases hsome
  | some j =>
      rw [hj] at hv
      by_cases hkept : (unsetIn prior f.name && f.kind.isCleared j) = true
      · refine absurd (fun i hi => ?_) h
        obtain rfl := Option.some.inj (hj.symm.trans hi)
        obtain ⟨hunset, hcleared⟩ := Bool.and_eq_true_iff.mp hkept
        exact ⟨(f.kind.isCleared_iff j).mp hcleared, unsetIn_iff.mp hunset⟩
      · simp only [hkept, Bool.false_eq_true, if_false] at hv
        obtain ⟨v, hread, hsome⟩ := Except.map_eq_ok hv
        exact ⟨j, v, rfl, hread, hsome.symm⟩

end Fields

/-- A row is read of a remote row over a prior row: every field is kept, with its prior value
    or without one, or decoded from the remote row; and there is nothing else. -/
structure RowOf (fields : List Field) (remote : Assoc Json) (prior : Option (Assoc Value))
    (row : Assoc Value) : Prop where
  kept : ∀ f ∈ fields, f.Kept remote prior → Assoc.get? row f.name = priorValue? prior f.name
  decoded : ∀ f ∈ fields, ¬ f.Kept remote prior → ∃ j v, Assoc.get? remote f.remote = some j ∧
    f.kind.toValue f.name j (priorValue? prior f.name) = .ok v ∧ Assoc.get? row f.name = some v
  others : ∀ name, (∀ f ∈ fields, f.name ≠ name) → Assoc.get? row name = none

/-- **What is read is a row of this kind.** -/
theorem rowOf_declaredEntries {fields : List Field} {remote : Assoc Json}
    {prior : Option (Assoc Value)} {entries : List (String × Value)}
    (hn : (fields.map (·.name)).Nodup) (h : declaredEntries fields remote prior = .ok entries) :
    RowOf fields remote prior (Assoc.ofEntries entries) where
  kept f hf hkept := by
    have hread := get?_declared_of_mem h hn hf
    rw [Field.declared?_of_kept hkept] at hread
    exact (Except.ok.inj hread).symm
  decoded f hf hkept := Field.decoded_of_not_kept hkept (get?_declared_of_mem h hn hf)
  others _ hname := get?_declared_eq_none h hname

/-! ## Tables -/

/-- A row of a keyed table is read of a remote row with its key, over the first earlier row
    with this key. -/
def Table.RowFrom (table : Table) (key : String) (earlier : List (Assoc Value))
    (remote : Assoc Json) (row : Assoc Value) : Prop :=
  ∃ id, remoteKeyOf table.fields key remote = some id ∧ keyOf key row = some id ∧
    RowOf table.fields remote (Rows.find? earlier key id) row

section Tables

variable {table : Table} {name key : String} {prior : Option Value}
  (hkey : table.key = some key)
  (hnaming : (FieldKind.table table).checkNaming name = .ok ())
include hkey hnaming

/-- A row is read of its own remote row. -/
theorem rowFrom_of_read {earlier : List (Assoc Value)} {object : Assoc Json}
    {row : Assoc Value} (h : table.ReadOver earlier object row)
    (hid : (remoteKeyOf table.fields key object).isSome = true) :
    table.RowFrom key earlier object row := by
  have hn := checkNaming_names (checkNaming_table hnaming)
  obtain ⟨id, hid⟩ := Option.isSome_iff_exists.mp hid
  refine ⟨id, hid, keyOf_of_read hn (fun k => checkNaming_key hnaming) h hkey hid, ?_⟩
  obtain ⟨entries, hentries, rfl⟩ := Except.map_eq_ok h
  rw [hkey, matchingRow?_eq, hid] at hentries
  exact rowOf_declaredEntries hn hentries

/-- **Keyed tables are read row by row**: when the rows of a remote table carry distinct
    strings as keys and it can be read, there is one row for each of them, read of it and of
    the first prior row with its key. The rows of an ordered table stand in the order of the
    prior rows, those of a table without order in the order of their keys. So the order of the
    remote rows does not matter in a table without order, and in an ordered one when all keys
    stand in the prior. -/
theorem keyed_table_read {items : List Json} {v : Value}
    (hkeyed : (FieldKind.table table).KeyedRemote (.array items))
    (h : (FieldKind.table table).toValue name (.array items) prior = .ok v) :
    ∃ objects read rows, items = objects.map .object ∧ v = table.valueOf rows ∧
      List.Forall₂ (table.RowFrom key (priorRows prior)) objects read ∧ rows.Perm read ∧
      (table.ordered = true → Rows.InOrderOf key (priorRows prior) read rows) ∧
      (table.ordered = false → Rows.Ascending key rows) ∧
      ∀ others : List (Assoc Json), others.Perm objects →
        (table.ordered = false ∨ ∀ object ∈ objects,
          remoteKeyOf table.fields key object ∈ Rows.keysOf key (priorRows prior)) →
        (FieldKind.table table).toValue name (.array (others.map .object)) prior = .ok v := by
  rcases FieldKind.toValue_rows_cases h with ⟨hnull, -⟩ | ⟨objects, read, hitems, hread, hv⟩
  · exact nomatch hnull
  obtain rfl := Json.array.inj hitems
  have hn := checkNaming_names (checkNaming_table hnaming)
  have hfield : ∀ k ∈ table.key, ∃ f ∈ table.fields, f.name = k :=
    fun k => checkNaming_key hnaming
  have hids := (FieldKind.keyedRemote_objects_iff.mp hkeyed key hkey).1
  have hrows : KeyedRows (some key) read := hkey ▸ keyedRows_of_read hn hfield hread hkeyed
  have hfrom : List.Forall₂ (table.RowFrom key (priorRows prior)) objects read :=
    ((List.forall₂_and_left ..).mpr ⟨hids, hread⟩).imp
      fun _ _ ⟨hid, hrow⟩ => rowFrom_of_read hkey hnaming hrow hid
  refine ⟨objects, read, Rows.arrange table (priorRows prior) read, rfl, hv, hfrom,
    Rows.arrange_perm .., fun hordered => Rows.arrange_inOrderOf hkey hrows hordered _,
    fun hunordered => Rows.ascending_arrange hkey hrows hunordered _, ?_⟩
  -- rows in another order are read one by one as before, and arranged alike
  intro others hperm hknown
  obtain ⟨again, hagain, hperm⟩ := List.perm_comp_forall₂ hperm hread
  rw [FieldKind.toValue_rows name prior hagain, hv]
  refine congrArg (fun rows => Except.ok (table.valueOf rows))
    (Rows.arrange_eq_of_perm hkey hrows (hknown.imp_right fun hall row hrow => ?_) hperm)
  have hmem := List.mem_map_of_mem (f := keyOf key) hrow
  rw [map_keyOf_of_read hn hfield hread hkey hids] at hmem
  obtain ⟨object, hobject, hid⟩ := List.mem_map.mp hmem
  rw [← hid]
  exact hall object hobject

end Tables

/-! ## Two cards -/

section Cards

open Catalog.TrafficManager

/-- Two cards; the remote side omits the label of one, and that of the other is empty. -/
private def remoteCards : List (Assoc Json) := [
  [("interfaces", .array [.string "1.1"]), ("label", .string ""), ("name", .string "eth0")],
  [("interfaces", .array []), ("name", .string "eth1")]]

/-- The cards in the other order, one of them with a label. -/
private def priorCards : Value := .list [
  .map [("label", .string "spare"), ("name", .string "eth1")], .map [("name", .string "eth0")]]

private def readCards : Value := .list [
  .map [("label", .string "spare"), ("name", .string "eth1")],
  .map [("interfaces", .list [.string "1.1"]), ("name", .string "eth0")]]

/-- Every card keeps its own label and its own interfaces, and both return to their places, in
    whatever order they arrive. -/
theorem cards_return_to_their_places :
    applianceCard.key = some "name" ∧
    (FieldKind.table applianceCard).checkNaming "appliance_card" = .ok () ∧
    (FieldKind.table applianceCard).KeyedRemote (.array (remoteCards.map .object)) ∧
    (FieldKind.table applianceCard).toValue "appliance_card" (.array (remoteCards.map .object))
      (some priorCards) = .ok readCards ∧
    (FieldKind.table applianceCard).toValue "appliance_card"
      (.array (remoteCards.reverse.map .object)) (some priorCards) = .ok readCards := by
  have hnaming : (FieldKind.table applianceCard).checkNaming "appliance_card" = .ok () := rfl
  have hkeyed : (FieldKind.table applianceCard).KeyedRemote
      (.array (remoteCards.map .object)) := by decide
  have hread : (FieldKind.table applianceCard).toValue "appliance_card"
      (.array (remoteCards.map .object)) (some priorCards) = .ok readCards := rfl
  obtain ⟨objects, read, rows, hobjects, -, -, -, -, -, hperm⟩ :=
    keyed_table_read rfl hnaming hkeyed hread
  obtain rfl := List.map_injective_iff.mpr (fun _ _ => Json.object.inj) hobjects
  refine ⟨rfl, hnaming, hkeyed, hread, hperm _ (List.reverse_perm _) (.inr ?_)⟩
  decide

end Cards

end TrafficConfig
