import TrafficConfig.Proofs.Sent

/-!
# What was sent is read anew

A value that was sent is read without a prior value: nothing is known again, so what comes
back is what was sent.

* **`FieldKind.SentAlike`** — two values are sent alike when they are equal as far as they
  are sent;
* **`FieldKind.empty`** — the empty value of a kind. Among the values that are sent it is
  the one that is sent as cleared (**`isCleared_iff_equals_empty`**);
* **`FieldKind.readsAnew`** — what is read is sent like the value that was sent, if its
  collections have the kinds of their fields.
-/

namespace TrafficConfig

open Value

/-- Two values of a kind are equal, as far as they are sent: leaving out what is absent, only
    read, or no field in the rows of tables. -/
def FieldKind.SentAlike (kind : FieldKind) (u w : Value) : Prop :=
  (kind.prune Field.isSent u).equals (kind.prune Field.isSent w) = true

/-- The empty value of a kind. -/
def FieldKind.empty : FieldKind → Value
  | .string => .string ""
  | .bool => .bool false
  | .int => .number (Number.ofInt 0)
  | .list => .list []
  | .set => .set []
  | .table t => t.valueOf []

/-! ## Empty values -/

private theorem equals_list_nil_iff {v : Value} :
    v.equals (.list []) = true ↔ v = .list [] := by
  constructor
  · intro h
    cases v with
    | list items =>
        obtain ⟨ys, hys, hm⟩ := equals_list_iff.mp h
        obtain rfl := Value.list.inj hys
        cases hm
        rfl
    | _ => exact absurd (kindName_eq_of_equals h) (by simp [kindName])
  · rintro rfl
    exact equals_list_iff.mpr ⟨[], rfl, .nil⟩

private theorem equals_set_nil_iff {v : Value} :
    v.equals (.set []) = true ↔ v = .set [] := by
  constructor
  · intro h
    cases v with
    | set items =>
        obtain ⟨ys, hys, hs⟩ := equals_set_iff.mp h
        obtain rfl := Value.set.inj hys
        cases items with
        | nil => rfl
        | cons x rest => exact nomatch hs
    | _ => exact absurd (kindName_eq_of_equals h) (by simp [kindName])
  · rintro rfl
    exact equals_set_iff.mpr ⟨[], rfl, rfl⟩

private theorem isCleared_iff_of_elements {kind : FieldKind} {w : Value} {items : List Value}
    {js : List Json} (hw : w.elements? = some items) (hlength : js.length = items.length)
    (hcleared : kind.isCleared (.array js) = js.isEmpty)
    (hempty : (kind.empty = .list [] ∧ w.kindName ≠ "set") ∨
      (kind.empty = .set [] ∧ w.kindName ≠ "list")) :
    kind.isCleared (.array js) = true ↔ w.equals kind.empty = true := by
  have hnil : js.isEmpty = true ↔ items = [] := by
    rw [List.isEmpty_iff, ← List.length_eq_zero_iff, hlength, List.length_eq_zero_iff]
  rw [hcleared, hnil]
  rcases hempty with ⟨he, hkind⟩ | ⟨he, hkind⟩
  · rw [he, equals_list_nil_iff]
    cases w with
    | list xs => rw [Option.some.inj hw, Value.list.injEq]
    | set xs => exact absurd rfl hkind
    | _ => exact nomatch hw
  · rw [he, equals_set_nil_iff]
    cases w with
    | set xs => rw [Option.some.inj hw, Value.set.injEq]
    | list xs => exact absurd rfl hkind
    | _ => exact nomatch hw

/-- **Among the values that are sent, the empty one is sent as cleared.** -/
theorem isCleared_iff_equals_empty {kind : FieldKind} {name : String} {w : Value} {j : Json}
    (htakes : kind.Takes w) (h : kind.toJson name w = .ok j) :
    kind.isCleared j = true ↔ w.equals kind.empty = true := by
  cases kind with
  | string =>
      cases w with
      | string s =>
          obtain rfl : Json.string s = j := Except.ok.inj h
          show (s == "") = true ↔ (Value.string s).equals (.string "") = true
          rw [beq_iff_eq, equals_string_iff, Value.string.injEq, eq_comm]
      | _ => exact nomatch h
  | bool =>
      cases w with
      | bool b =>
          obtain rfl : Json.bool b = j := Except.ok.inj h
          show (!b) = true ↔ (Value.bool b).equals (.bool false) = true
          rw [equals_bool_iff, Value.bool.injEq, Bool.not_eq_true', eq_comm]
      | _ => exact nomatch h
  | int =>
      cases w with
      | number x =>
          obtain ⟨z, hz, rfl⟩ := toJsonInt_eq_ok h
          show (z == 0) = true ↔ (Value.number x).equals (.number (Number.ofInt 0)) = true
          rw [beq_iff_eq, ← Number.equals_zero_iff hz, equals_number_iff]
          constructor
          · exact fun hx => ⟨_, rfl, hx⟩
          · rintro ⟨y, hy, hx⟩
            rw [Value.number.inj hy]
            exact hx
      | _ => exact nomatch h
  | list =>
      obtain ⟨ss, hss, rfl⟩ := Except.map_eq_ok h
      exact isCleared_iff_of_elements (elements?_of_toStrings hss) (by simp) rfl
        (.inl ⟨rfl, htakes⟩)
  | set =>
      obtain ⟨ss, hss, rfl⟩ := Except.map_eq_ok h
      exact isCleared_iff_of_elements (elements?_of_toStrings hss) (by simp) rfl
        (.inr ⟨rfl, htakes⟩)
  | table t =>
      obtain ⟨rows, sent, hrows, hsent, rfl⟩ := toJson_table_cases h
      refine isCleared_iff_of_elements hrows (by simp [hsent.length_eq]) rfl ?_
      show (t.valueOf [] = _ ∧ _) ∨ (t.valueOf [] = _ ∧ _)
      have hkind : w.kindName ≠ (if t.ordered then "set" else "list") := htakes
      rw [Table.valueOf]
      by_cases hordered : t.ordered = true
      · rw [if_pos hordered] at hkind ⊢
        exact .inl ⟨rfl, hkind⟩
      · rw [if_neg hordered] at hkind ⊢
        exact .inr ⟨rfl, hkind⟩

/-! ## Reading anew -/

/-- What a value is sent as is read, without a prior value, as one that is sent alike. -/
def FieldKind.ReadsAnew (kind : FieldKind) : Prop :=
  ∀ ⦃name : String⦄ ⦃w : Value⦄ ⦃j : Json⦄, Plain w → kind.Throughout FieldKind.Takes w →
    kind.toJson name w = .ok j →
      ∃ u, kind.toValue name j none = .ok u ∧ kind.SentAlike u w ∧ Plain u

/-- What is found for a field with a value: if it is `present`, a plain value that is sent
    alike, and nothing otherwise. -/
def Field.Recovered (f : Field) (v : Value) (present : Bool) (u? : Option Value) : Prop :=
  if present then ∃ u, u? = some u ∧ f.kind.SentAlike u v ∧ Plain u else u? = none

/-- A field is sent, and not as empty. -/
def Field.isFull (f : Field) (v : Value) : Bool := f.isSent v && !v.equals f.kind.empty

section OneField

variable {f : Field} {v : Value} {remote : Assoc Json}

/-- **Over a prior that leaves it unset, a field brings what was sent, unless this is
    empty.** -/
theorem Field.declared?_unset (hkind : f.kind.ReadsAnew) (hv : Plain v)
    (htakes : f.kind.Throughout FieldKind.Takes v) (h : f.HeldAsSent v remote)
    {prior : Assoc Value} (hunset : Assoc.get? prior f.name = none) :
    ∃ u?, f.declared? remote (some prior) = .ok u? ∧
      f.Recovered v (f.isFull v) u? := by
  have hprior : priorValue? (some prior) f.name = none := hunset
  unfold HeldAsSent at h
  unfold isFull
  cases hsent : f.isSent v with
  | false =>
      rw [hsent, if_neg Bool.false_ne_true] at h
      refine ⟨none, ?_, rfl⟩
      rw [declared?, h, hprior]
  | true =>
      rw [hsent, if_pos rfl] at h
      obtain ⟨j, hj, hget⟩ := h
      have hcleared := isCleared_iff_equals_empty htakes.here hj
      have hset : unsetIn (some prior) f.name = true := by
        show (Assoc.get? prior f.name).all isAbsent = true
        rw [hunset]
        rfl
      rw [declared?, hget, hset, hprior]
      cases hempty : v.equals f.kind.empty with
      | true =>
          rw [hempty] at hcleared
          refine ⟨none, ?_, rfl⟩
          simp only [hcleared.mpr rfl, Bool.and_self, if_true]
      | false =>
          have hfull : f.kind.isCleared j = false := by
            rw [Bool.eq_false_iff]
            intro h
            rw [hcleared.mp h] at hempty
            exact Bool.noConfusion hempty
          obtain ⟨u, hu, halike, hplain⟩ := hkind hv htakes hj
          refine ⟨some u, ?_, u, rfl, halike, hplain⟩
          simp only [hfull, Bool.and_false, Bool.false_eq_true, if_false, hu]
          rfl

private theorem toJson_ne_null {kind : FieldKind} {name : String}
    (h : kind.toJson name v = .ok .null) : False := by
  cases kind with
  | string => cases v <;> exact nomatch h
  | bool => cases v <;> exact nomatch h
  | int =>
      cases v with
      | number x =>
          obtain ⟨z, -, hz⟩ := toJsonInt_eq_ok h
          exact nomatch hz
      | _ => exact nomatch h
  | list | set =>
      obtain ⟨ss, -, hss⟩ := Except.map_eq_ok h
      exact nomatch hss
  | table t =>
      obtain ⟨_, _, -, -, hj⟩ := toJson_table_cases h
      exact nomatch hj

/-- A section has nothing to say about a field if and only if it is not full. -/
theorem Field.HeldAsSent.isCleared_eq (h : f.HeldAsSent v remote) (htakes : f.kind.Takes v) :
    (f.readOnly || match Assoc.get? remote f.remote with
      | none => true
      | some .null => true
      | some j => f.kind.isCleared j) = !f.isFull v := by
  unfold HeldAsSent at h
  unfold isFull
  cases hsent : f.isSent v with
  | false =>
      rw [hsent, if_neg Bool.false_ne_true] at h
      rw [h]
      simp
  | true =>
      rw [hsent, if_pos rfl] at h
      obtain ⟨j, hj, hget⟩ := h
      have hwritten : f.readOnly = false := by
        rw [isSent, Bool.and_eq_true, Bool.not_eq_true'] at hsent
        exact hsent.1
      have hcleared : f.kind.isCleared j = v.equals f.kind.empty := by
        rw [Bool.eq_iff_iff]
        exact isCleared_iff_equals_empty htakes hj
      rw [hget, hwritten, Bool.false_or, Bool.true_and, Bool.not_not, ← hcleared]
      cases j with
      | null => exact (toJson_ne_null hj).elim
      | _ => rfl

end OneField

section Fields

variable {fields : List Field} {values : Assoc Value} {remote : Assoc Json}

/-- **Fields whose values are held as they were sent are read anew.** -/
theorem exists_declared_anew (hkinds : ∀ f ∈ fields, f.kind.ReadsAnew)
    (hn : (fields.map (·.name)).Nodup) (hplain : Plain (.map values))
    (htakes : FieldsThroughout FieldKind.Takes fields values)
    (h : ∀ f ∈ fields, f.HeldAsSent (getOrNull values f.name) remote) :
    ∃ entries, declaredEntries fields remote none = .ok entries ∧
      ∀ f ∈ fields, f.Recovered (getOrNull values f.name)
        (f.isSent (getOrNull values f.name))
        (Assoc.get? (Assoc.ofEntries entries) f.name) := by
  refine exists_declared_of_held ?_ hn h
  intro f hf j hj
  exact hkinds f hf (hplain.getOrNull f.name) (fieldsThroughout_iff.mp htakes f hf) hj

end Fields

/-! ## All kinds -/

section Row

variable {fields : List Field} {row : Assoc Value}

private theorem get?_pruneRow_isSent (hn : (fields.map (·.name)).Nodup) {f : Field}
    (hf : f ∈ fields) : Assoc.get? (pruneRow Field.isSent fields row) f.name =
      if f.isSent (getOrNull row f.name) then
        some (f.kind.prune Field.isSent (getOrNull row f.name)) else none := by
  rw [get?_pruneRow hn hf]
  cases hv : Assoc.get? row f.name with
  | none =>
      have hnull : getOrNull row f.name = .null := by rw [getOrNull, hv]; rfl
      rw [hnull, Field.isSent]
      simp [isAbsent]
  | some v =>
      rw [getOrNull_of_get? hv, Option.filter_some]
      cases hsent : f.isSent v with
      | false => rfl
      | true =>
          have hwritten : f.readOnly = false := by
            rw [Field.isSent, Bool.and_eq_true, Bool.not_eq_true'] at hsent
            exact hsent.1
          simp only [if_true, Option.map_some, Field.prune, hwritten, Bool.false_eq_true,
            if_false]

private theorem sentRow_eq_pruneRow (hn : (fields.map (·.name)).Nodup)
    (h : ∀ f ∈ fields, f.isSent (getOrNull row f.name) = true →
      f.kind.asSent (getOrNull row f.name) =
        f.kind.prune Field.isSent (getOrNull row f.name)) :
    sentRow fields row = pruneRow Field.isSent fields row := by
  refine Assoc.ext_of_sorted sorted_sentRow sorted_pruneRow ?_
  intro q
  by_cases hq : q ∈ fields.map (·.name)
  · obtain ⟨f, hf, rfl⟩ := List.mem_map.mp hq
    rw [get?_sentRow hn hf, get?_pruneRow_isSent hn hf]
    split
    · next hsent => rw [h f hf hsent]
    · rfl
  · rw [get?_sentRow_of_not_mem hq, get?_pruneRow_of_not_mem hq]

end Row

/-- **A value whose collections have the kinds of their fields is sent as what remains of
    it.** -/
theorem FieldKind.asSent_eq_prune {kind : FieldKind} {name label : String}
    {w : Value} {j : Json} (hnaming : kind.checkNaming name = .ok ())
    (htakes : kind.Throughout FieldKind.Takes w) (hj : kind.toJson label w = .ok j) :
    kind.asSent w = kind.prune Field.isSent w := by
  induction kind using FieldKind.induction generalizing name label w j with
  | table table ih =>
      have hfields := checkNaming_table hnaming
      obtain ⟨hhere, hrows⟩ := FieldKind.throughout_table_iff.mp htakes
      obtain ⟨rows, sent, hitems, hsent, -⟩ := toJson_table_cases hj
      obtain rfl : w = table.valueOf rows := eq_valueOf hitems hhere
      rw [rows_of_elements? hitems] at hrows
      rw [FieldKind.asSent_table, FieldKind.prune_table, mapRows_valueOf,
        rows_of_elements? hitems]
      congr 1
      refine List.map_congr_left ?_
      intro row hrow
      obtain ⟨i, hi, rfl⟩ := List.getElem_of_mem hrow
      refine sentRow_eq_pruneRow (checkNaming_names hfields) ?_
      intro f hf hfsent
      have hheld := heldAsSent_of_sent (hsent.get hi (hsent.length_eq ▸ hi))
        (checkNaming_remotes hfields) hf
      unfold Field.HeldAsSent at hheld
      rw [List.get_eq_getElem, hfsent, if_pos rfl] at hheld
      obtain ⟨i, hi, -⟩ := hheld
      exact ih f hf (checkNaming_kinds hfields f hf)
        (fieldsThroughout_iff.mp (hrows _ hrow) f hf) hi
  | list =>
      cases w with
      | list items => rfl
      | set items => exact absurd rfl htakes
      | _ => exact nomatch hj
  | set =>
      cases w with
      | set items => rfl
      | list items => exact absurd rfl htakes
      | _ => exact nomatch hj
  | string | bool | int => rfl

/-- **What was sent is read anew as what is sent alike**, for every kind whose names
    correspond. -/
theorem FieldKind.readsAnew (kind : FieldKind) {name : String}
    (hnaming : kind.checkNaming name = .ok ()) : kind.ReadsAnew := by
  intro label w j _ htakes hj
  obtain ⟨u, hu, hread⟩ := kind.readsSent hnaming hj
  refine ⟨u, hu, ?_, hread.plain⟩
  rw [SentAlike, hread.whole, ← asSent_eq_prune hnaming htakes hj]
  exact hread.equal

end TrafficConfig
