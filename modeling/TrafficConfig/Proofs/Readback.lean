import TrafficConfig.Proofs.Pruning
import TrafficConfig.Proofs.Rounding
import TrafficConfig.Proofs.RemoteRows
import TrafficConfig.Proofs.Sync

/-!
# What was sent is read back

A value that was sent is read over a prior value that equals it:

* **`FieldKind.ReadsBack`** — what is read equals the prior value. It is shown for each
  kind; a table reads every row over the row that it was sent for, since the key was sent
  with it;
* **`Field.readsBack`** — a field that a document holds in sync with a prior brings what
  the prior has. A field that is unset stays unset as long as the document holds nothing
  but the cleared value;
* **`exists_declared`** — fields that are all read back make up the prior again.
-/

namespace TrafficConfig

open Value ChangeSet

/-- What an equal value is sent as is read, over a value that can be traced, as what fields
    know of it. -/
def FieldKind.ReadsBack (kind : FieldKind) : Prop :=
  ∀ ⦃name : String⦄ ⦃w v : Value⦄ ⦃j : Json⦄, NaNFree w → Plain v →
    w.equals v = true → kind.Throughout FieldKind.Traceable v → kind.toJson name w = .ok j →
      ∃ u, kind.toValue name j (some v) = .ok u ∧ u.equals (kind.known v) = true ∧ NaNFree u

/-! ## Scalars and strings -/

private theorem readsBack_string : FieldKind.string.ReadsBack := by
  intro name w v j hw _ h _ hj
  cases w with
  | string s =>
      obtain rfl := equals_string_iff.mp h
      obtain rfl : Json.string s = j := Except.ok.inj hj
      exact ⟨.string s, rfl, equals_refl hw, hw⟩
  | _ => exact nomatch hj

private theorem readsBack_bool : FieldKind.bool.ReadsBack := by
  intro name w v j hw _ h _ hj
  cases w with
  | bool b =>
      obtain rfl := equals_bool_iff.mp h
      obtain rfl : Json.bool b = j := Except.ok.inj hj
      exact ⟨.bool b, rfl, equals_refl hw, hw⟩
  | _ => exact nomatch hj

/-- A number that is sent as an integer is one. -/
theorem toJsonInt_eq_ok {x : Number} {j : Json}
    (h : (Value.number x).toJsonInt = .ok j) : ∃ z, x.toInt? = some z ∧ j = .int z := by
  rw [toJsonInt] at h
  cases hz : x.toInt? with
  | none => simp only [hz] at h; exact nomatch h
  | some z =>
      simp only [hz] at h
      split at h
      · exact ⟨z, rfl, (Except.ok.inj h).symm⟩
      · exact nomatch h

private theorem readsBack_int : FieldKind.int.ReadsBack := by
  intro name w v j _ _ h _ hj
  cases w with
  | number x =>
      obtain ⟨y, rfl, hxy⟩ := equals_number_iff.mp h
      obtain ⟨z, hz, rfl⟩ := toJsonInt_eq_ok hj
      -- the integer is read as a number that stands where both stand
      obtain ⟨q, hq, hx⟩ := Number.equals_iff.mp (Number.equals_ofInt_of_toInt? hz)
      obtain ⟨q', hx', hy⟩ := Number.equals_iff.mp hxy
      obtain rfl : q = q' := Option.some.inj (hx.symm.trans hx')
      refine ⟨.number (Number.ofInt z), rfl, Number.equals_iff.mpr ⟨q, hq, hy⟩, ?_⟩
      intro hnan
      rw [Value.number.inj hnan] at hq
      exact nomatch hq
  | _ => exact nomatch hj

/-- A collection whose strings can be taken holds strings only. -/
theorem elements?_of_toStrings {v : Value} {ss : List String}
    (h : v.toStrings = .ok ss) : v.elements? = some (ss.map .string) := by
  rw [toStrings] at h
  cases hv : v.elements? with
  | none => rw [hv] at h; exact nomatch h
  | some items =>
      rw [hv] at h
      have hall := Except.mapM_eq_ok_iff.mp h
      congr 1
      clear h hv
      induction hall with
      | nil => rfl
      | @cons item s _ _ hitem _ ih =>
          cases item with
          | string t =>
              obtain rfl := Except.ok.inj hitem
              rw [ih, List.map_cons]
          | _ => exact nomatch hitem

/-- A collection of strings has these strings. -/
theorem toStrings_of_elements {v : Value} {ss : List String}
    (h : v.elements? = some (ss.map .string)) : v.toStrings = .ok ss := by
  rw [toStrings, h]
  refine Except.mapM_eq_ok_iff.mpr ?_
  rw [List.forall₂_map_left_iff]
  exact List.forall₂_same.mpr fun _ _ => rfl

/-- An array of strings is read as these strings. -/
theorem toValueStrings_strings (ss : List String) :
    (Json.array (ss.map .string)).toValueStrings = .ok (ss.map .string) := by
  refine Except.mapM_eq_ok_iff.mpr ?_
  induction ss with
  | nil => exact .nil
  | cons s rest ih => exact .cons rfl ih

private theorem readsBack_list : FieldKind.list.ReadsBack := by
  intro name w v j hw _ h htrace hj
  obtain ⟨ss, hss, rfl⟩ := Except.map_eq_ok hj
  have hitems := elements?_of_toStrings hss
  cases w with
  | list items =>
      obtain rfl := Option.some.inj hitems
      refine ⟨.list (ss.map .string), ?_, h, hw⟩
      show (Json.array (ss.map .string)).toValueStrings.map Value.list = _
      rw [toValueStrings_strings]
      rfl
  | set items => exact absurd (kindName_eq_of_equals h).symm htrace.1
  | _ => exact nomatch hitems

private theorem readsBack_set : FieldKind.set.ReadsBack := by
  intro name w v j hw _ h htrace hj
  obtain ⟨ss, hss, rfl⟩ := Except.map_eq_ok hj
  have hitems := elements?_of_toStrings hss
  cases w with
  | set items =>
      obtain rfl := Option.some.inj hitems
      refine ⟨.set (ss.map .string), ?_, h, hw⟩
      show (Json.array (ss.map .string)).toValueStrings.map Value.set = _
      rw [toValueStrings_strings]
      rfl
  | list items => exact absurd (kindName_eq_of_equals h).symm htrace.1
  | _ => exact nomatch hitems

/-! ## One field -/

/-- A field has something to send when its value is not absent. -/
theorem Field.toJson?_eq_some_iff {f : Field} {v : Value} {j : Json} :
    f.toJson? v = .ok (some j) ↔ v.isAbsent = false ∧ f.kind.toJson f.name v = .ok j := by
  rw [Field.toJson?]
  cases v.isAbsent with
  | true => simp
  | false =>
      rw [if_neg Bool.false_ne_true]
      cases f.kind.toJson f.name v with
      | error e => exact ⟨by rintro ⟨⟩, by rintro ⟨-, ⟨⟩⟩⟩
      | ok i =>
          constructor
          · intro h
            rw [Option.some.inj (Except.ok.inj h)]
            exact ⟨rfl, rfl⟩
          · rintro ⟨-, h⟩
            rw [Except.ok.inj h]
            rfl

/-- What is read under a name equals what is expected there, and has no not-a-number. -/
structure ReadsAs (v? w? : Option Value) : Prop where
  equal : Option.Rel (fun v w => equals v w = true) v? w?
  nanFree : ∀ v ∈ v?, NaNFree v

/-- A value without a not-a-number reads as itself. -/
theorem ReadsAs.refl {v? : Option Value} (h : ∀ v ∈ v?, NaNFree v) : ReadsAs v? v? := by
  refine ⟨?_, h⟩
  cases v? with
  | none => exact .none
  | some v => exact .some (equals_refl (h v rfl))

/-- Maps in ascending order are equal when they are read as each other under every
    name. -/
theorem sameEntries_of_readsAs {es fs : Assoc Value} (hes : Assoc.Sorted es)
    (hfs : Assoc.Sorted fs) (h : ∀ q, ReadsAs (Assoc.get? es q) (Assoc.get? fs q)) :
    sameEntries equals es fs = true ∧ NaNFree (.map es) := by
  refine ⟨sameEntries_of_get?_rel hes hfs fun q => (h q).equal,
    everywhere_map.mpr ⟨(fun hnan => nomatch hnan), ?_⟩⟩
  intro e he
  exact (h e.1).nanFree e.2 (Assoc.get?_of_mem (Assoc.nodup_keys_of_sorted hes) he)

/-- What plain values hold under a name. -/
theorem Value.Plain.readsAs {p : Assoc Value} (hp : Plain (.map p)) (q : String) :
    ReadsAs (Assoc.get? p q) (Assoc.get? p q) :=
  .refl fun _ hv => (everywhere_map.mp hp.nanFree).2 _ (Assoc.mem_of_get? hv)

/-- A field brings what it knows of a prior. -/
def Field.ReadsBack (f : Field) (remote : Assoc Json) (p : Assoc Value) : Prop :=
  ∃ v?, f.declared? remote (some p) = .ok v? ∧
    ReadsAs v? ((Assoc.get? p f.name).map f.known)

/-- What is held for a field mirrors a value: there is nothing for a field that is only
    read, and something in sync with the value otherwise. -/
def Field.Mirrors (f : Field) (held : Option Json) (v : Value) : Prop :=
  if f.readOnly then held = none else f.InSync NaNFree held v

section OneField

variable {f : Field} {remote : Assoc Json} {p : Assoc Value}

/-- A field that keeps its prior value is read back when it knows all of this value. -/
theorem readsBack_of_kept (hp : Plain (.map p))
    (h : f.declared? remote (some p) = .ok (Assoc.get? p f.name))
    (hknown : f.known (getOrNull p f.name) = getOrNull p f.name) : f.ReadsBack remote p := by
  refine ⟨Assoc.get? p f.name, h, ?_⟩
  have hsame : (Assoc.get? p f.name).map f.known = Assoc.get? p f.name := by
    rw [getOrNull] at hknown
    cases hv : Assoc.get? p f.name with
    | none => rfl
    | some v =>
        rw [hv] at hknown
        exact congrArg some hknown
  rw [hsame]
  exact hp.readsAs f.name

private theorem known_of_isBlank {v : Value} (h : isBlank v = true) : f.known v = v :=
  Field.known_eq_of_kind (f.kind.known_of_isBlank h)

/-- An empty collection of the right kind is read from the cleared value. -/
theorem toValue_cleared {kind : FieldKind} (name : String) {v : Value}
    (hblank : isBlank v = true) (hpresent : v.isAbsent = false) (htakes : kind.Takes v) :
    kind.toValue name kind.cleared (some v) = .ok v := by
  have hempty : v = .list [] ∨ v = .set [] := by
    refine (isBlank_iff.mp hblank).resolve_left ?_
    rintro rfl
    exact Bool.noConfusion hpresent
  cases kind with
  | list =>
      rcases hempty with rfl | rfl
      · rfl
      · exact absurd rfl htakes
  | set =>
      rcases hempty with rfl | rfl
      · exact absurd rfl htakes
      · rfl
  | table table =>
      have hkind : v.kindName ≠ (if table.ordered then "set" else "list") := htakes
      have harrange : Rows.arrange table (priorRows (some v)) [] = [] :=
        List.perm_nil.mp (Rows.arrange_perm table _ [])
      show (FieldKind.table table).toValue name (.array []) (some v) = _
      rw [FieldKind.toValue_table]
      show Except.ok (table.valueOf (Rows.arrange table (priorRows (some v)) [])) = _
      rw [harrange, Table.valueOf]
      rcases hempty with rfl | rfl
      · by_cases hordered : table.ordered = true
        · rw [if_pos hordered]
          rfl
        · rw [if_neg hordered] at hkind
          exact absurd rfl hkind
      · by_cases hordered : table.ordered = true
        · rw [if_pos hordered] at hkind
          exact absurd rfl hkind
        · rw [if_neg hordered]
          rfl
  | string | bool | int =>
      rcases hempty with rfl | rfl
      · exact absurd rfl htakes.1
      · exact absurd rfl htakes.2

private theorem get?_of_present (h : (getOrNull p f.name).isAbsent = false) :
    Assoc.get? p f.name = some (getOrNull p f.name) := by
  refine get?_of_getOrNull rfl ?_
  intro hnull
  rw [hnull] at h
  exact Bool.noConfusion h

/-- A field that the remote side omits keeps its prior value. -/
theorem declared?_of_omitted (h : Assoc.get? remote f.remote = none) :
    f.declared? remote (some p) = .ok (Assoc.get? p f.name) := by
  rw [Field.declared?, h]
  rfl

/-- A field that is unset keeps its prior value over the cleared one: nothing has to be said
    about it. -/
theorem declared?_of_unset (h : (getOrNull p f.name).isAbsent = true)
    (hcleared : Assoc.get? remote f.remote = some f.kind.cleared) :
    f.declared? remote (some p) = .ok (Assoc.get? p f.name) := by
  have hunset : unsetIn (some p) f.name = true := by
    show (Assoc.get? p f.name).all isAbsent = true
    rw [getOrNull] at h
    cases hg : Assoc.get? p f.name with
    | none => rfl
    | some v =>
        rw [hg] at h
        exact h
  rw [Field.declared?, hcleared]
  simp only [hunset, (FieldKind.isCleared_iff f.kind f.kind.cleared).mpr rfl,
    Bool.and_self, if_true]
  rfl

/-- A field that is set is read back when its remote value is read as what it knows. -/
theorem readsBack_of_read {j : Json} {u : Value}
    (hpresent : (getOrNull p f.name).isAbsent = false)
    (hj : Assoc.get? remote f.remote = some j)
    (hu : f.kind.toValue f.name j (some (getOrNull p f.name)) = .ok u)
    (heq : u.equals (f.known (getOrNull p f.name)) = true) (hnan : NaNFree u) :
    f.ReadsBack remote p := by
  have hget := get?_of_present hpresent
  refine ⟨some u, ?_, ?_, ?_⟩
  · have hset : unsetIn (some p) f.name = false := by
      show (Assoc.get? p f.name).all isAbsent = false
      rw [hget]
      exact hpresent
    have hprior : priorValue? (some p) f.name = some (getOrNull p f.name) := hget
    rw [Field.declared?, hj]
    simp only [hset, Bool.false_and, Bool.false_eq_true, if_false, hprior, hu]
    rfl
  · rw [hget]
    exact .some heq
  · intro v hv
    obtain rfl := Option.some.inj hv
    exact hnan

/-- **A field that mirrors a prior brings what it knows of it.** -/
theorem Field.readsBack (hkind : f.kind.ReadsBack) (hp : Plain (.map p))
    (htrace : f.kind.Throughout FieldKind.Traceable (getOrNull p f.name))
    (h : f.Mirrors (Assoc.get? remote f.remote) (getOrNull p f.name)) :
    f.ReadsBack remote p := by
  have hv : Plain (getOrNull p f.name) := hp.getOrNull f.name
  unfold Field.Mirrors at h
  cases hread : f.readOnly with
  | true =>
      rw [hread, if_pos rfl] at h
      exact readsBack_of_kept hp (declared?_of_omitted h) (Field.known_of_readOnly hread _)
  | false =>
      rw [hread, if_neg Bool.false_ne_true] at h
      rcases h with ⟨w, j, hw, heq, hj, hheld⟩ | ⟨hblank, hnone | hcleared⟩
      · -- only what is set was sent, so the field is set in the prior too
        obtain ⟨hwp, hi⟩ := Field.toJson?_eq_some_iff.mp hj
        obtain ⟨u, hu, hueq, hnan⟩ := hkind hw hv heq htrace hi
        rw [← Field.known_of_writable hread] at hueq
        exact readsBack_of_read ((isAbsent_eq_of_equals heq).symm.trans hwp) hheld hu hueq hnan
      · exact readsBack_of_kept hp (declared?_of_omitted hnone) (known_of_isBlank hblank)
      · cases habsent : (getOrNull p f.name).isAbsent with
        | true =>
            exact readsBack_of_kept hp (declared?_of_unset habsent hcleared)
              (known_of_isBlank hblank)
        | false =>
            have hcleared' := toValue_cleared f.name hblank habsent htrace.here.1
            refine readsBack_of_read habsent hcleared hcleared' ?_ hv.nanFree
            rw [known_of_isBlank hblank]
            exact equals_refl hv.nanFree

end OneField

/-! ## All fields -/

/-- Fields that are all read back can be read. -/
theorem exists_declaredEntries_of_readsBack {fields : List Field} {remote : Assoc Json}
    {p : Assoc Value} (h : ∀ f ∈ fields, f.ReadsBack remote p) :
    ∃ entries, declaredEntries fields remote (some p) = .ok entries := by
  refine exists_declaredEntries ?_
  intro f hf
  obtain ⟨v?, hv, -⟩ := h f hf
  exact ⟨v?, hv⟩

/-- **Fields that are all read back make up what they know of the prior.** -/
theorem exists_declared {fields : List Field} {remote : Assoc Json} {p : Assoc Value}
    (hn : (fields.map (·.name)).Nodup) (h : ∀ f ∈ fields, f.ReadsBack remote p) :
    ∃ entries, declaredEntries fields remote (some p) = .ok entries ∧
      sameEntries equals (Assoc.ofEntries entries) (knownRow fields p) = true ∧
        NaNFree (.map (Assoc.ofEntries entries)) := by
  obtain ⟨entries, hentries⟩ := exists_declaredEntries_of_readsBack h
  have hsorted := Assoc.sorted_ofEntries entries
  refine ⟨entries, hentries, sameEntries_of_readsAs hsorted sorted_pruneRow ?_⟩
  intro q
  by_cases hq : q ∈ fields.map (·.name)
  · obtain ⟨f, hf, rfl⟩ := List.mem_map.mp hq
    obtain ⟨v?, hv, hread⟩ := h f hf
    rw [get?_declared_of_mem hentries hn hf] at hv
    obtain rfl := Except.ok.inj hv
    rw [get?_knownRow hn hf]
    exact hread
  · have hnone : Assoc.get? (Assoc.ofEntries entries) q = none := by
      refine get?_declared_eq_none hentries ?_
      intro f hf hname
      apply hq
      rw [← hname]
      exact List.mem_map_of_mem hf
    rw [hnone, get?_knownRow_of_not_mem hq]
    exact .refl fun _ hv => nomatch hv

/-! ## Tables -/

/-- A table that was sent holds maps only, and each of them was sent as a row. -/
theorem toJson_table_cases {table : Table} {name : String} {w : Value} {j : Json}
    (h : (FieldKind.table table).toJson name w = .ok j) :
    ∃ rows sent, w.elements? = some (rows.map .map) ∧
      List.Forall₂ (fun row entries => remoteEntries table.fields row = .ok entries)
        rows sent ∧
        j = .array (sent.map fun entries => .object (Assoc.ofEntries entries)) := by
  obtain ⟨fields, key, ordered⟩ := table
  rw [FieldKind.toJson] at h
  cases hw : w.elements? with
  | none => rw [hw] at h; exact nomatch h
  | some items =>
      rw [hw] at h
      obtain ⟨js, hjs, hj⟩ := Except.bind_eq_ok h
      obtain rfl := Except.ok.inj hj
      have hall := Except.mapM_eq_ok_iff.mp hjs
      clear hw h hj hjs
      induction hall with
      | nil => exact ⟨[], [], rfl, .nil, rfl⟩
      | @cons item j _ _ hitem _ ih =>
          obtain ⟨rows, sent, hrows, hsent, hj⟩ := ih
          cases item with
          | map row =>
              obtain ⟨entries, hentries, hj'⟩ := Except.bind_eq_ok hitem
              obtain rfl := Except.ok.inj hj'
              refine ⟨row :: rows, entries :: sent, ?_, .cons hentries hsent, ?_⟩
              · rw [Option.some.inj hrows, List.map_cons]
              · rw [Json.array.inj hj, List.map_cons]
          | _ => exact nomatch hitem

private theorem toJson_of_string {kind : FieldKind} {name s : String} {j : Json}
    (h : kind.toJson name (.string s) = .ok j) : j = .string s := by
  cases kind with
  | string => exact (Except.ok.inj h).symm
  | table table =>
      obtain ⟨fields, key, ordered⟩ := table
      exact nomatch h
  | _ => exact nomatch h

section Row

variable {fields : List Field} {row : Assoc Value} {entries : List (String × Json)}

/-- What a row was sent with for a field: nothing, or what its value is sent as. -/
theorem get?_sent (h : remoteEntries fields row = .ok entries)
    (hn : (fields.map (·.remote)).Nodup) {f : Field} (hf : f ∈ fields) :
    (Assoc.get? (Assoc.ofEntries entries) f.remote = none ∧
        ¬(f.readOnly = false ∧ (getOrNull row f.name).isAbsent = false)) ∨
      f.readOnly = false ∧ ∃ j, f.toJson? (getOrNull row f.name) = .ok (some j) ∧
        Assoc.get? (Assoc.ofEntries entries) f.remote = some j := by
  obtain ⟨hwritten, hcomplete⟩ := remoteEntries_spec h
  cases hj : Assoc.get? (Assoc.ofEntries entries) f.remote with
  | none =>
      left
      refine ⟨rfl, ?_⟩
      intro hsent
      obtain ⟨j, hmem⟩ := hcomplete f hf hsent
      rw [Assoc.get?_ofEntries_eq_none] at hj
      exact hj j hmem
  | some j =>
      right
      obtain ⟨g, hg, hremote, hsent, hsentAs⟩ :=
        hwritten _ _ (Assoc.mem_of_get?_ofEntries hj)
      obtain rfl : g = f := List.inj_on_of_nodup_map hn hg hf hremote
      obtain ⟨sent?, hsent?, hgetD⟩ := Except.map_eq_ok hsentAs
      cases sent? with
      | none =>
          rw [Field.toJson?_eq_none_iff, hsent.2] at hsent?
          exact Bool.noConfusion hsent?
      | some i =>
          obtain rfl : i = j := hgetD
          exact ⟨hsent.1, i, hsent?, rfl⟩

variable {earlier : List (Assoc Value)} {p : Assoc Value}

private theorem matchingRow?_of_sent (h : remoteEntries fields row = .ok entries)
    (hnames : (fields.map (·.name)).Nodup) (hremotes : (fields.map (·.remote)).Nodup)
    {f : Field} (hf : f ∈ fields) (hwritten : f.readOnly = false)
    (hkeyed : KeyedRows (some f.name) earlier) (hp : p ∈ earlier)
    (hs : sameEntries equals row p = true) :
    matchingRow? fields (some f.name) earlier (Assoc.ofEntries entries) = some p := by
  obtain ⟨id, hid⟩ := Option.isSome_iff_exists.mp ((hkeyed f.name rfl).1 p hp)
  have hrow : keyOf f.name row = some id := (keyOf_eq_of_sameEntries hs f.name).trans hid
  -- the key is a string, and it is sent as this string
  have hvalue : getOrNull row f.name = .string id := by
    obtain ⟨v, hv, hstring⟩ := Option.bind_eq_some_iff.mp hrow
    rw [getOrNull_of_get? hv]
    cases v with
    | string s => exact congrArg Value.string (Option.some.inj hstring)
    | _ => exact nomatch hstring
  have hsent : Assoc.get? (Assoc.ofEntries entries) f.remote = some (.string id) := by
    rcases get?_sent h hremotes hf with ⟨-, hnot⟩ | ⟨-, j, hj, hget⟩
    · rw [hvalue] at hnot
      exact absurd ⟨hwritten, rfl⟩ hnot
    · rw [hvalue] at hj
      rw [hget, toJson_of_string (Field.toJson?_eq_some_iff.mp hj).2]
  show ((Assoc.get? (Assoc.ofEntries entries) (remoteKey fields f.name)).bind
    Json.asString?).bind
    (Rows.find? earlier f.name) = some p
  rw [remoteKey_of_mem hnames hf, hsent]
  exact Rows.find?_of_mem hkeyed hp hid

private theorem mirrors_of_sent (h : remoteEntries fields row = .ok entries)
    (hremotes : (fields.map (·.remote)).Nodup) (hrow : NaNFree (.map row))
    (hplain : Plain (.map p)) (hs : sameEntries equals row p = true) {f : Field}
    (hf : f ∈ fields) :
    f.Mirrors (Assoc.get? (Assoc.ofEntries entries) f.remote) (getOrNull p f.name) := by
  have heq := equals_getOrNull hs f.name
  unfold Field.Mirrors
  rcases get?_sent h hremotes hf with ⟨hnone, hnot⟩ | ⟨hwritten, j, hj, hget⟩
  · rw [hnone]
    split
    · rfl
    · next hread =>
        -- nothing was sent for what is not set
        have habsent : (getOrNull p f.name).isAbsent = true := by
          rw [← isAbsent_eq_of_equals heq]
          by_contra hpresent
          exact hnot ⟨Bool.eq_false_iff.mpr hread, Bool.eq_false_iff.mpr hpresent⟩
        have hnull : getOrNull p f.name = .null := by
          cases hv : getOrNull p f.name with
          | null => rfl
          | unknown => exact absurd hv (hplain.getOrNull f.name).unknownFree.here
          | _ => rw [hv] at habsent; exact Bool.noConfusion habsent
        rw [hnull]
        exact .inr ⟨rfl, .inl rfl⟩
  · rw [hwritten, if_neg Bool.false_ne_true]
    refine .inl ⟨getOrNull row f.name, j, ?_, heq, hj, hget⟩
    exact everywhere_getOrNull (everywhere_map.mp hrow).2 nanFree_null f.name

/-- Fields know the key of a row. -/
theorem keyOf_knownRow (hn : (fields.map (·.name)).Nodup) {f : Field}
    (hf : f ∈ fields) (hkey : (keyOf f.name row).isSome = true) :
    keyOf f.name (knownRow fields row) = keyOf f.name row := by
  obtain ⟨id, hid⟩ := Option.isSome_iff_exists.mp hkey
  obtain ⟨v, hv, hstring⟩ := Option.bind_eq_some_iff.mp hid
  cases v with
  | string s =>
      have hknown : f.known (.string s) = .string s := by
        refine Field.known_eq_of_kind ?_
        cases f.kind with
        | table table => exact FieldKind.known_table table _
        | _ => rfl
      rw [keyOf, keyOf, get?_knownRow hn hf, hv, Option.map_some, hknown]
  | _ => cases hstring

section Table

variable {table : Table} (name : String) (hkinds : ∀ f ∈ table.fields, f.kind.ReadsBack)
  (hnaming : checkNaming table.fields = .ok ()) {f : Field} (hf : f ∈ table.fields)
  (hkey : table.key = some f.name) (hwritten : f.readOnly = false)
  (hkeyed : KeyedRows table.key earlier)
include hkinds hnaming hf hkey hwritten hkeyed

private theorem declaredRow_of_sent (hp : p ∈ earlier) (hplain : Plain (.map p))
    (htrace : FieldsThroughout FieldKind.Traceable table.fields p) (hrow : NaNFree (.map row))
    (hs : sameEntries equals row p = true)
    (h : remoteEntries table.fields row = .ok entries) :
    ∃ read, table.declaredRow name earlier (.object (Assoc.ofEntries entries)) = .ok read ∧
      sameEntries equals read (knownRow table.fields p) = true ∧ NaNFree (.map read) := by
  have hremotes := checkNaming_remotes hnaming
  have hmatching : matchingRow? table.fields table.key earlier
      (Assoc.ofEntries entries) = some p := by
    rw [hkey] at hkeyed ⊢
    exact matchingRow?_of_sent h (checkNaming_names hnaming) hremotes hf
      hwritten hkeyed hp hs
  have hfields : ∀ g ∈ table.fields, g.ReadsBack (Assoc.ofEntries entries) p := fun g hg =>
    Field.readsBack (hkinds g hg) hplain (fieldsThroughout_iff.mp htrace g hg)
      (mirrors_of_sent h hremotes hrow hplain hs hg)
  obtain ⟨read, hread, hsame, hnan⟩ := exists_declared (checkNaming_names hnaming) hfields
  refine ⟨Assoc.ofEntries read, ?_, hsame, hnan⟩
  show (declaredEntries table.fields _
    (matchingRow? table.fields table.key earlier _) >>=
      fun entries => Except.ok (Assoc.ofEntries entries)) = _
  rw [hmatching, hread]
  rfl

private theorem exists_declaredRows {ps rows : List (Assoc Value)}
    {sent : List (List (String × Json))}
    (hmatch : List.Forall₂ (fun row p => sameEntries equals row p = true) rows ps)
    (hsent : List.Forall₂
      (fun row entries => remoteEntries table.fields row = .ok entries) rows sent)
    (hps : ∀ p ∈ ps, p ∈ earlier) (hplain : ∀ p ∈ ps, Plain (.map p))
    (htrace : ∀ p ∈ ps, FieldsThroughout FieldKind.Traceable table.fields p)
    (hnan : ∀ row ∈ rows, NaNFree (.map row)) :
    ∃ read, List.Forall₂ (fun entries row =>
        table.declaredRow name earlier (.object (Assoc.ofEntries entries)) = .ok row) sent
          read ∧
      List.Forall₂ (fun a b => sameEntries equals a b = true) read
        (ps.map (knownRow table.fields)) ∧
      ∀ row ∈ read, NaNFree (.map row) := by
  induction hmatch generalizing sent with
  | nil =>
      cases hsent
      exact ⟨[], .nil, .nil, fun _ hrow => nomatch hrow⟩
  | @cons row p _ _ hs _ ih =>
      cases hsent with
      | cons hentries hsent =>
          rw [List.forall_mem_cons] at hps hplain htrace hnan
          obtain ⟨read, hdeclared, hsame, hall⟩ := ih hsent hps.2 hplain.2 htrace.2 hnan.2
          obtain ⟨first, hfirst, hfirstSame, hfirstNaN⟩ :=
            declaredRow_of_sent name hkinds hnaming hf hkey hwritten hkeyed hps.1
            hplain.1 htrace.1 hnan.1 hs hentries
          exact ⟨first :: read, .cons hfirst hdeclared, .cons hfirstSame hsame,
            List.forall_mem_cons.mpr ⟨hfirstNaN, hall⟩⟩

end Table

end Row

/-- A value that holds maps only, and is not of the other kind, is the table of these
    rows. -/
theorem eq_valueOf {table : Table} {v : Value} {rows : List (Assoc Value)}
    (h : v.elements? = some (rows.map .map))
    (hkind : v.kindName ≠ (if table.ordered then "set" else "list")) :
    v = table.valueOf rows := by
  rw [Table.valueOf]
  by_cases hordered : table.ordered = true
  · rw [if_pos hordered] at hkind ⊢
    cases v with
    | list items => rw [Option.some.inj h]
    | set items => exact absurd rfl hkind
    | _ => cases h
  · rw [if_neg hordered] at hkind ⊢
    cases v with
    | set items => rw [Option.some.inj h]
    | list items => exact absurd rfl hkind
    | _ => cases h

/-- Rows that are equal one by one make up equal tables; the rows of a set may be
    rearranged on both sides. -/
theorem equals_valueOf {table : Table} {arranged read ps rows : List (Assoc Value)}
    (hread : arranged.Perm read) (hps : ps.Perm rows)
    (hordered : table.ordered = true → arranged = read ∧ ps = rows)
    (h : List.Forall₂ (fun a b => sameEntries equals a b = true) read ps)
    (hreadNaN : ∀ row ∈ read, NaNFree (.map row)) (hrows : ∀ row ∈ rows, NaNFree (.map row)) :
    (table.valueOf arranged).equals (table.valueOf rows) = true ∧
      NaNFree (table.valueOf arranged) := by
  have hm : Matching equals (read.map .map) (ps.map .map) := by
    show List.Forall₂ _ (read.map Value.map) (ps.map Value.map)
    rw [List.forall₂_map_left_iff, List.forall₂_map_right_iff]
    refine h.imp ?_
    intro a b hab
    rw [equals_map]
    exact hab
  have hmaps : ∀ {rows : List (Assoc Value)}, (∀ row ∈ rows, NaNFree (.map row)) →
      ∀ item ∈ rows.map Value.map, NaNFree item := by
    intro rows hrows item hitem
    obtain ⟨row, hrow, rfl⟩ := List.mem_map.mp hitem
    exact hrows row hrow
  have harranged := hmaps fun row hrow => hreadNaN row (hread.mem_iff.mp hrow)
  simp only [Table.valueOf]
  by_cases ho : table.ordered = true
  · rw [if_pos ho, if_pos ho]
    obtain ⟨rfl, rfl⟩ := hordered ho
    exact ⟨equals_list_iff.mpr ⟨_, rfl, hm⟩,
      everywhere_list.mpr ⟨(fun hv => Value.noConfusion hv), harranged⟩⟩
  · rw [if_neg ho, if_neg ho]
    refine ⟨equals_set_iff.mpr ⟨_, rfl, ?_⟩,
      everywhere_set.mpr ⟨(fun hv => Value.noConfusion hv), harranged⟩⟩
    rw [equals_congruence.sameMembers_iff harranged (hmaps hrows)]
    obtain ⟨zs, hzs, hp⟩ := List.perm_comp_forall₂ (hread.map Value.map) hm
    exact ⟨zs, hp.trans (hps.map Value.map), hzs⟩

private theorem nanFree_knownRow {fields : List Field} {row : Assoc Value}
    (h : Plain (.map row)) : NaNFree (.map (knownRow fields row)) :=
  (plain_pruneRow h).nanFree

private theorem readsBack_table (table : Table)
    (hkinds : ∀ f ∈ table.fields, f.kind.ReadsBack)
    (hnaming : checkNaming table.fields = .ok ())
    (hkey : ∃ f ∈ table.fields, table.key = some f.name ∧ f.readOnly = false) :
    (FieldKind.table table).ReadsBack := by
  intro name w v j hw hv h htrace hj
  obtain ⟨f, hf, hkey, hwritten⟩ := hkey
  obtain ⟨⟨hkind, hkeyed⟩, hrows⟩ := FieldKind.throughout_table_iff.mp htrace
  have hkeyed : KeyedRows table.key v.rows := hkeyed
  obtain ⟨rows, sent, hitems, hsent, rfl⟩ := toJson_table_cases hj
  have hwrows : w.rows = rows := rows_of_elements? hitems
  obtain ⟨ps, hperm, hmatch, hlist⟩ := exists_matching_rows hw hv.nanFree h
  rw [hwrows] at hmatch
  have hps : ∀ p ∈ ps, p ∈ v.rows := fun p hp => hperm.mem_iff.mp hp
  obtain ⟨read, hdeclared, hsame, hall⟩ :=
    exists_declaredRows name hkinds hnaming hf hkey hwritten hkeyed hmatch hsent hps
      (fun p hp => hv.rows p (hps p hp)) (fun p hp => hrows p (hps p hp))
      (hwrows ▸ everywhere_rows hw)
  -- the rows of an ordered table arrive in the order of the earlier ones
  have hlist' : table.ordered = true → ps = v.rows := by
    intro hordered
    have hkind : v.kindName ≠ (if table.ordered then "set" else "list") := hkind
    rw [hordered, if_pos rfl] at hkind
    exact hlist hkind
  have harrange : table.ordered = true → Rows.arrange table v.rows read = read := by
    intro hordered
    rw [hkey] at hkeyed
    refine Rows.arrange_of_ordered hkey hordered hkeyed ?_
    rw [map_keyOf_of_matching hsame, List.map_map, ← hlist' hordered]
    refine List.map_congr_left fun p hp => ?_
    exact keyOf_knownRow (checkNaming_names hnaming) hf
      ((hkeyed f.name rfl).1 p (hps p hp))
  have hvalue : v = table.valueOf v.rows :=
    eq_valueOf (elements?_of_equals hw hv.nanFree h hitems) hkind
  refine ⟨table.valueOf (Rows.arrange table v.rows read), ?_, ?_⟩
  · have hmapM := Except.mapM_eq_ok_iff.mpr (List.forall₂_map_left_iff.mpr hdeclared)
    rw [FieldKind.toValue_table, show priorRows (some v) = v.rows from rfl, hmapM]
    rfl
  · rw [FieldKind.known_table]
    rw [show v.mapRows (knownRow table.fields) =
        table.valueOf (v.rows.map (knownRow table.fields)) by
      rw [← mapRows_valueOf, ← hvalue]]
    refine equals_valueOf (Rows.arrange_perm table v.rows read) (hperm.map _) ?_ hsame hall ?_
    · exact fun hordered => ⟨harrange hordered, by rw [hlist' hordered]⟩
    · exact List.forall_mem_map.mpr fun row hrow => nanFree_knownRow (hv.rows row hrow)

/-- **What was sent is read back**, for every kind whose names correspond and whose keys
    are sent. -/
theorem FieldKind.readsBack (kind : FieldKind) {name : String}
    (hnaming : kind.checkNaming name = .ok ()) (hkeys : kind.keySent = true) :
    kind.ReadsBack := by
  induction kind using FieldKind.induction generalizing name with
  | table table ih =>
      have hfields := checkNaming_table hnaming
      obtain ⟨hkey, hnested⟩ := keySent_table hkeys
      refine readsBack_table table (fun f hf => ?_) hfields hkey
      exact ih f hf (checkNaming_kinds hfields f hf) (keysSent_iff.mp hnested f hf)
  | string => exact readsBack_string
  | bool => exact readsBack_bool
  | int => exact readsBack_int
  | list => exact readsBack_list
  | set => exact readsBack_set

/-- What was sent for fields is read back. -/
theorem fieldsReadBack {fields : List Field} (hnaming : checkNaming fields = .ok ())
    (hkeys : keysSent fields = true) : ∀ f ∈ fields, f.kind.ReadsBack := fun f hf =>
  f.kind.readsBack (checkNaming_kinds hnaming f hf) (keysSent_iff.mp hkeys f hf)

end TrafficConfig
