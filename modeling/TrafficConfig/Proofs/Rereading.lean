import TrafficConfig.Proofs.Layout
import TrafficConfig.Proofs.Overlay
import TrafficConfig.Proofs.RemoteRows

/-!
# Reading a document again

A document that was read over a prior is read over the state that came out of it. Nothing
changes any more, whatever the document and the prior hold, as long as the rows of keyed
tables carry distinct strings as keys:

* **`Field.declared?_again`** — a field brings again what it brought. What was unset and
  stayed so is still unset, and what was read is not;
* **`FieldKind.readsAgain`** — a value is read again over itself. A row finds the row
  that it was read as by its key, and the rows are in their places already;
* **`Section.toDeclaredInRoot_again`** — a section puts the same into the root. A block
  that stayed as it was stays so, and one that was read is there to be read over;
* **`Resource.rereading_changes_nothing`** — so reading a document is idempotent, for
  every resource type that has documents.
-/

namespace TrafficConfig

open Value

/-! ## Fields -/

/-- What was read is read again over itself. -/
def FieldKind.ReadsAgain (kind : FieldKind) : Prop :=
  ∀ ⦃name : String⦄ ⦃j : Json⦄ ⦃prior : Option Value⦄ ⦃v : Value⦄,
    kind.HeldThroughout FieldKind.KeyedRemote j → kind.toValue name j prior = .ok v →
      kind.toValue name j (some v) = .ok v

section Fields

variable {remote : Assoc Json} {prior : Option (Assoc Value)}

private theorem isCleared_null (kind : FieldKind) : kind.isCleared .null = false := by
  cases kind <;> rfl

/-- **A field brings again what it brought**, over values that have it. -/
theorem Field.declared?_again {f : Field} {v? : Option Value} {next : Assoc Value}
    (hkind : f.kind.ReadsAgain)
    (hkeyed : ∀ j ∈ Assoc.get? remote f.remote, f.kind.HeldThroughout FieldKind.KeyedRemote j)
    (h : f.declared? remote prior = .ok v?) (hnext : Assoc.get? next f.name = v?) :
    f.declared? remote (some next) = .ok v? := by
  have hprior : priorValue? (some next) f.name = v? := hnext
  rw [Field.declared?] at h ⊢
  cases hj : Assoc.get? remote f.remote with
  | none => rw [hprior]
  | some j =>
      simp only [hj] at h ⊢
      have hunset : unsetIn (some next) f.name = v?.all isAbsent := by
        show (Assoc.get? next f.name).all isAbsent = _
        rw [hnext]
      rw [hunset, hprior]
      by_cases hkept : (unsetIn prior f.name && f.kind.isCleared j) = true
      · -- what stayed unset is unset
        rw [if_pos hkept] at h
        obtain ⟨hbefore, hcleared⟩ := Bool.and_eq_true_iff.mp hkept
        have habsent := (Bool.and_eq_true_iff.mp hbefore).2
        rw [Except.ok.inj h] at habsent
        rw [habsent, hcleared]
        rfl
      · rw [if_neg hkept] at h
        obtain ⟨v, hv, rfl⟩ := Except.map_eq_ok h
        have hread : (Option.all isAbsent (some v) && f.kind.isCleared j) = false := by
          by_cases hnull : j = .null
          · rw [hnull, isCleared_null, Bool.and_false]
          · show (v.isAbsent && _) = false
            rw [FieldKind.isAbsent_toValue hv hnull, Bool.false_and]
        rw [hread, if_neg Bool.false_ne_true, hkind (hkeyed j hj) hv]
        rfl

/-- **Fields are read again** over values that have what was read. -/
theorem declaredEntries_again {fields : List Field} {values next : Assoc Value}
    (hkinds : ∀ f ∈ fields, f.kind.ReadsAgain) (hn : (fields.map (·.name)).Nodup)
    (hkeyed : FieldsHeldThroughout FieldKind.KeyedRemote fields remote)
    (h : (declaredEntries fields remote prior).map Assoc.ofEntries = .ok values)
    (hnext : ∀ f ∈ fields, Assoc.get? next f.name = Assoc.get? values f.name) :
    (declaredEntries fields remote (some next)).map Assoc.ofEntries = .ok values := by
  obtain ⟨entries, hentries, rfl⟩ := Except.map_eq_ok h
  have hfields : ∀ f ∈ fields,
      f.declared? remote (some next) = f.declared? remote prior := by
    intro f hf
    have hdeclared := get?_declared_of_mem hentries hn hf
    rw [hdeclared]
    exact Field.declared?_again (hkinds f hf) (fieldsHeldThroughout_iff.mp hkeyed f hf)
      hdeclared (hnext f hf)
  rw [declaredEntries_congr hfields, hentries]
  rfl

end Fields

/-! ## Tables -/

section Table

variable {table : Table} {rows : List (Assoc Value)}

/-- The rows of a table's value are found again. -/
theorem Table.priorRows_valueOf (rows : List (Assoc Value)) :
    priorRows (some (table.valueOf rows)) = rows :=
  rows_of_elements? (table.elements?_valueOf rows)

/-- Rows that were put into their places stay in them. -/
theorem arrange_again {earlier : List (Assoc Value)} (hrows : KeyedRows table.key rows) :
    Rows.arrange table (Rows.arrange table earlier rows) rows =
      Rows.arrange table earlier rows := by
  cases hkey : table.key with
  | none => simp only [Rows.arrange, hkey]
  | some key =>
      cases hordered : table.ordered with
      | false => simp only [Rows.arrange, hkey, hordered]
      | true =>
          have hperm := Rows.arrange_perm table earlier rows
          rw [hkey] at hrows
          exact Rows.arrange_of_perm hkey hordered (hrows.of_perm hperm) hperm.symm

variable (hkinds : ∀ f ∈ table.fields, f.kind.ReadsAgain)
  (hn : (table.fields.map (·.name)).Nodup)
include hkinds hn

private theorem readOver_again {earlier others : List (Assoc Value)} {object : Assoc Json}
    {row : Assoc Value} (hothers : KeyedRows table.key others) (hmem : row ∈ others)
    (hkey : ∀ key ∈ table.key, ∃ id, remoteKeyOf table.fields key object = some id ∧
      keyOf key row = some id)
    (hkeyed : FieldsHeldThroughout FieldKind.KeyedRemote table.fields object)
    (h : table.ReadOver earlier object row) : table.ReadOver others object row := by
  cases hk : table.key with
  | none =>
      -- without a key, no row is found
      unfold Table.ReadOver at h ⊢
      rw [hk] at h ⊢
      exact h
  | some key =>
      obtain ⟨id, hobject, hrow⟩ := hkey key hk
      rw [hk] at hothers
      have hfound : matchingRow? table.fields table.key others object = some row := by
        rw [hk, matchingRow?_eq, hobject]
        exact Rows.find?_of_mem hothers hmem hrow
      unfold Table.ReadOver
      rw [hfound]
      exact declaredEntries_again hkinds hn hkeyed h fun _ _ => rfl

end Table

private theorem readsAgain_table {table : Table}
    (hkinds : ∀ f ∈ table.fields, f.kind.ReadsAgain)
    (hn : (table.fields.map (·.name)).Nodup)
    (hkey : ∀ key ∈ table.key, ∃ f ∈ table.fields, f.name = key) :
    (FieldKind.table table).ReadsAgain := by
  intro name j prior v hheld h
  obtain ⟨hkeyed, hobjects⟩ := FieldKind.heldThroughout_table_iff.mp hheld
  rcases FieldKind.toValue_rows_cases h with ⟨rfl, rfl⟩ | ⟨objects, rows, rfl, hread, rfl⟩
  · exact FieldKind.toValue_null _
  · rw [Json.rows_array] at hobjects
    have hrows := keyedRows_of_read hn hkey hread hkeyed
    have hperm := Rows.arrange_perm table (priorRows prior) rows
    have hplaced := table.priorRows_valueOf (Rows.arrange table (priorRows prior) rows)
    have hagain : List.Forall₂ (table.ReadOver (Rows.arrange table (priorRows prior) rows))
        objects rows := by
      rw [List.forall₂_iff_get] at hread ⊢
      refine ⟨hread.1, ?_⟩
      intro i hi hi'
      have hmem := List.get_mem objects ⟨i, hi⟩
      refine readOver_again hkinds hn (hrows.of_perm hperm)
        (hperm.mem_iff.mpr (List.get_mem rows ⟨i, hi'⟩)) ?_ (hobjects _ hmem)
        (hread.2 i hi hi')
      intro key hk
      obtain ⟨hsome, -⟩ := FieldKind.keyedRemote_objects_iff.mp hkeyed key hk
      obtain ⟨id, hid⟩ := Option.isSome_iff_exists.mp (hsome _ hmem)
      exact ⟨id, hid, keyOf_of_read hn hkey (hread.2 i hi hi') hk hid⟩
    rw [← hplaced] at hagain
    have h := FieldKind.toValue_rows name _ hagain
    rw [hplaced, arrange_again hrows] at h
    exact h

/-- **What was read is read again over itself**, for every kind whose names correspond. -/
theorem FieldKind.readsAgain (kind : FieldKind) {name : String}
    (hnaming : kind.checkNaming name = .ok ()) : kind.ReadsAgain := by
  induction kind using FieldKind.induction generalizing name with
  | table table ih =>
      have hfields := checkNaming_table hnaming
      refine readsAgain_table ?_ (checkNaming_names hfields) ?_
      · intro f hf
        exact ih f hf (checkNaming_kinds hfields f hf)
      · intro key hkey
        exact checkNaming_key hnaming hkey
  | string | bool | int | list | set =>
      -- the kinds without fields do not look at the prior value
      intro name j prior v _ h
      cases j <;> exact h

/-! ## Sections -/

section OneSection

variable {s : Section} {remote : Option (Assoc Json)} {block : String}

/-- A section with a block looks at nothing but this block. -/
theorem toDeclaredInRoot_congr (hb : s.block = some block) {prior next : Assoc Value}
    (h : Assoc.get? next block = Assoc.get? prior block) :
    s.toDeclaredInRoot remote next = s.toDeclaredInRoot remote prior := by
  simp only [Section.toDeclaredInRoot, hb, Section.instance?, h]

private theorem toDeclaredInRoot_of_instance (hb : s.block = some block)
    {prior values read : Assoc Value} (hheld : (remote.getD []).isEmpty = false)
    (hprior : Assoc.get? prior block = some (.list [.map values]))
    (hread : s.toDeclared (remote.getD []) (some values) = .ok read) :
    s.toDeclaredInRoot remote prior = .ok [(block, .list [.map read])] := by
  have hinstance : Section.instance? prior block = .ok (some values) := by
    simp only [Section.instance?, hprior]
  rw [Section.toDeclaredInRoot, hb]
  simp only [hinstance, hheld]
  show (s.toDeclared (remote.getD []) (some values) >>= fun read =>
    Except.ok [(block, Value.list [.map read])]) = _
  rw [hread]
  rfl

end OneSection

section State

variable {sections : List Section} {name : String} {document : Json} {prior state : Value}
  (hn : DistinctNames sections) (hnaming : ∀ s ∈ sections, checkNaming s.fields = .ok ())
  (hkeyed : ∀ s ∈ sections,
    FieldsHeldThroughout FieldKind.KeyedRemote s.fields (s.heldIn document))
  (h : stateOfDocument sections name document prior = .ok state)
include hn hnaming hkeyed h

/-- **A section puts the same into the root** when it is read over the state that came
    out. -/
theorem toDeclaredInRoot_again {s : Section} (hs : s ∈ sections)
    {values : Assoc Value}
    (hvalues : s.toDeclaredInRoot (documentSection? document s.remote) prior.root =
      .ok values) :
    s.toDeclaredInRoot (documentSection? document s.remote) state.root = .ok values := by
  have hkinds : ∀ f ∈ s.fields, f.kind.ReadsAgain := by
    intro f hf
    exact f.kind.readsAgain (checkNaming_kinds (hnaming s hs) f hf)
  cases hb : s.block with
  | none =>
      obtain ⟨read, hread, hview⟩ := get?_stateOfDocument_topLevel h hn hs hb
      rw [toDeclaredInRoot_of_topLevel hb] at hvalues ⊢
      obtain rfl := Except.ok.inj (hread.symm.trans hvalues)
      exact declaredEntries_again hkinds (hn.fields s hs) (hkeyed s hs) hread hview
  | some block =>
      obtain ⟨found, hfound, hstate⟩ := get?_stateOfDocument_inBlock h hn hs hb
      obtain ⟨found', hfound', hcases⟩ := toDeclaredInRoot_of_inBlock hb hvalues
      obtain rfl := Except.ok.inj (hfound.symm.trans hfound')
      split at hstate
      · -- a block that stayed as it was stays so
        rw [toDeclaredInRoot_congr hb hstate]
        exact hvalues
      · next hsaid =>
          rw [if_neg hsaid] at hcases
          obtain ⟨read, hread, hget⟩ := hstate
          obtain ⟨read', hread', rfl⟩ := hcases
          obtain rfl := Except.ok.inj (hread.symm.trans hread')
          rw [Bool.not_eq_true, Bool.or_eq_false_iff] at hsaid
          refine toDeclaredInRoot_of_instance hb hsaid.1 hget ?_
          exact declaredEntries_again hkinds (hn.fields s hs) (hkeyed s hs) hread
            fun _ _ => rfl

end State

private theorem keys_written {document : Json} {prior : Assoc Value} {sections : List Section}
    {written : List (Assoc Value)}
    (h : List.Forall₂ (fun s values =>
      s.toDeclaredInRoot (documentSection? document s.remote) prior = .ok values)
        sections written)
    (hn : (sections.flatMap Section.rootNames).Nodup) :
    (Assoc.keys written.flatten).Nodup ∧
      ∀ q ∈ Assoc.keys written.flatten, q ∈ sections.flatMap Section.rootNames := by
  induction h with
  | nil => simp [Assoc.keys]
  | @cons s values sections written hvalues _ ih =>
      rw [List.flatMap_cons, List.nodup_append] at hn
      obtain ⟨-, hrest, hdisjoint⟩ := hn
      obtain ⟨hnodup, hnames⟩ := ih hrest
      obtain ⟨hsorted, hnone⟩ := toDeclaredInRoot_shape hvalues
      have hown : ∀ q ∈ Assoc.keys values, q ∈ s.rootNames := by
        intro q hq
        by_contra hne
        rw [← Assoc.get?_isSome, hnone q hne] at hq
        exact Bool.noConfusion hq
      rw [List.flatten_cons, Assoc.keys, List.map_append, List.flatMap_cons]
      constructor
      · refine List.nodup_append.mpr ⟨Assoc.nodup_keys_of_sorted hsorted, hnodup, ?_⟩
        intro p hp q hq
        exact hdisjoint p (hown p hp) q (hnames q hq)
      · intro q hq
        rcases List.mem_append.mp hq with hq | hq
        · exact List.mem_append_left _ (hown q hq)
        · exact List.mem_append_right _ (hnames q hq)

/-- **Reading a document over the state that it was read as changes nothing.** -/
theorem stateOfDocument_again {sections : List Section} {name : String} {document : Json}
    {prior state : Value} (hn : DistinctNames sections)
    (hnaming : ∀ s ∈ sections, checkNaming s.fields = .ok ())
    (hkeyed : ∀ s ∈ sections,
      FieldsHeldThroughout FieldKind.KeyedRemote s.fields (s.heldIn document))
    (h : stateOfDocument sections name document prior = .ok state) :
    stateOfDocument sections name document state = .ok state := by
  obtain ⟨after, hafter, hstate⟩ := stateOfDocument_eq_ok h
  obtain ⟨written, hwritten, rfl⟩ := overlaySections_eq_ok_iff.mp hafter
  obtain ⟨hidentity, hroot⟩ := List.nodup_cons.mp hn.root
  obtain ⟨hnodup, hnames⟩ := keys_written hwritten hroot
  -- the state is the prior with all entries written over it, the identity being the last
  have hwrites : ∀ root : Assoc Value,
      Assoc.insert (Assoc.insertAll root written.flatten) "name" (.string name) =
        Assoc.insertAll root (written.flatten ++ [("name", .string name)]) := by
    intro root
    rw [Assoc.insertAll_append]
    rfl
  have hkeys : (Assoc.keys (written.flatten ++ [("name", Value.string name)])).Nodup := by
    rw [Assoc.keys, List.map_append]
    refine List.nodup_append.mpr ⟨hnodup, List.nodup_singleton _, ?_⟩
    rintro q hq _ hname rfl
    obtain rfl : q = "name" := List.mem_singleton.mp hname
    exact hidentity (hnames _ hq)
  have hagain : overlaySections document state.root sections state.root =
      .ok (Assoc.insertAll state.root written.flatten) := by
    refine overlaySections_eq_ok_iff.mpr ⟨written, ?_, rfl⟩
    have hmem : List.Forall₂ (fun s values => s ∈ sections ∧
        s.toDeclaredInRoot (documentSection? document s.remote) prior.root = .ok values)
          sections written := (List.forall₂_and_left ..).mpr ⟨fun _ hs => hs, hwritten⟩
    refine hmem.imp ?_
    rintro s values ⟨hs, hvalues⟩
    exact toDeclaredInRoot_again hn hnaming hkeyed h hs hvalues
  rw [stateOfDocument, hagain]
  show Except.ok (Value.map (Assoc.insert (Assoc.insertAll state.root written.flatten) "name"
    (.string name))) = .ok state
  rw [hwrites] at hstate
  rw [hwrites, hstate]
  show Except.ok (Value.map (Assoc.insertAll (Assoc.insertAll prior.root _) _)) = _
  rw [Assoc.insertAll_insertAll _ hkeys]

/-- **Reading a document is idempotent**, for every resource type that has documents:
    whatever a remote document holds, as long as the rows of keyed tables carry distinct
    strings as keys, the state that it is read as over any prior is read as itself. -/
theorem Resource.rereading_changes_nothing {r : Resource} (hr : r ∈ Catalog.resources)
    {sections : List Section} (hc : r.content = .document sections) (name : String)
    {document : Json} (hkeyed : ∀ s ∈ sections,
      FieldsHeldThroughout FieldKind.KeyedRemote s.fields (s.heldIn document))
    {prior state : Value} (h : stateOfDocument sections name document prior = .ok state) :
    stateOfDocument sections name document state = .ok state :=
  stateOfDocument_again (Catalog.regular hr hc).names (Catalog.regular hr hc).naming hkeyed h

/-! ## Two cards -/

section Cards

open Catalog

/-- Two cards, one of them with an empty label, and an extension without a port. -/
private def cards : Json := propertiesDocument [
  ("basic", .object [("appliance_card", .array [
    .object [("interfaces", .array [.string "1.1"]), ("label", .string ""),
      ("name", .string "eth0")],
    .object [("name", .string "eth1"), ("slot", .int 2)]])]),
  ("java", .object [("port", .int 0)])]

/-- The cards in the other order; the one with the empty label has none here. -/
private def cardsBefore : Value := .map [("appliance_card", .list [
  .map [("label", .string "spare"), ("name", .string "eth1")],
  .map [("name", .string "eth0")]])]

private def cardsAfter : Value := .map [
  ("appliance_card", .list [
    .map [("label", .string "spare"), ("name", .string "eth1")],
    .map [("interfaces", .list [.string "1.1"]), ("name", .string "eth0")]]),
  ("name", .string "tm")]

/-- The cards are put into the order of the prior, the empty label and the block stay
    unset, and reading the document again changes nothing. -/
theorem rereading_of_cards :
    (∀ s ∈ TrafficManager.sections,
      FieldsHeldThroughout FieldKind.KeyedRemote s.fields (s.heldIn cards)) ∧
    stateOfDocument TrafficManager.sections "tm" cards cardsBefore = .ok cardsAfter ∧
    stateOfDocument TrafficManager.sections "tm" cards cardsAfter = .ok cardsAfter := by
  have hresource : trafficManager ∈ resources := by simp [resources]
  have hkeyed : ∀ s ∈ TrafficManager.sections,
      FieldsHeldThroughout FieldKind.KeyedRemote s.fields (s.heldIn cards) := by
    decide +kernel
  have hread : stateOfDocument TrafficManager.sections "tm" cards cardsBefore =
      .ok cardsAfter := rfl
  exact ⟨hkeyed, hread,
    Resource.rereading_changes_nothing hresource rfl "tm" hkeyed hread⟩

end Cards

end TrafficConfig
