import TrafficConfig.Proofs.Documents

/-!
# What is sent

The content of a payload, field by field:

* **`Section.valueIn`** — the value of a field in a root, null when it is missing or its
  block is absent;
* **`Section.Writes`** — when an update has an entry for a field of a section, and
  **`Field.sentAs`** what it is;
* **`Carries`** — a payload holds what the selected fields of its sections are sent as,
  and all of it. Two fields of one remote address share an entry, so what is found there
  is what one of them is sent as;
* **`updatePayload_cases`**, **`createPayload_cases`** — an update carries the fields that
  are written, a create those that have a value;
* **`exists_updatePayload`** — what can be created can be updated.
-/

namespace TrafficConfig

/-- What a value is sent as when it has to be sent: an absent one as cleared. -/
def Field.sentAs (f : Field) (v : Value) : Except ConfigError Json :=
  (f.toJson? v).map (·.getD f.kind.cleared)

namespace Section

/-- The value of a field in a root; null when it is missing or its block has no
    instance. -/
def valueIn (s : Section) (root : Assoc Value) (f : Field) : Value :=
  match s.valuesIn root with
  | .ok values => Value.getOrNull values f.name
  | .error _ => .null

/-- Whether an update takes a field as changed: the field alone, or with it the
    section. -/
def takesAsChanged (s : Section) (changes : ChangeSet) (f : Field) : Bool :=
  match s.granularity with
  | .field => changes.hasChange (s.pathOf f)
  | .section => s.wholeChanged changes

/-- An update has an entry for a field: it is writable, and it counts as changed or is
    always sent with a value. -/
def Writes (s : Section) (root : Assoc Value) (changes : ChangeSet) (f : Field) : Prop :=
  f.readOnly = false ∧
    (s.takesAsChanged changes f = true ∨
      (s.granularity = .field ∧ f.alwaysSent = true ∧ (s.valueIn root f).isAbsent = false))

/-- Whether anything in a section makes an update necessary. -/
def touched (s : Section) (changes : ChangeSet) : Bool :=
  match s.granularity with
  | .field => s.fields.any fun f => !f.readOnly && changes.hasChange (s.pathOf f)
  | .section => s.wholeChanged changes

/-- The value of a field is found among the values of its section. -/
theorem valueIn_of_ok {s : Section} {root values : Assoc Value}
    (h : s.valuesIn root = .ok values) (f : Field) :
    s.valueIn root f = Value.getOrNull values f.name := by
  rw [valueIn, h]

/-- The values of a top-level section are those of the root. -/
theorem valuesIn_topLevel {s : Section} (hb : s.block = none) (root : Assoc Value) :
    s.valuesIn root = .ok root := by
  rw [valuesIn, hb]

/-- The values of a section in a block are those of the instance, if there is one. -/
theorem valuesIn_inBlock {s : Section} {root : Assoc Value} {block : String}
    (hb : s.block = some block) {found : Option (Assoc Value)}
    (hf : instance? root block = .ok found) : s.valuesIn root = .ok (found.getD []) := by
  rw [valuesIn, hb]
  show (instance? root block).map _ = _
  rw [hf]
  rfl

end Section

/-! ## The entries of one section -/

/-- Where a sequence succeeds both of its steps do. -/
theorem Except.bind_eq_ok {ε α β : Type} {x : Except ε α} {next : α → Except ε β} {b : β}
    (h : (x >>= next) = .ok b) : ∃ a, x = .ok a ∧ next a = .ok b := by
  cases x with
  | error e => exact nomatch h
  | ok a => exact ⟨a, rfl, h⟩

/-- An absent value is not sent. -/
theorem Field.toJson?_of_absent {f : Field} {v : Value} (h : v.isAbsent = true) :
    f.toJson? v = .ok none := by
  rw [Field.toJson?, if_pos h]

/-- What is present is sent as its document. -/
theorem Field.sentAs_of_present {f : Field} {v : Value} (h : v.isAbsent = false) :
    f.sentAs v = f.kind.toJson f.name v := by
  rw [Field.sentAs, Field.toJson?, h, if_neg Bool.false_ne_true]
  cases f.kind.toJson f.name v <;> rfl

/-- Only an absent value is not sent. -/
theorem Field.toJson?_eq_none_iff {f : Field} {v : Value} :
    f.toJson? v = .ok none ↔ v.isAbsent = true := by
  constructor
  · intro h
    by_contra hv
    rw [Field.toJson?, if_neg hv] at h
    cases hj : f.kind.toJson f.name v with
    | error e => rw [hj] at h; exact nomatch h
    | ok j => rw [hj] at h; exact nomatch h
  · exact Field.toJson?_of_absent

private theorem updateEntries_cons (values : Assoc Value) (changed : Field → Bool)
    (f : Field) (rest : List Field) :
    updateEntries values changed (f :: rest) =
      if f.readOnly || !(changed f || f.alwaysSent) then updateEntries values changed rest
      else (do
        match ← f.toJson? (Value.getOrNull values f.name) with
        | some j => return (f.remote, j) :: (← updateEntries values changed rest)
        | none =>
          if changed f then return (f.remote, f.kind.cleared) ::
            (← updateEntries values changed rest)
          else updateEntries values changed rest) := rfl

private theorem updateEntries_step {values : Assoc Value} {changed : Field → Bool}
    {f : Field} {rest : List Field} {entries : List (String × Json)}
    (h : updateEntries values changed (f :: rest) = .ok entries) :
    ∃ tail, updateEntries values changed rest = .ok tail ∧
      ((entries = tail ∧ (f.readOnly = true ∨
          (changed f = false ∧
            (f.alwaysSent = true → (Value.getOrNull values f.name).isAbsent = true)))) ∨
        ∃ j, entries = (f.remote, j) :: tail ∧ f.readOnly = false ∧
          f.sentAs (Value.getOrNull values f.name) = .ok j ∧
          (changed f = true ∨
            (f.alwaysSent = true ∧ (Value.getOrNull values f.name).isAbsent = false))) := by
  rw [updateEntries_cons] at h
  by_cases hskip : (f.readOnly || !(changed f || f.alwaysSent)) = true
  · rw [if_pos hskip] at h
    -- the field is only read, or it neither changed nor is always sent
    refine ⟨entries, h, .inl ⟨rfl, ?_⟩⟩
    cases hr : f.readOnly with
    | true => exact .inl rfl
    | false =>
        right
        simp only [hr, Bool.false_or, Bool.not_eq_true', Bool.or_eq_false_iff] at hskip
        exact ⟨hskip.1, fun ha => absurd ha (by rw [hskip.2]; exact Bool.false_ne_true)⟩
  · rw [if_neg hskip] at h
    have hr : f.readOnly = false := by
      cases hr : f.readOnly with
      | true => simp [hr] at hskip
      | false => rfl
    have hsel : changed f = true ∨ f.alwaysSent = true := by
      rw [hr, Bool.false_or, Bool.not_eq_true', Bool.not_eq_false, Bool.or_eq_true] at hskip
      exact hskip
    obtain ⟨sent?, hsent, h⟩ := Except.bind_eq_ok h
    cases sent? with
    | some j =>
        obtain ⟨tail, htail, h⟩ := Except.bind_eq_ok h
        have hpresent : (Value.getOrNull values f.name).isAbsent = false := by
          cases hv : (Value.getOrNull values f.name).isAbsent with
          | false => rfl
          | true => rw [Field.toJson?_of_absent hv] at hsent; exact nomatch hsent
        refine ⟨tail, htail,
          .inr ⟨j, (Except.ok.inj h).symm, hr, ?_, hsel.imp id fun ha => ⟨ha, hpresent⟩⟩⟩
        rw [Field.sentAs, hsent]
        rfl
    | none =>
        -- an absent value is sent as cleared when it changed, and left out otherwise
        have habsent := Field.toJson?_eq_none_iff.mp hsent
        by_cases hc : changed f = true
        · rw [if_pos hc] at h
          obtain ⟨tail, htail, h⟩ := Except.bind_eq_ok h
          refine ⟨tail, htail,
            .inr ⟨f.kind.cleared, (Except.ok.inj h).symm, hr, ?_, .inl hc⟩⟩
          rw [Field.sentAs, hsent]
          rfl
        · rw [if_neg hc] at h
          exact ⟨entries, h, .inl ⟨rfl, .inr ⟨Bool.eq_false_iff.mpr hc, fun _ => habsent⟩⟩⟩

/-- A field is selected for an update of one section. -/
private def Selected (values : Assoc Value) (changed : Field → Bool) (f : Field) : Prop :=
  f.readOnly = false ∧
    (changed f = true ∨
      (f.alwaysSent = true ∧ (Value.getOrNull values f.name).isAbsent = false))

/-- Every entry of an update is that of a selected field. -/
theorem selected_of_mem_updateEntries {values : Assoc Value}
    {changed : Field → Bool} {fields : List Field} {entries : List (String × Json)}
    (h : updateEntries values changed fields = .ok entries) {remote : String} {j : Json}
    (hmem : (remote, j) ∈ entries) :
    ∃ f ∈ fields, f.remote = remote ∧ Selected values changed f ∧
      f.sentAs (Value.getOrNull values f.name) = .ok j := by
  induction fields generalizing entries with
  | nil =>
      obtain rfl := Except.ok.inj h
      exact nomatch hmem
  | cons f rest ih =>
      obtain ⟨tail, htail, ⟨rfl, -⟩ | ⟨i, rfl, hr, hi, hsel⟩⟩ := updateEntries_step h
      · obtain ⟨g, hg, hrest⟩ := ih htail hmem
        exact ⟨g, List.mem_cons_of_mem f hg, hrest⟩
      · rcases List.mem_cons.mp hmem with heq | hmem
        · obtain ⟨rfl, rfl⟩ := Prod.mk.inj heq
          exact ⟨f, List.mem_cons_self, rfl, ⟨hr, hsel⟩, hi⟩
        · obtain ⟨g, hg, hrest⟩ := ih htail hmem
          exact ⟨g, List.mem_cons_of_mem f hg, hrest⟩

/-- Every selected field has an entry in an update. -/
theorem mem_updateEntries_of_selected {values : Assoc Value}
    {changed : Field → Bool} {fields : List Field} {entries : List (String × Json)}
    (h : updateEntries values changed fields = .ok entries) {f : Field} (hf : f ∈ fields)
    (hsel : Selected values changed f) : ∃ j, (f.remote, j) ∈ entries := by
  induction fields generalizing entries with
  | nil => exact nomatch hf
  | cons g rest ih =>
      obtain ⟨tail, htail, hstep⟩ := updateEntries_step h
      rcases List.mem_cons.mp hf with rfl | hf
      · rcases hstep with ⟨rfl, hskip⟩ | ⟨i, rfl, -, -, -⟩
        · obtain ⟨hr, hsel⟩ := hsel
          rcases hskip with hskip | ⟨hc, ha⟩
          · rw [hr] at hskip
            exact Bool.noConfusion hskip
          · rcases hsel with hsel | ⟨hsent, hpresent⟩
            · rw [hc] at hsel
              exact Bool.noConfusion hsel
            · rw [ha hsent] at hpresent
              exact Bool.noConfusion hpresent
        · exact ⟨i, List.mem_cons_self⟩
      · obtain ⟨j, hj⟩ := ih htail hf
        rcases hstep with ⟨rfl, -⟩ | ⟨i, rfl, -, -, -⟩
        · exact ⟨j, hj⟩
        · exact ⟨j, List.mem_cons_of_mem _ hj⟩

/-! ## The part of one section -/

/-- Sections hold what the fields for which `W` holds are sent as, and nothing else. -/
structure Carries (W : Section → Field → Prop) (root : Assoc Value)
    (sections : List Section) (sent : Assoc Json) : Prop where
  sendable : Sendable sent
  written : ∀ {name field j}, fieldIn? sent name field = some j →
    ∃ s ∈ sections, ∃ f ∈ s.fields,
    s.remote = name ∧ f.remote = field ∧ W s f ∧ f.sentAs (s.valueIn root f) = .ok j
  complete : ∀ s ∈ sections, ∀ f ∈ s.fields, W s f →
    (fieldIn? sent s.remote f.remote).isSome = true

/-- The part of one section holds what its fields for which `W` holds are sent as, and
    nothing else. -/
private structure Section.Part (W : Field → Prop) (root : Assoc Value) (s : Section)
    (fields : Assoc Json) : Prop where
  sorted : Assoc.Sorted fields
  written : ∀ {remote j}, Assoc.get? fields remote = some j →
    ∃ f ∈ s.fields, f.remote = remote ∧ W f ∧ f.sentAs (s.valueIn root f) = .ok j
  complete : ∀ f ∈ s.fields, W f → (Assoc.get? fields f.remote).isSome = true

/-- A list of entries, one for each field for which `W` holds, makes a part. -/
theorem Section.Part.ofEntries {W : Field → Prop} {root : Assoc Value}
    {s : Section} {entries : List (String × Json)}
    (hw : ∀ remote j, (remote, j) ∈ entries → ∃ f ∈ s.fields, f.remote = remote ∧ W f ∧
      f.sentAs (s.valueIn root f) = .ok j)
    (hc : ∀ f ∈ s.fields, W f → ∃ j, (f.remote, j) ∈ entries) :
    s.Part W root (Assoc.ofEntries entries) where
  sorted := Assoc.sorted_ofEntries entries
  written hj := hw _ _ (Assoc.mem_of_get?_ofEntries hj)
  complete f hf hW := Assoc.isSome_get?_ofEntries.mpr (hc f hf hW)

private theorem Section.Part.none {W : Field → Prop} {root : Assoc Value} {s : Section}
    (hc : ∀ f ∈ s.fields, ¬W f) : s.Part W root [] where
  sorted := List.Pairwise.nil
  written hj := nomatch hj
  complete f hf hW := absurd hW (hc f hf)

section Carries

variable {W : Section → Field → Prop} {root : Assoc Value}

theorem Carries.nil : Carries W root [] [] where
  sendable := .nil
  written h := nomatch h
  complete _ h := nomatch h

/-- The order of sections does not matter for what is carried. -/
theorem Carries.congr {a b : List Section} {sent : Assoc Json} (h : Carries W root a sent)
    (hab : ∀ s, s ∈ a ↔ s ∈ b) : Carries W root b sent where
  sendable := h.sendable
  written hj := by
    obtain ⟨s, hs, hrest⟩ := h.written hj
    exact ⟨s, (hab s).mp hs, hrest⟩
  complete s hs := h.complete s ((hab s).mpr hs)

/-- The part of one section more. -/
theorem Carries.addFields {done : List Section} {sent fields : Assoc Json}
    {s : Section} (h : Carries W root done sent) (hp : s.Part (W s) root fields) :
    Carries W root (s :: done) (addFields sent s.remote fields) where
  sendable := h.sendable.addFields hp.sorted s.remote
  written := by
    intro name field j hj
    have hold : fieldIn? sent name field = some j → ∃ t ∈ s :: done, ∃ f ∈ t.fields,
        t.remote = name ∧ f.remote = field ∧ W t f ∧
          f.sentAs (t.valueIn root f) = .ok j := by
      intro hj
      obtain ⟨t, ht, hrest⟩ := h.written hj
      exact ⟨t, List.mem_cons_of_mem s ht, hrest⟩
    -- what is found was put there now, or it was there before
    rw [fieldIn?_addFields hp.sorted] at hj
    by_cases hn : name = s.remote
    · rw [if_pos hn, Option.or_eq_some_iff] at hj
      rcases hj with hnew | ⟨-, hj⟩
      · obtain ⟨f, hf, hrest⟩ := hp.written hnew
        exact ⟨s, List.mem_cons_self, f, hf, hn.symm, hrest⟩
      · exact hold hj
    · rw [if_neg hn] at hj
      exact hold hj
  complete := by
    intro t ht f hf hW
    rw [fieldIn?_addFields hp.sorted]
    rcases List.mem_cons.mp ht with rfl | ht
    · rw [if_pos rfl, Option.isSome_or, hp.complete f hf hW, Bool.true_or]
    · have hold := h.complete t ht f hf hW
      by_cases hn : t.remote = s.remote
      · rw [if_pos hn, Option.isSome_or, hold, Bool.or_true]
      · rw [if_neg hn, hold]

end Carries

/-! ## Updates -/

namespace Section

variable {s : Section} {root : Assoc Value} {changes : ChangeSet} {fields : Assoc Json}
  {changed : Bool}

private theorem part_update_fields (hg : s.granularity = .field)
    (h : s.update root changes = .ok (fields, changed)) :
    changed = s.touched changes ∧ s.Part (s.Writes root changes) root fields := by
  rw [update, hg] at h
  obtain ⟨values, hvalues, h⟩ := Except.bind_eq_ok h
  obtain ⟨entries, hentries, h⟩ := Except.bind_eq_ok h
  obtain ⟨rfl, rfl⟩ := Prod.mk.inj (Except.ok.inj h)
  have htakes : s.takesAsChanged changes = fun f => changes.hasChange (s.pathOf f) := by
    funext f
    rw [takesAsChanged, hg]
  refine ⟨?_, .ofEntries ?_ ?_⟩
  · rw [touched, hg]
  · intro remote j hmem
    obtain ⟨f, hf, hremote, ⟨hr, hsel⟩, hj⟩ := selected_of_mem_updateEntries hentries hmem
    rw [← valueIn_of_ok hvalues] at hsel hj
    refine ⟨f, hf, hremote, ⟨hr, ?_⟩, hj⟩
    rw [htakes]
    exact hsel.imp id fun ha => ⟨hg, ha⟩
  · intro f hf ⟨hr, hsel⟩
    rw [htakes, valueIn_of_ok hvalues] at hsel
    exact mem_updateEntries_of_selected hentries hf ⟨hr, hsel.imp id And.right⟩

private theorem part_update_whole (hg : s.granularity = .section)
    (h : s.update root changes = .ok (fields, changed)) :
    changed = s.touched changes ∧ s.Part (s.Writes root changes) root fields := by
  rw [update, hg] at h
  have htouched : s.touched changes = s.wholeChanged changes := by rw [touched, hg]
  have htakes : ∀ f, s.takesAsChanged changes f = s.wholeChanged changes := by
    intro f
    rw [takesAsChanged, hg]
  simp only [wholeUpdate] at h
  by_cases hw : s.wholeChanged changes = true
  · rw [if_pos hw] at h
    obtain ⟨values, hvalues, h⟩ := Except.bind_eq_ok h
    obtain ⟨entries, hentries, h⟩ := Except.bind_eq_ok h
    obtain ⟨rfl, rfl⟩ := Prod.mk.inj (Except.ok.inj h)
    refine ⟨(htouched.trans hw).symm, .ofEntries ?_ ?_⟩
    · intro remote j hmem
      obtain ⟨f, hf, hremote, ⟨hr, -⟩, hj⟩ := selected_of_mem_updateEntries hentries hmem
      rw [← valueIn_of_ok hvalues] at hj
      exact ⟨f, hf, hremote, ⟨hr, .inl ((htakes f).trans hw)⟩, hj⟩
    · intro f hf ⟨hr, _⟩
      exact mem_updateEntries_of_selected hentries hf ⟨hr, .inl rfl⟩
  · rw [if_neg hw] at h
    obtain ⟨rfl, rfl⟩ := Prod.mk.inj (Except.ok.inj h)
    refine ⟨?_, .none ?_⟩
    · rw [htouched, Bool.eq_false_iff.mpr hw]
    · rintro f - ⟨-, hsel | ⟨hgran, -⟩⟩
      · rw [htakes f] at hsel
        exact absurd hsel hw
      · rw [hg] at hgran
        exact nomatch hgran

/-- The part of a section in an update, and whether anything in the section was
    touched. -/
theorem part_update (h : s.update root changes = .ok (fields, changed)) :
    changed = s.touched changes ∧ s.Part (s.Writes root changes) root fields := by
  cases hg : s.granularity with
  | field => exact part_update_fields hg h
  | «section» => exact part_update_whole hg h

end Section

section Update

variable {root : Assoc Value} {changes : ChangeSet}

private theorem carries_updateSections {sections done : List Section}
    {acc result : Assoc Json × Bool}
    (h : updateSections root changes sections acc = .ok result)
    (hacc : Carries (fun s => s.Writes root changes) root done acc.1) :
    Carries (fun s => s.Writes root changes) root (sections.reverse ++ done) result.1 ∧
      result.2 = (acc.2 || sections.any fun s => s.touched changes) := by
  induction sections generalizing acc done with
  | nil =>
      obtain rfl := Except.ok.inj h
      exact ⟨hacc, (Bool.or_false _).symm⟩
  | cons s rest ih =>
      obtain ⟨properties, c⟩ := acc
      obtain ⟨⟨fields, changed⟩, hu, h⟩ := Except.bind_eq_ok h
      obtain ⟨rfl, hpart⟩ := Section.part_update hu
      -- the section joins those that are done, which pile up in reverse order
      obtain ⟨hcarries, htouched⟩ := ih h (hacc.addFields hpart)
      constructor
      · rw [List.reverse_cons, List.append_assoc]
        exact hcarries
      · rw [htouched, List.any_cons, Bool.or_assoc]

/-- **What an update sends**: nothing when no section was touched, else a document of
    sections that hold what the written fields are sent as. -/
theorem updatePayload_cases {config : Value} {sections : List Section}
    {result : Option Json} (h : updatePayload config sections changes = .ok result) :
    ∃ root, configRoot config = .ok root ∧
      ((result = none ∧ ∀ s ∈ sections, s.touched changes = false) ∨
        ((∃ s ∈ sections, s.touched changes = true) ∧ ∃ sent,
          result = some (propertiesDocument sent) ∧
          Carries (fun s => s.Writes root changes) root sections sent)) := by
  obtain ⟨root, hroot, h⟩ := Except.bind_eq_ok h
  obtain ⟨⟨sent, changed⟩, hu, h⟩ := Except.bind_eq_ok h
  obtain rfl := (Except.ok.inj h).symm
  obtain ⟨hcarries, htouched⟩ := carries_updateSections hu .nil
  refine ⟨root, hroot, ?_⟩
  have htouched : changed = sections.any fun s => s.touched changes := by
    rw [← Bool.false_or (sections.any _)]
    exact htouched
  by_cases hc : changed = true
  · right
    refine ⟨List.any_eq_true.mp (htouched ▸ hc), sent, if_pos hc, hcarries.congr ?_⟩
    intro s
    rw [List.append_nil, List.mem_reverse]
  · left
    refine ⟨if_neg hc, ?_⟩
    intro s hs
    rw [htouched, Bool.not_eq_true, List.any_eq_false] at hc
    exact Bool.eq_false_iff.mpr (hc s hs)

end Update

/-! ## Creates -/

/-- A create has an entry for a field that is writable and has a value. -/
def Section.Creates (s : Section) (root : Assoc Value) (f : Field) : Prop :=
  f.readOnly = false ∧ (s.valueIn root f).isAbsent = false

/-- A writable field that is present is sent in front of the others. -/
theorem remoteEntries_cons (f : Field) (rest : List Field) (values : Assoc Value) :
    remoteEntries (f :: rest) values =
      if f.readOnly = false ∧ (Value.getOrNull values f.name).isAbsent = false then (do
        let j ← f.kind.toJson f.name (Value.getOrNull values f.name)
        return (f.remote, j) :: (← remoteEntries rest values))
      else remoteEntries rest values := by
  obtain ⟨name, remote, kind, readOnly, alwaysSent⟩ := f
  rw [remoteEntries, Value.getOrNull]
  cases readOnly with
  | true => simp
  | false =>
      cases Assoc.get? values name with
      | none => simp [Value.isAbsent]
      | some v => cases hv : v.isAbsent <;> simp [hv]

/-- Without values there is nothing to send. -/
theorem remoteEntries_nil (fields : List Field) : remoteEntries fields [] = .ok [] := by
  induction fields with
  | nil => rfl
  | cons f rest ih => rw [remoteEntries_cons, if_neg fun h => Bool.noConfusion h.2, ih]

/-- What a create sends of a section is what is sent of the values in it. -/
theorem Section.toRemoteFromRoot_eq (s : Section) (root : Assoc Value) :
    s.toRemoteFromRoot root = s.valuesIn root >>= s.toRemote := by
  rw [toRemoteFromRoot, valuesIn]
  cases s.block with
  | none => rfl
  | some block =>
      have hnothing : s.toRemote [] = .ok [] := by
        rw [toRemote, remoteEntries_nil]
        rfl
      show instance? root block >>= _ = (instance? root block).map _ >>= _
      rcases instance? root block with e | _ | values
      · rfl
      · exact hnothing.symm
      · rfl

/-- A section is sent when its values are found and all of them can be sent. -/
theorem Section.toRemoteFromRoot_eq_ok_iff {s : Section} {root : Assoc Value}
    {fields : Assoc Json} : s.toRemoteFromRoot root = .ok fields ↔
      ∃ values entries, s.valuesIn root = .ok values ∧
        remoteEntries s.fields values = .ok entries ∧ Assoc.ofEntries entries = fields := by
  rw [toRemoteFromRoot_eq]
  constructor
  · intro h
    obtain ⟨values, hvalues, h⟩ := Except.bind_eq_ok h
    rw [toRemote] at h
    cases hentries : remoteEntries s.fields values with
    | error e => rw [hentries] at h; exact nomatch h
    | ok entries =>
        rw [hentries] at h
        exact ⟨values, entries, hvalues, hentries, Except.ok.inj h⟩
  · rintro ⟨values, entries, hvalues, hentries, rfl⟩
    rw [hvalues]
    show s.toRemote values = _
    rw [toRemote, hentries]
    rfl

/-- The entries of a create are those of the writable fields with a value. -/
theorem remoteEntries_spec {fields : List Field} {values : Assoc Value}
    {entries : List (String × Json)} (h : remoteEntries fields values = .ok entries) :
    (∀ remote j, (remote, j) ∈ entries → ∃ f ∈ fields, f.remote = remote ∧
      (f.readOnly = false ∧ (Value.getOrNull values f.name).isAbsent = false) ∧
        f.sentAs (Value.getOrNull values f.name) = .ok j) ∧
      ∀ f ∈ fields, f.readOnly = false ∧ (Value.getOrNull values f.name).isAbsent = false →
        ∃ j, (f.remote, j) ∈ entries := by
  induction fields generalizing entries with
  | nil =>
      obtain rfl := Except.ok.inj h
      exact ⟨fun _ _ hmem => (List.not_mem_nil hmem).elim, fun _ hf =>
        (List.not_mem_nil hf).elim⟩
  | cons f rest ih =>
      rw [remoteEntries_cons] at h
      by_cases hsent : f.readOnly = false ∧ (Value.getOrNull values f.name).isAbsent = false
      · rw [if_pos hsent] at h
        obtain ⟨i, hi, h⟩ := Except.bind_eq_ok h
        obtain ⟨tail, htail, h⟩ := Except.bind_eq_ok h
        obtain rfl := Except.ok.inj h
        obtain ⟨hw, hc⟩ := ih htail
        constructor
        · intro remote j hmem
          rcases List.mem_cons.mp hmem with heq | hmem
          · obtain ⟨rfl, rfl⟩ := Prod.mk.inj heq
            refine ⟨f, List.mem_cons_self, rfl, hsent, ?_⟩
            rw [Field.sentAs_of_present hsent.2, hi]
          · obtain ⟨g, hg, hrest⟩ := hw remote j hmem
            exact ⟨g, List.mem_cons_of_mem f hg, hrest⟩
        · intro g hg hsent
          rcases List.mem_cons.mp hg with rfl | hg
          · exact ⟨i, List.mem_cons_self⟩
          · obtain ⟨j, hj⟩ := hc g hg hsent
            exact ⟨j, List.mem_cons_of_mem _ hj⟩
      · rw [if_neg hsent] at h
        obtain ⟨hw, hc⟩ := ih h
        constructor
        · intro remote j hmem
          obtain ⟨g, hg, hrest⟩ := hw remote j hmem
          exact ⟨g, List.mem_cons_of_mem f hg, hrest⟩
        · intro g hg hsent'
          rcases List.mem_cons.mp hg with rfl | hg
          · exact absurd hsent' hsent
          · exact hc g hg hsent'

private theorem part_toRemoteFromRoot {s : Section} {root : Assoc Value}
    {fields : Assoc Json} (h : s.toRemoteFromRoot root = .ok fields) :
    s.Part (s.Creates root) root fields := by
  obtain ⟨values, entries, hvalues, hentries, rfl⟩ := Section.toRemoteFromRoot_eq_ok_iff.mp h
  obtain ⟨hw, hc⟩ := remoteEntries_spec hentries
  have hcreates : ∀ f, s.Creates root f ↔ f.readOnly = false ∧
      (Value.getOrNull values f.name).isAbsent = false := by
    intro f
    rw [Section.Creates, Section.valueIn_of_ok hvalues]
  refine .ofEntries ?_ ?_
  · intro remote j hmem
    obtain ⟨f, hf, hremote, hsent, hj⟩ := hw remote j hmem
    rw [← Section.valueIn_of_ok hvalues] at hj
    exact ⟨f, hf, hremote, (hcreates f).mpr hsent, hj⟩
  · intro f hf hsent
    exact hc f hf ((hcreates f).mp hsent)

private theorem carries_createSections {root : Assoc Value} {sections done : List Section}
    {acc result : Assoc Json} (h : createSections root sections acc = .ok result)
    (hacc : Carries (fun s => s.Creates root) root done acc) :
    Carries (fun s => s.Creates root) root (sections.reverse ++ done) result := by
  induction sections generalizing acc done with
  | nil =>
      obtain rfl := Except.ok.inj h
      exact hacc
  | cons s rest ih =>
      obtain ⟨fields, hfields, h⟩ := Except.bind_eq_ok h
      rw [List.reverse_cons, List.append_assoc]
      exact ih h (hacc.addFields (part_toRemoteFromRoot hfields))

/-- **What a create sends**: a document of sections that hold what the writable fields
    with a value are sent as. -/
theorem createPayload_cases {config : Value} {sections : List Section} {payload : Json}
    (h : createPayload config sections = .ok payload) :
    ∃ root, configRoot config = .ok root ∧
      ∃ sent, payload = propertiesDocument sent ∧
        Carries (fun s => s.Creates root) root sections sent := by
  obtain ⟨root, hroot, h⟩ := Except.bind_eq_ok h
  obtain ⟨sent, hsent, h⟩ := Except.bind_eq_ok h
  refine ⟨root, hroot, sent, (Except.ok.inj h).symm,
    (carries_createSections hsent .nil).congr ?_⟩
  intro s
  rw [List.append_nil, List.mem_reverse]

/-! ## What can be sent -/

/-- Every writable field has a value that can be sent. -/
private def Writable (fields : List Field) (values : Assoc Value) : Prop :=
  ∀ f ∈ fields, f.readOnly = false → ∃ j?, f.toJson? (Value.getOrNull values f.name) = .ok j?

private theorem writable_of_remoteEntries {fields : List Field} {values : Assoc Value}
    {entries : List (String × Json)} (h : remoteEntries fields values = .ok entries) :
    Writable fields values := by
  induction fields generalizing entries with
  | nil => exact fun _ hf => nomatch hf
  | cons f rest ih =>
      rw [remoteEntries_cons] at h
      by_cases hsent : f.readOnly = false ∧ (Value.getOrNull values f.name).isAbsent = false
      · rw [if_pos hsent] at h
        obtain ⟨j, hj, h⟩ := Except.bind_eq_ok h
        obtain ⟨tail, htail, -⟩ := Except.bind_eq_ok h
        refine List.forall_mem_cons.mpr ⟨fun _ => ⟨some j, ?_⟩, ih htail⟩
        rw [Field.toJson?, hsent.2, if_neg Bool.false_ne_true, hj]
        rfl
      · rw [if_neg hsent] at h
        refine List.forall_mem_cons.mpr ⟨fun hwritten => ⟨none, ?_⟩, ih h⟩
        rw [not_and, Bool.not_eq_false] at hsent
        exact Field.toJson?_of_absent (hsent hwritten)

private theorem exists_updateEntries {values : Assoc Value} {fields : List Field}
    (h : Writable fields values) (changed : Field → Bool) :
    ∃ entries, updateEntries values changed fields = .ok entries := by
  induction fields with
  | nil => exact ⟨[], rfl⟩
  | cons f rest ih =>
      obtain ⟨hf, hrest⟩ := List.forall_mem_cons.mp h
      obtain ⟨tail, htail⟩ := ih hrest
      rw [updateEntries_cons]
      cases hr : f.readOnly with
      | true => exact ⟨tail, htail⟩
      | false =>
          obtain ⟨j?, hj⟩ := hf hr
          by_cases hskip : (false || !(changed f || f.alwaysSent)) = true
          · rw [if_pos hskip]
            exact ⟨tail, htail⟩
          · rw [if_neg hskip, hj, htail]
            cases j? with
            | some j => exact ⟨(f.remote, j) :: tail, rfl⟩
            | none =>
                by_cases hc : changed f = true
                · exact ⟨(f.remote, f.kind.cleared) :: tail, if_pos hc⟩
                · exact ⟨tail, if_neg hc⟩

/-- The values of a section that can be created can be sent. -/
theorem writable_of_toRemoteFromRoot {s : Section} {root : Assoc Value}
    {fields : Assoc Json} (h : s.toRemoteFromRoot root = .ok fields) :
    ∃ values, s.valuesIn root = .ok values ∧ Writable s.fields values := by
  obtain ⟨values, entries, hvalues, hentries, -⟩ := Section.toRemoteFromRoot_eq_ok_iff.mp h
  exact ⟨values, hvalues, writable_of_remoteEntries hentries⟩

private theorem exists_update {s : Section} {root values : Assoc Value}
    (hvalues : s.valuesIn root = .ok values) (h : Writable s.fields values)
    (changes : ChangeSet) : ∃ result, s.update root changes = .ok result := by
  rw [Section.update]
  rcases s.granularity with _ | _
  · obtain ⟨entries, hentries⟩ :=
      exists_updateEntries h fun f => changes.hasChange (s.pathOf f)
    show ∃ result, s.fieldUpdate root changes = .ok result
    rw [Section.fieldUpdate, hvalues]
    show ∃ result, (updateEntries values _ s.fields >>= _) = .ok result
    rw [hentries]
    exact ⟨_, rfl⟩
  · obtain ⟨entries, hentries⟩ := exists_updateEntries h fun _ => true
    show ∃ result, s.wholeUpdate root changes = .ok result
    rw [Section.wholeUpdate]
    split
    · rw [hvalues]
      show ∃ result, (updateEntries values _ s.fields >>= _) = .ok result
      rw [hentries]
      exact ⟨_, rfl⟩
    · exact ⟨_, rfl⟩

private theorem exists_updateSections {root : Assoc Value} {sections : List Section}
    {acc result : Assoc Json} (h : createSections root sections acc = .ok result)
    (changes : ChangeSet) (sent : Assoc Json × Bool) :
    ∃ updated, updateSections root changes sections sent = .ok updated := by
  induction sections generalizing acc sent with
  | nil => exact ⟨sent, rfl⟩
  | cons s rest ih =>
      obtain ⟨fields, hfields, h⟩ := Except.bind_eq_ok h
      obtain ⟨values, hvalues, hwritable⟩ := writable_of_toRemoteFromRoot hfields
      obtain ⟨part, hpart⟩ := exists_update hvalues hwritable changes
      obtain ⟨updated, hupdated⟩ :=
        ih h (addFields sent.1 s.remote part.1, sent.2 || part.2)
      refine ⟨updated, ?_⟩
      show (s.update root changes >>= _) = _
      rw [hpart]
      exact hupdated

/-- **What can be created can be updated**, whatever changed. -/
theorem exists_updatePayload {config : Value} {sections : List Section} {payload : Json}
    (h : createPayload config sections = .ok payload) (changes : ChangeSet) :
    ∃ result, updatePayload config sections changes = .ok result := by
  obtain ⟨root, hroot, h⟩ := Except.bind_eq_ok h
  obtain ⟨sent, hsent, -⟩ := Except.bind_eq_ok h
  obtain ⟨updated, hupdated⟩ := exists_updateSections hsent changes ([], false)
  rw [updatePayload, hroot]
  show ∃ result, (updateSections root changes sections ([], false) >>= _) = .ok result
  rw [hupdated]
  exact ⟨_, rfl⟩

end TrafficConfig
