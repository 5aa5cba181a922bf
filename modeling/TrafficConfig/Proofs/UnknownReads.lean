import TrafficConfig.Proofs.History
import TrafficConfig.Proofs.Layout
import TrafficConfig.Proofs.UnknownPlans

/-!
# What is still unknown after a look at a document

A value that only the apply will bring counts as unset, and a field that is unset in the
prior stays as it is while the remote side holds only the cleared value. So the apply does
not resolve it in this one case:

* **`Reading`** — what is read from a remote section or a remote row over a prior.
  **`Reading.unknown_iff`** says which names it leaves unknown, **`Reading.rows`** that
  the rows of its tables are readings again;
* **`leavesUnknown_iff`** — the same for the state of a document, where a whole block may
  be unknown too;
* **`Action`** — creating, updating and reading an object. Whatever the server answers,
  its state is the one that the fetched document stands for, or the one from before when
  the document cannot be read.
-/

namespace TrafficConfig

open Value

/-! ## Fields -/

section Fields

variable {f : Field} {remote : Assoc Json} {prior : Option (Assoc Value)}
  {v? : Option Value}

/-- The remote side omits a field, or holds only what a removed value is sent as. -/
def Field.Unsaid (f : Field) (remote : Assoc Json) : Prop :=
  Assoc.get? remote f.remote = none ∨ Assoc.get? remote f.remote = some f.kind.cleared

/-- **What one field leaves unknown**: what was unknown before, while the remote side says
    nothing. -/
theorem declared?_unknown_iff (h : f.declared? remote prior = .ok v?) :
    v? = some .unknown ↔ priorValue? prior f.name = some .unknown ∧ f.Unsaid remote := by
  rw [Field.declared?] at h
  rw [Field.Unsaid]
  cases hj : Assoc.get? remote f.remote with
  | none =>
      rw [hj] at h
      obtain rfl := Except.ok.inj h
      simp
  | some j =>
      rw [hj] at h
      simp only [Option.some.injEq, reduceCtorEq, false_or]
      by_cases hkept : (unsetIn prior f.name && f.kind.isCleared j) = true
      · simp only [hkept, if_true] at h
        obtain rfl := Except.ok.inj h
        have hcleared : j = f.kind.cleared :=
          (f.kind.isCleared_iff j).mp (Bool.and_eq_true_iff.mp hkept).2
        exact ⟨fun hu => ⟨hu, hcleared⟩, And.left⟩
      · simp only [hkept, Bool.false_eq_true, if_false] at h
        obtain ⟨v, hv, rfl⟩ := Except.map_eq_ok h
        constructor
        · intro hu
          exact absurd (Option.some.inj hu) (FieldKind.toValue_ne_unknown hv)
        · rintro ⟨hu, hcleared⟩
          have hunset : unsetIn prior f.name = true := by
            rw [unsetIn]
            rw [hu]
            cases prior with
            | none => cases hu
            | some values => rfl
          rw [hunset, (f.kind.isCleared_iff j).mpr hcleared] at hkept
          exact absurd rfl hkept

/-- A field that is unknown before always brings something. -/
theorem isSome_declared?_of_unknown (h : f.declared? remote prior = .ok v?)
    (hu : priorValue? prior f.name = some .unknown) : v?.isSome = true := by
  rw [Field.declared?] at h
  split at h
  · obtain rfl := Except.ok.inj h
    rw [hu]
    rfl
  · split at h
    · obtain rfl := Except.ok.inj h
      rw [hu]
      rfl
    · obtain ⟨v, -, rfl⟩ := Except.map_eq_ok h
      rfl

end Fields

/-! ## Sections and rows -/

/-- Values that were read from remote fields over a prior: those of a section, or of a
    row. -/
structure Reading where
  fields : List Field
  remote : Assoc Json
  prior : Option (Assoc Value)
  values : Assoc Value
  read : (declaredEntries fields remote prior).map Assoc.ofEntries = .ok values

namespace Reading

/-- What is read from a section is a reading. -/
def ofSection {s : Section} {remote : Assoc Json} {prior : Option (Assoc Value)}
    {values : Assoc Value} (h : s.toDeclared remote prior = .ok values) : Reading :=
  ⟨s.fields, remote, prior, values, h⟩

/-- A reading is that of a row of a table: the remote row, over the prior row with its
    key. -/
def IsRow (x : Reading) (f : Field) (y : Reading) : Prop :=
  ∃ table rows, f.kind = .table table ∧ Assoc.get? x.remote f.remote = some (.array rows) ∧
    .object y.remote ∈ rows ∧
    y.fields = table.fields ∧
      y.prior = matchingRow? table.fields table.key
        (priorRows (priorValue? x.prior f.name)) y.remote

variable (x : Reading)

/-- Under a name stands what the last field with this name brings. -/
theorem get?_values (name : String) :
    Assoc.get? x.values name = x.fields.reverse.findSome? fun f =>
      if f.name = name then f.brings? x.remote x.prior else none := by
  obtain ⟨entries, hentries, hvalues⟩ := Except.map_eq_ok x.read
  rw [← hvalues]
  exact get?_declared hentries name

/-- Each field of a reading is read. -/
theorem exists_declared? {f : Field} (hf : f ∈ x.fields) :
    ∃ v?, f.declared? x.remote x.prior = .ok v? := by
  obtain ⟨entries, hentries, -⟩ := Except.map_eq_ok x.read
  exact TrafficConfig.exists_declared? hentries hf

/-- **What a reading leaves unknown**: a name that was unknown before, if the remote side
    says nothing about the last field of this name. -/
theorem unknown_iff (name : String) : Assoc.get? x.values name = some .unknown ↔
    priorValue? x.prior name = some .unknown ∧ ∃ f,
      x.fields.reverse.find? (·.name = name) = some f ∧ f.Unsaid x.remote := by
  rw [get?_values]
  have hread : ∀ f ∈ x.fields.reverse, ∃ v?, f.declared? x.remote x.prior = .ok v? := by
    intro f hf
    exact x.exists_declared? (List.mem_reverse.mp hf)
  generalize x.fields.reverse = reversed at hread
  induction reversed with
  | nil => simp
  | cons f rest ih =>
      obtain ⟨v?, hv⟩ := hread f List.mem_cons_self
      have hrest := ih fun g hg => hread g (List.mem_cons_of_mem f hg)
      rw [List.findSome?_cons]
      by_cases hname : f.name = name
      · rw [if_pos hname, Field.brings?_of_declared? hv,
          List.find?_cons_of_pos (by simpa using hname)]
        have hone := declared?_unknown_iff hv
        rw [hname] at hone
        cases v? with
        | some v => simpa using hone
        | none =>
            -- the field brings nothing, so the name was not unknown before
            have hnot : priorValue? x.prior name ≠ some .unknown := by
              intro hu
              exact Bool.noConfusion (isSome_declared?_of_unknown hv (hname ▸ hu))
            exact ⟨fun h => absurd (hrest.mp h).1 hnot, fun h => absurd h.1 hnot⟩
      · rw [if_neg hname, List.find?_cons_of_neg (by simpa using hname)]
        exact hrest

private theorem rows_of_declared? {f : Field} {v : Value}
    (h : f.declared? x.remote x.prior = .ok (some v)) {table : Table}
    (hk : f.kind = .table table) {j : Json} (hj : Assoc.get? x.remote f.remote = some j) :
    ∀ item ∈ v.elements?.getD [], ∃ y, x.IsRow f y ∧ item = .map y.values := by
  rw [Field.declared?, hj] at h
  by_cases hkept : (unsetIn x.prior f.name && f.kind.isCleared j) = true
  · -- an unset value has no rows
    simp only [hkept, if_true] at h
    have hv : priorValue? x.prior f.name = some v := Except.ok.inj h
    have hunset := (Bool.and_eq_true_iff.mp hkept).1
    rw [unsetIn, hv, Bool.and_eq_true_iff] at hunset
    have habsent : v.isAbsent = true := hunset.2
    intro item hitem
    cases v with
    | null => cases hitem
    | unknown => cases hitem
    | _ => exact Bool.noConfusion habsent
  · simp only [hkept, Bool.false_eq_true, if_false] at h
    obtain ⟨w, hw, hwv⟩ := Except.map_eq_ok h
    obtain rfl := Option.some.inj hwv
    rw [hk] at hw
    rcases FieldKind.toValue_table_cases hw with ⟨-, rfl⟩
        | ⟨rows, decoded, rfl, hdecoded, rfl⟩
    · intro item hitem
      cases hitem
    · intro item hitem
      rw [Table.elements?_valueOf] at hitem
      obtain ⟨row, hrow, rfl⟩ := List.mem_map.mp hitem
      rw [(Rows.arrange_perm table _ decoded).mem_iff] at hrow
      -- the row was read from the remote row at the same place
      obtain ⟨i, hi, rfl⟩ := List.getElem_of_mem hrow
      have hi' : i < rows.length := by rw [hdecoded.length_eq]; exact hi
      have hone : table.declaredRow f.name _ rows[i] = .ok decoded[i] := hdecoded.get hi' hi
      cases hremote : rows[i] with
      | object fields =>
          rw [hremote] at hone
          obtain ⟨entries, hentries, hvalues⟩ := Except.bind_eq_ok hone
          have hread : (declaredEntries table.fields fields
              (matchingRow? table.fields table.key
                (priorRows (priorValue? x.prior f.name)) fields)).map Assoc.ofEntries =
              .ok decoded[i] := by
            rw [hentries]
            exact hvalues
          refine ⟨⟨_, _, _, _, hread⟩, ⟨table, rows, hk, hj, ?_, rfl, rfl⟩, rfl⟩
          rw [← hremote]
          exact List.getElem_mem hi'
      | _ => rw [hremote] at hone; cases hone

/-- **The rows of a reading are readings**: a value stands under a name because a field of
    this name kept the prior one, or was read; then each row of it was read from a remote
    row. -/
theorem rows {name : String} {v : Value} (hv : Assoc.get? x.values name = some v) :
    ∃ f ∈ x.fields, f.name = name ∧
      ((Assoc.get? x.remote f.remote = none ∧ priorValue? x.prior name = some v) ∨
        ((Assoc.get? x.remote f.remote).isSome = true ∧ ∀ table, f.kind = .table table →
          ∀ item ∈ v.elements?.getD [], ∃ y, x.IsRow f y ∧ item = .map y.values)) := by
  rw [get?_values] at hv
  obtain ⟨f, hf, hbrings⟩ := List.exists_of_findSome?_eq_some hv
  rw [List.mem_reverse] at hf
  by_cases hname : f.name = name
  · rw [if_pos hname] at hbrings
    obtain ⟨v?, hdeclared⟩ := x.exists_declared? hf
    rw [Field.brings?_of_declared? hdeclared] at hbrings
    subst hbrings
    refine ⟨f, hf, hname, ?_⟩
    cases hj : Assoc.get? x.remote f.remote with
    | none =>
        left
        rw [Field.declared?, hj] at hdeclared
        exact ⟨rfl, hname ▸ Except.ok.inj hdeclared⟩
    | some j =>
        right
        exact ⟨rfl, fun table hk => x.rows_of_declared? hdeclared hk hj⟩
  · rw [if_neg hname] at hbrings
    cases hbrings

end Reading

/-! ## States of documents -/

section State

variable {sections : List Section} {name : String} {document : Json} {prior state : Value}
  {s : Section} {f : Field}

private theorem isEmpty_heldIn {j : Json}
    (h : heldField? document s.remote f.remote = some j) :
    (s.heldIn document).isEmpty = false := by
  have hget := (get?_heldIn s document f.remote).trans h
  cases hR : s.heldIn document with
  | nil => rw [hR] at hget; exact nomatch hget
  | cons e rest => rfl

/-- A field stays unknown: it was, and the document holds only the cleared value; or its
    whole block was, and the document holds nothing else for the block. -/
def Section.StaysUnknown (s : Section) (document : Json) (before : Assoc Value)
    (f : Field) : Prop :=
  (s.valueIn before f = .unknown ∧
    heldField? document s.remote f.remote = some f.kind.cleared) ∨
    ∃ block ∈ s.block, getOrNull before block = .unknown ∧
      s.isCleared (s.heldIn document) = true

private theorem getOrNull_eq_unknown_iff {values : Assoc Value} {name : String} :
    getOrNull values name = .unknown ↔ Assoc.get? values name = some .unknown := by
  rw [getOrNull]
  cases Assoc.get? values name with
  | none => simp
  | some v => simp

/-- What is read from a section leaves a field unknown that was unknown, and is held as
    cleared. -/
theorem get?_read_unknown_iff {prior : Option (Assoc Value)} {read : Assoc Value}
    (h : s.toDeclared (s.heldIn document) prior = .ok read)
    (hn : (s.fields.map (·.name)).Nodup) (hf : f ∈ s.fields) {j : Json}
    (hj : heldField? document s.remote f.remote = some j) :
    Assoc.get? read f.name = some .unknown ↔
      priorValue? prior f.name = some .unknown ∧ j = f.kind.cleared := by
  rw [declared?_unknown_iff (Section.declared?_of_toDeclared h hn hf),
    Field.Unsaid, get?_heldIn, hj]
  simp

section Held

variable (h : stateOfDocument sections name document prior = .ok state)
  (hn : DistinctNames sections) (hs : s ∈ sections) {j : Json}
  (hj : heldField? document s.remote f.remote = some j)
include h hn hs hj

private theorem block_cases_of_held {block : String} (hb : s.block = some block) :
    ∃ found, Section.instance? prior.root block = .ok found ∧
      ((found = none ∧ s.isCleared (s.heldIn document) = true ∧
        getOrNull state.root block = getOrNull prior.root block) ∨
        ((found = none → s.isCleared (s.heldIn document) = false) ∧ ∃ read,
          s.toDeclared (s.heldIn document) found = .ok read ∧
            getOrNull state.root block = .list [.map read])) := by
  obtain ⟨found, hfound, hcases⟩ := get?_stateOfDocument_inBlock h hn hs hb
  rw [isEmpty_heldIn hj, Bool.false_or] at hcases
  refine ⟨found, hfound, ?_⟩
  split at hcases
  · next hkept =>
      left
      obtain ⟨hnone, hcleared⟩ := Bool.and_eq_true_iff.mp hkept
      exact ⟨Option.isNone_iff_eq_none.mp hnone, hcleared, getOrNull_congr hcases⟩
  · next hkept =>
      right
      obtain ⟨read, hread, hstate⟩ := hcases
      refine ⟨?_, read, hread, getOrNull_of_get? hstate⟩
      rintro rfl
      rw [Option.isNone_none, Bool.true_and] at hkept
      exact Bool.eq_false_iff.mpr hkept

/-- A top-level attribute stays unknown when it is held as cleared. -/
theorem unknown_topLevel_iff (hb : s.block = none) (hf : f ∈ s.fields) :
    getOrNull state.root f.name = .unknown ↔
      getOrNull prior.root f.name = .unknown ∧ j = f.kind.cleared := by
  obtain ⟨read, hread, hstate⟩ := get?_stateOfDocument_topLevel h hn hs hb
  rw [getOrNull_eq_unknown_iff, getOrNull_eq_unknown_iff, hstate f hf]
  exact get?_read_unknown_iff hread (hn.fields s hs) hf hj

/-- A field of a block stays unknown when it is held as cleared, or when the whole block
    stays unknown. -/
theorem unknown_inBlock_iff {block : String} (hb : s.block = some block)
    (hf : f ∈ s.fields) :
    (s.valueIn state.root f = .unknown ∨ getOrNull state.root block = .unknown) ↔
      (s.valueIn prior.root f = .unknown ∧ j = f.kind.cleared) ∨
        (getOrNull prior.root block = .unknown ∧
          s.isCleared (s.heldIn document) = true) := by
  obtain ⟨found, hfound, hcases⟩ := block_cases_of_held h hn hs hj hb
  rw [Section.valueIn_eq_of_inBlock hb, Section.valueIn_eq_of_inBlock hb,
    Section.entriesOf_of_instance? hfound]
  rcases hcases with ⟨rfl, hcleared, hsame⟩ | ⟨hsaid, read, hread, hnew⟩
  · rw [hsame, Section.entriesOf_of_instance? hfound, hcleared]
    simp [getOrNull]
  · rw [hnew, getOrNull_eq_unknown_iff, getOrNull_eq_unknown_iff,
      show Section.entriesOf (.list [.map read]) = read from rfl,
      get?_read_unknown_iff hread (hn.fields s hs) hf hj]
    cases found with
    | some entries =>
        -- a block with an instance is not unknown
        have hblock : getOrNull prior.root block ≠ .unknown := by
          intro hu
          rcases Section.instance?_eq_some_iff.mp hfound with hv | hv | hv <;>
            rw [hu] at hv <;> cases hv
        simp [priorValue?, hblock]
    | none => simp [priorValue?, hsaid rfl]

end Held

/-- **What the state of a document leaves unknown**, among the fields that the document
    holds. -/
theorem leavesUnknown_iff (h : stateOfDocument sections name document prior = .ok state)
    (hn : DistinctNames sections) (hs : s ∈ sections) (hf : f ∈ s.fields)
    (hheld : (heldField? document s.remote f.remote).isSome = true) :
    s.LeavesUnknown state.root f ↔ s.StaysUnknown document prior.root f := by
  obtain ⟨j, hj⟩ := Option.isSome_iff_exists.mp hheld
  rw [Section.LeavesUnknown, Section.StaysUnknown, hj, Option.some.injEq]
  cases hb : s.block with
  | none =>
      simp only [Option.mem_def, reduceCtorEq, false_and, exists_false, or_false]
      rw [Section.valueIn_eq_of_topLevel hb, Section.valueIn_eq_of_topLevel hb]
      exact unknown_topLevel_iff h hn hs hj hb hf
  | some block =>
      simp only [Option.mem_def, Option.some.injEq, exists_eq_left']
      exact unknown_inBlock_iff h hn hs hj hb hf

/-- **The rows of a table in the state of a document are readings**, when the document
    holds the table. -/
theorem rows_of_stateOfDocument
    (h : stateOfDocument sections name document prior = .ok state)
    (hn : DistinctNames sections) (hs : s ∈ sections) (hf : f ∈ s.fields)
    (hheld : (heldField? document s.remote f.remote).isSome = true) {table : Table}
    (hk : f.kind = .table table) :
    ∀ item ∈ (s.valueIn state.root f).elements?.getD [], ∃ x y : Reading,
      x.fields = s.fields ∧ x.remote = s.heldIn document ∧ x.IsRow f y ∧
        item = .map y.values := by
  obtain ⟨j, hj⟩ := Option.isSome_iff_exists.mp hheld
  have hrows : ∀ {prior : Option (Assoc Value)} {read : Assoc Value},
      s.toDeclared (s.heldIn document) prior = .ok read →
      ∀ item ∈ (getOrNull read f.name).elements?.getD [], ∃ x y : Reading,
        x.fields = s.fields ∧ x.remote = s.heldIn document ∧ x.IsRow f y ∧
          item = .map y.values := by
    intro prior read hread item hitem
    cases hv : Assoc.get? read f.name with
    | none =>
        rw [getOrNull, hv] at hitem
        cases hitem
    | some v =>
        rw [getOrNull_of_get? hv] at hitem
        obtain ⟨g, hg, hname, hcases⟩ := (Reading.ofSection hread).rows hv
        obtain rfl : g = f := List.inj_on_of_nodup_map (hn.fields s hs) hg hf hname
        rcases hcases with ⟨hnone, -⟩ | ⟨-, hall⟩
        · exact absurd (hj.symm.trans ((get?_heldIn ..).symm.trans hnone)) (Option.some_ne_none j)
        · obtain ⟨y, hy, hmap⟩ := hall table hk item hitem
          exact ⟨Reading.ofSection hread, y, rfl, rfl, hy, hmap⟩
  intro item hitem
  cases hb : s.block with
  | none =>
      obtain ⟨read, hread, hstate⟩ := get?_stateOfDocument_topLevel h hn hs hb
      rw [Section.valueIn_eq_of_topLevel hb, getOrNull_congr (hstate f hf)] at hitem
      exact hrows hread item hitem
  | some block =>
      rw [Section.valueIn_eq_of_inBlock hb] at hitem
      obtain ⟨found, hfound, ⟨rfl, -, hsame⟩ | ⟨-, read, hread, hnew⟩⟩ :=
        block_cases_of_held h hn hs hj hb
      · -- a block that stays without an instance has no rows
        rw [hsame, Section.entriesOf_of_instance? hfound] at hitem
        cases hitem
      · rw [hnew] at hitem
        exact hrows hread item hitem

end State

/-! ## Operations -/

/-- What brings a state of an object. -/
inductive Action where
  | create (planned : Value)
  | update (prior planned : Value) (changes : ChangeSet)
  | read (current : Value)

namespace Action

/-- The state that a fetched document is read over: the plan with its defaults, or the
    current state. -/
def before (r : Resource) : Action → Value
  | .create planned => (r.schema.prepare planned).1
  | .update _ planned _ => (r.schema.prepare planned).1
  | .read current => current

/-- The operation, with the state that it answers with. -/
def operation (r : Resource) : Action → Operation (Option Value)
  | .create planned => (fun a : Applied => some a.state) <$> r.create planned
  | .update prior planned changes =>
      (fun a : Applied => some a.state) <$> r.update prior planned changes
  | .read current => Refreshed.state? <$> r.read current

end Action

section Fetched

variable {σ : Type} {server : Server σ} {s : σ} {r : Resource} {sections : List Section}
  {address : Address} {document : Json}

/-- A state is the one that a document stands for, or the one from before when the
    document cannot be read. -/
def ReadFrom (sections : List Section) (document : Json) (before state : Value) : Prop :=
  ∃ name, stateOfDocument sections name document before = .ok state ∨
    ((∃ e, stateOfDocument sections name document before = .error e) ∧ state = before)

/-- A document is fetched by the one call of a look at an object. -/
theorem run_fetch_of_history (hc : r.content = .document sections) {name : String}
    {prior : Value}
    (h : ⟨.get address, .ok document⟩ ∈ (r.fetch name prior).history server s) :
    ((r.fetch name prior).run server s).1 =
      r.lookedAt sections name prior (.ok document) := by
  rw [Resource.history_fetch hc, List.mem_singleton] at h
  rw [Resource.run_fetch hc]
  obtain ⟨hcall, hanswer⟩ := Answered.mk.inj h
  obtain rfl := Call.get.inj hcall
  rw [← eq_of_heq hanswer]

private theorem readFrom_of_history_write (hc : r.content = .document sections)
    {action name : String} {c : Call} (hcall : ∀ a, c ≠ .get a) {plan refused : Value}
    {reports : List Diagnostic}
    (h : ⟨.get address, .ok document⟩ ∈
      (r.write action name c plan refused reports).history server s) :
    ReadFrom sections document plan
      ((r.write action name c plan refused reports).run server s).1.state := by
  rw [Resource.history_write] at h
  rw [Resource.run_write]
  rcases List.mem_cons.mp h with h | h
  · -- the write itself is no look at the object
    obtain ⟨hget, -⟩ := Answered.mk.inj h
    exact absurd hget.symm (hcall address)
  · cases hrefused : Resource.refusal? (server s c).1 with
    | some reason => rw [hrefused] at h; exact nomatch h
    | none =>
        rw [hrefused] at h
        show ReadFrom sections document plan
          (r.settled name plan reports ((r.fetch name plan).run server _).1).state
        rw [run_fetch_of_history hc h, Resource.lookedAt]
        refine ⟨name, ?_⟩
        cases hstate : stateOfDocument sections name document plan with
        | ok state => exact .inl rfl
        | error e => exact .inr ⟨⟨e, rfl⟩, rfl⟩

/-- **Whatever the server answers, a fetched document becomes the state**, unless it
    cannot be read. -/
theorem Action.readFrom_of_history (hc : r.content = .document sections) (a : Action)
    (h : ⟨.get address, .ok document⟩ ∈ (a.operation r).history server s) :
    ∃ state, ((a.operation r).run server s).1 = some state ∧
      ReadFrom sections document (a.before r) state := by
  cases a with
  | create planned =>
      rw [Action.operation, Operation.history_map] at h
      rw [Action.operation, Operation.run_map]
      refine ⟨_, rfl, ?_⟩
      obtain ⟨reports, -, hdone⟩ | ⟨name, payload, -, -, hwrite⟩ :=
        Resource.create_cases hc planned
      · rw [hdone] at h
        exact nomatch h
      · rw [hwrite] at h ⊢
        have hcall : ∀ q, Call.create (r.address name) payload ≠ .get q :=
          fun _ hget => nomatch hget
        exact readFrom_of_history_write hc hcall h
  | update prior planned changes =>
      rw [Action.operation, Operation.history_map] at h
      rw [Action.operation, Operation.run_map]
      refine ⟨_, rfl, ?_⟩
      obtain ⟨reports, -, hdone⟩ | ⟨name, -, -, ⟨-, hdone⟩ | ⟨payload, -, hwrite⟩⟩ :=
        Resource.update_cases hc prior planned changes
      · rw [hdone] at h
        exact nomatch h
      · rw [hdone] at h
        exact nomatch h
      · rw [hwrite] at h ⊢
        have hcall : ∀ q, Call.update (r.address name) payload ≠ .get q :=
          fun _ hget => nomatch hget
        exact readFrom_of_history_write hc hcall h
  | read current =>
      rw [Action.operation, Operation.history_map] at h
      rw [Action.operation, Operation.run_map]
      obtain ⟨-, reports, hdone⟩ | ⟨name, -, hread⟩ := Resource.read_cases (r := r) current
      · rw [hdone] at h
        exact nomatch h
      · rw [hread, Operation.history_map] at h
        rw [hread, Operation.run_map]
        show ∃ state, (Resource.refreshed current
          ((r.fetch name current).run server s).1).state? = some state ∧ _
        rw [run_fetch_of_history hc h, Resource.lookedAt]
        cases hstate : stateOfDocument sections name document current with
        | ok state => exact ⟨state, rfl, name, .inl hstate⟩
        | error e => exact ⟨current, rfl, name, .inr ⟨⟨e, hstate⟩, rfl⟩⟩

end Fetched

/-- **What an apply leaves unknown.** A look at a remote section, or at a row of a table,
    leaves exactly those names unknown that were unknown before and about which the remote
    side says nothing; every row of a table was looked at in this way. So when creating,
    updating or reading an object of the catalog fetches a document that can be read, a
    field that the document holds is unknown afterwards exactly when it stays so, and the
    rows of a table that it holds were read. -/
theorem unknown_after_apply (x : Reading) (name : String) :
    (Assoc.get? x.values name = some .unknown ↔
      priorValue? x.prior name = some .unknown ∧
        ∃ f, x.fields.reverse.find? (·.name = name) = some f ∧ f.Unsaid x.remote) ∧
    (∀ v, Assoc.get? x.values name = some v → ∃ f ∈ x.fields, f.name = name ∧
      ((Assoc.get? x.remote f.remote = none ∧ priorValue? x.prior name = some v) ∨
        ((Assoc.get? x.remote f.remote).isSome = true ∧ ∀ table, f.kind = .table table →
          ∀ item ∈ v.elements?.getD [], ∃ y, x.IsRow f y ∧ item = .map y.values))) ∧
    ∀ r ∈ Catalog.resources, ∀ sections, r.content = .document sections →
      ∀ (σ : Type) (server : Server σ) (start : σ) (a : Action)
        (address : Address) (document : Json),
        ⟨.get address, .ok document⟩ ∈ (a.operation r).history server start →
          ∃ state, ((a.operation r).run server start).1 = some state ∧
            ((∃ name e, stateOfDocument sections name document (a.before r) = .error e ∧
              state = a.before r) ∨
              ∀ s ∈ sections, ∀ f ∈ s.fields,
                (heldField? document s.remote f.remote).isSome = true →
                (s.LeavesUnknown state.root f ↔
                  s.StaysUnknown document (a.before r).root f) ∧
                  ∀ table, f.kind = .table table →
                    ∀ item ∈ (s.valueIn state.root f).elements?.getD [],
                    ∃ x y : Reading, x.fields = s.fields ∧
                      x.remote = s.heldIn document ∧ x.IsRow f y ∧
                      item = .map y.values) := by
  refine ⟨x.unknown_iff name, fun v => x.rows, ?_⟩
  intro r hr sections hc σ server start a address document hfetched
  obtain ⟨state, hstate, name, hread | ⟨⟨e, herror⟩, hsame⟩⟩ :=
    a.readFrom_of_history hc hfetched
  · refine ⟨state, hstate, .inr ?_⟩
    intro s hs f hf hheld
    have hn := (Catalog.regular hr hc).names
    exact ⟨leavesUnknown_iff hread hn hs hf hheld,
      fun table hk => rows_of_stateOfDocument hread hn hs hf hheld hk⟩
  · exact ⟨state, hstate, .inl ⟨name, e, herror, hsame⟩⟩

section LogFormat

open Catalog

/-- A server that holds one document, whatever it is asked. -/
private def holding (document : Json) : Server Unit
  | (), .create _ _ => (.ok document, ())
  | (), .get _ => (.ok document, ())
  | (), .update _ _ => (.ok document, ())
  | (), .delete _ => (.ok (), ())
  | (), .putText _ _ => (.ok (), ())
  | (), .getText _ => (.ok "", ())

private def unformatted : Json :=
  propertiesDocument [("log", .object [("format", .string "")])]

private def unknownFormat : Value :=
  .map [("log_format", .unknown), ("name", .string "glb")]

private theorem toDeclared_unformatted :
    LoadBalancing.log.toDeclared [("format", .string "")]
      (some [("log_format", .unknown)]) = .ok [("log_format", .unknown)] :=
  rfl

/-- A service whose log format is unknown is read, and the remote side holds an empty one:
    it is still unknown, in the section and in the state. -/
theorem log_format_stays_unknown :
    (∃ values, LoadBalancing.log.toDeclared [("format", .string "")]
      (some [("log_format", .unknown)]) = .ok values ∧
      Assoc.get? values "log_format" = some .unknown) ∧
    ∃ state, ((Action.operation loadBalancing (.read unknownFormat)).run
      (holding unformatted) ()).1 = some state ∧
      LoadBalancing.log.LeavesUnknown state.root
        ((Field.string "log_format").named "format") := by
  obtain ⟨hunknown, -, hactions⟩ :=
    unknown_after_apply (.ofSection toDeclared_unformatted) "log_format"
  refine ⟨⟨_, toDeclared_unformatted, hunknown.mpr ⟨rfl, _, rfl, .inr rfl⟩⟩, ?_⟩
  have hfetched : ⟨.get (loadBalancing.address "glb"), .ok unformatted⟩ ∈
      (Action.operation loadBalancing (.read unknownFormat)).history
        (holding unformatted) () := List.mem_cons_self
  obtain ⟨state, hstate, ⟨name, e, herror, -⟩ | hfields⟩ :=
    hactions loadBalancing (by simp [resources]) LoadBalancing.sections rfl Unit
      (holding unformatted) () (.read unknownFormat) _ unformatted hfetched
  · have hread : (stateOfDocument LoadBalancing.sections name unformatted
        unknownFormat).toOption.isSome = true := by rfl
    rw [show stateOfDocument LoadBalancing.sections name unformatted unknownFormat =
      .error e from herror] at hread
    exact Bool.noConfusion hread
  · refine ⟨state, hstate, ?_⟩
    have hfield := hfields LoadBalancing.log (by simp [LoadBalancing.sections])
      ((Field.string "log_format").named "format")
      (by simp [LoadBalancing.log, Section.topLevel]) rfl
    exact hfield.1.mpr (.inl ⟨rfl, rfl⟩)

/-- **A field that the remote section holds may still be unknown after it was read.** -/
theorem read_keeps_unknown :
    ¬∀ (s : Section) (remote : Assoc Json) (prior values : Assoc Value),
      s.toDeclared remote (some prior) = .ok values →
      ∀ f ∈ s.fields, ∀ j, Assoc.get? remote f.remote = some j → j ≠ .null →
        Assoc.get? values f.name ≠ some .unknown := by
  intro hclaim
  have hmem : (Field.string "log_format").named "format" ∈ LoadBalancing.log.fields := by
    simp [LoadBalancing.log, Section.topLevel]
  exact hclaim LoadBalancing.log _ _ _ toDeclared_unformatted _ hmem (.string "") rfl
    (fun hnull => nomatch hnull) rfl

end LogFormat

end TrafficConfig
