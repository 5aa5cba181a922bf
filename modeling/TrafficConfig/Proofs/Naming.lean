import TrafficConfig.Catalog.VirtualServer
import TrafficConfig.Proofs.Tables
import Mathlib.Data.List.Duplicate

/-!
# Which tables of fields pass

The check of names stops at the first fault that it comes upon, in a table of fields or in
one nested in it. It accepts the tables whose names correspond, and no others:

* **`HasLevel`** — a table of fields and all that are nested in it, at any depth;
  **`NamesCorrespond`** says of one of them what the check is for;
* **`NamingFault.FoundIn`** — what each fault says of a level. What is reported is there
  (**`within_of_checkNaming`**), so that a table without faults passes
  (**`checkNaming_eq_ok_iff`**);
* **`Section.field?_eq_some_iff`**, **`Section.remoteField?_eq_some_iff`** — in a section
  that passes, a field is found by its own name on either side and by nothing else.

The main result is **`names_correspond`**.
-/

namespace TrafficConfig

/-! ## Levels -/

/-- A table of fields, and the tables nested in it at any depth. -/
inductive HasLevel : List Field → List Field → Prop
  | self (fields : List Field) : HasLevel fields fields
  | nested {fields level : List Field} {f : Field} {table : Table} (hf : f ∈ fields)
      (hkind : f.kind = .table table) (h : HasLevel table.fields level) : HasLevel fields level

/-- No name stands for two fields, on either side, and the key of a nested table, if it has one,
    is one of its fields. -/
structure NamesCorrespond (fields : List Field) : Prop where
  names : (fields.map (·.name)).Nodup
  remotes : (fields.map (·.remote)).Nodup
  keys : ∀ f ∈ fields, ∀ table, f.kind = .table table → ∀ key ∈ table.key,
    ∃ g ∈ table.fields, g.name = key

/-! ## Faults -/

namespace NamingFault

variable {fault : NamingFault} {fields rest : List Field} {f : Field}

/-- What a fault says of a table of fields. -/
def FoundIn (fields : List Field) : NamingFault → Prop
  | .nameTwice name => List.Duplicate name (fields.map (·.name))
  | .remoteTwice remote => List.Duplicate remote (fields.map (·.remote))
  | .keyMissing name key => ∃ f ∈ fields, f.name = name ∧ ∃ table, f.kind = .table table ∧
      table.key = some key ∧ ∀ g ∈ table.fields, g.name ≠ key

/-- A fault is found at one of the levels. -/
def Within (fields : List Field) (fault : NamingFault) : Prop :=
  ∃ level, HasLevel fields level ∧ fault.FoundIn level

/-- Names that correspond have no fault. -/
theorem not_foundIn_of_correspond (h : NamesCorrespond fields) : ¬ fault.FoundIn fields := by
  cases fault with
  | nameTwice name => exact fun hdup => hdup.not_nodup h.names
  | remoteTwice remote => exact fun hdup => hdup.not_nodup h.remotes
  | keyMissing name key =>
      rintro ⟨f, hf, -, table, hkind, hkey, hmissing⟩
      obtain ⟨g, hg, hname⟩ := h.keys f hf table hkind key hkey
      exact hmissing g hg hname

/-- A fault stays when a field is put in front. -/
theorem FoundIn.cons (f : Field) (h : fault.FoundIn rest) : fault.FoundIn (f :: rest) := by
  cases fault with
  | nameTwice name => exact h.duplicate_cons f.name
  | remoteTwice remote => exact h.duplicate_cons f.remote
  | keyMissing name key =>
      obtain ⟨g, hg, hmissing⟩ := h
      exact ⟨g, List.mem_cons_of_mem f hg, hmissing⟩

/-- A fault at some depth stays when a field is put in front. -/
theorem Within.cons (f : Field) (h : fault.Within rest) : fault.Within (f :: rest) := by
  obtain ⟨level, hlevel, hfault⟩ := h
  cases hlevel with
  | self => exact ⟨f :: rest, .self _, hfault.cons f⟩
  | nested hg hkind hlevel =>
      exact ⟨level, .nested (List.mem_cons_of_mem f hg) hkind hlevel, hfault⟩

/-- A fault within a table is one within the fields around it. -/
theorem Within.nested {table : Table} (hf : f ∈ fields) (hkind : f.kind = .table table)
    (h : fault.Within table.fields) : fault.Within fields := by
  obtain ⟨level, hlevel, hfault⟩ := h
  exact ⟨level, .nested hf hkind hlevel, hfault⟩

private theorem clash_eq_error {name remote : String} (h : clash name remote rest = .error fault) :
    (fault = .nameTwice name ∧ name ∈ rest.map (·.name)) ∨
      (fault = .remoteTwice remote ∧ remote ∈ rest.map (·.remote)) := by
  induction rest with
  | nil => exact nomatch h
  | cons other rest ih =>
      rw [clash] at h
      by_cases hname : name = other.name
      · rw [if_pos hname] at h
        exact .inl ⟨(Except.error.inj h).symm, hname ▸ List.mem_cons_self⟩
      · rw [if_neg hname] at h
        by_cases hremote : remote = other.remote
        · rw [if_pos hremote] at h
          exact .inr ⟨(Except.error.inj h).symm, hremote ▸ List.mem_cons_self⟩
        · rw [if_neg hremote] at h
          exact (ih h).imp (fun h => ⟨h.1, List.mem_cons_of_mem _ h.2⟩)
            fun h => ⟨h.1, List.mem_cons_of_mem _ h.2⟩

/-- A clash with a later field is a name that stands for two fields. -/
theorem foundIn_of_clash (h : clash f.name f.remote rest = .error fault) :
    fault.FoundIn (f :: rest) := by
  rcases clash_eq_error h with ⟨rfl, hmem⟩ | ⟨rfl, hmem⟩
  · exact hmem.duplicate_cons_self
  · exact hmem.duplicate_cons_self

end NamingFault

section Reports

variable {fault : NamingFault} {fields rest : List Field} {f : Field}

private theorem checkNaming_cons_eq_error (h : checkNaming (f :: rest) = .error fault) :
    clash f.name f.remote rest = .error fault ∨ f.kind.checkNaming f.name = .error fault ∨
      checkNaming rest = .error fault := by
  obtain ⟨name, remote, kind, readOnly, alwaysSent⟩ := f
  rw [checkNaming] at h
  cases hclash : clash name remote rest with
  | error found =>
      rw [hclash] at h
      exact .inl h
  | ok =>
      rw [hclash] at h
      cases hkind : kind.checkNaming name with
      | error found =>
          rw [hkind] at h
          exact .inr (.inl h)
      | ok =>
          rw [hkind] at h
          exact .inr (.inr h)

private theorem checkNaming_table_eq_error {table : Table} {name : String}
    (h : (FieldKind.table table).checkNaming name = .error fault) :
    (∃ key, fault = .keyMissing name key ∧ table.key = some key ∧
      ∀ g ∈ table.fields, g.name ≠ key) ∨ checkNaming table.fields = .error fault := by
  obtain ⟨fields, key, ordered⟩ := table
  cases key with
  | none =>
      rw [FieldKind.checkNaming] at h
      exact .inr h
  | some key =>
      rw [FieldKind.checkNaming] at h
      by_cases hany : fields.any (·.name = key) = true
      · rw [if_pos hany] at h
        exact .inr h
      · rw [if_neg hany] at h
        refine .inl ⟨key, (Except.error.inj h).symm, rfl, fun g hg hname => hany ?_⟩
        exact List.any_eq_true.mpr ⟨g, hg, decide_eq_true hname⟩

/-- The check of a kind reports what is found in the table of its field, or below it. -/
def FieldKind.ReportsWithin (kind : FieldKind) : Prop :=
  ∀ {fields : List Field} {f : Field} {fault : NamingFault}, f ∈ fields → f.kind = kind →
    kind.checkNaming f.name = .error fault → fault.Within fields

private theorem within_of_reports (hkinds : ∀ f ∈ fields, f.kind.ReportsWithin)
    (h : checkNaming fields = .error fault) : fault.Within fields := by
  -- along one level; what lies below it is left to the induction on kinds
  induction fields with
  | nil => exact nomatch h
  | cons f rest ih =>
      rcases checkNaming_cons_eq_error h with hclash | hkind | hrest
      · exact ⟨f :: rest, .self _, NamingFault.foundIn_of_clash hclash⟩
      · exact hkinds f List.mem_cons_self List.mem_cons_self rfl hkind
      · exact (ih (fun g hg => hkinds g (List.mem_cons_of_mem f hg)) hrest).cons f

/-- What the check of a kind reports is a fault within its table. -/
theorem FieldKind.reportsWithin (kind : FieldKind) : kind.ReportsWithin := by
  induction kind using FieldKind.induction with
  | string | bool | int | list | set => exact fun _ _ h => nomatch h
  | table t ih =>
      intro fields f fault hf hkind h
      rcases checkNaming_table_eq_error h with ⟨key, rfl, hkey, hmissing⟩ | hrows
      · exact ⟨fields, .self _, f, hf, rfl, t, hkind, hkey, hmissing⟩
      · exact (within_of_reports ih hrows).nested hf hkind

/-- **What the check reports is there**, at one of the levels. -/
theorem within_of_checkNaming (h : checkNaming fields = .error fault) : fault.Within fields :=
  within_of_reports (fun f _ => f.kind.reportsWithin) h

-- a table inside a table, whose key is not one of its fields
example : checkNaming [.string "host", .table "hosts" (.orderedBy "name" [.string "name",
    .table "routes" (.orderedBy "gw" [.string "name"])])] =
      .error (.keyMissing "routes" "gw") := by decide

/-- **The check accepts exactly the tables of fields whose names correspond at every level.** -/
theorem checkNaming_eq_ok_iff :
    checkNaming fields = .ok () ↔ ∀ level, HasLevel fields level → NamesCorrespond level := by
  constructor
  · intro h level hlevel
    induction hlevel with
    | self fields =>
        refine ⟨checkNaming_names h, checkNaming_remotes h, ?_⟩
        intro f hf table hkind key hkey
        have htable := checkNaming_kinds h f hf
        rw [hkind] at htable
        exact checkNaming_key htable hkey
    | nested hf hkind _ ih =>
        have htable := checkNaming_kinds h _ hf
        rw [hkind] at htable
        exact ih (checkNaming_table htable)
  · intro h
    cases hcheck : checkNaming fields with
    | ok => rfl
    | error fault =>
        obtain ⟨level, hlevel, hfault⟩ := within_of_checkNaming hcheck
        exact absurd hfault (NamingFault.not_foundIn_of_correspond (h level hlevel))

end Reports

/-! ## Finding fields -/

/-- Where keys are distinct, the key of an element finds its place. -/
theorem find?_getElem_eq_some_iff {α β : Type} [DecidableEq β] {key : α → β} {items : List α}
    (hn : (items.map key).Nodup) (i j : Fin items.length) :
    items.find? (fun other => key other = key items[j]) = some items[i] ↔ i = j := by
  rw [find?_eq_some_iff_of_nodup hn]
  constructor
  · rintro ⟨hmem, hkey⟩
    have hitem : items[i] = items[j] :=
      List.inj_on_of_nodup_map hn hmem (List.getElem_mem j.isLt) hkey
    exact Fin.ext (hn.of_map.getElem_inj_iff.mp hitem)
  · rintro rfl
    exact ⟨List.getElem_mem i.isLt, rfl⟩

namespace Section

variable {s : Section} (h : checkNaming s.fields = .ok ()) {f : Field}
include h

/-- A field is found by its name exactly when it is one of the section. -/
theorem field?_eq_some_iff {name : String} :
    s.field? name = some f ↔ f ∈ s.fields ∧ f.name = name :=
  find?_eq_some_iff_of_nodup (checkNaming_names h)

/-- A field is found by its remote name exactly when it is one of the section. -/
theorem remoteField?_eq_some_iff {remote : String} :
    s.remoteField? remote = some f ↔ f ∈ s.fields ∧ f.remote = remote :=
  find?_eq_some_iff_of_nodup (checkNaming_remotes h)

/-- A declared name goes to a remote one exactly when the remote one comes back to it. -/
theorem remote_of_name_iff {name remote : String} :
    (s.field? name).map (·.remote) = some remote ↔
      (s.remoteField? remote).map (·.name) = some name := by
  rw [Option.map_eq_some_iff, Option.map_eq_some_iff]
  simp only [field?_eq_some_iff h, remoteField?_eq_some_iff h]
  constructor
  · rintro ⟨f, ⟨hf, hname⟩, hremote⟩
    exact ⟨f, ⟨hf, hremote⟩, hname⟩
  · rintro ⟨f, ⟨hf, hremote⟩, hname⟩
    exact ⟨f, ⟨hf, hname⟩, hremote⟩

end Section

/-- **Names that pass correspond one to one.** A table of fields passes exactly when in it, and
    in every table nested in it, no name is used twice on either side and every key is a field.
    In a section whose fields pass, the two look-ups undo each other: each field is found by its
    own name, declared or remote, and by the name of no other. -/
theorem names_correspond :
    (∀ fields : List Field, checkNaming fields = .ok () ↔
      ∀ level, HasLevel fields level → NamesCorrespond level) ∧
    ∀ s : Section, checkNaming s.fields = .ok () →
      (∀ name remote, (s.field? name).map (·.remote) = some remote ↔
        (s.remoteField? remote).map (·.name) = some name) ∧
      ∀ i j : Fin s.fields.length,
        (s.field? s.fields[j].name = some s.fields[i] ↔ i = j) ∧
        (s.remoteField? s.fields[j].remote = some s.fields[i] ↔ i = j) := by
  refine ⟨fun fields => checkNaming_eq_ok_iff, fun s h => ⟨fun name remote => ?_, fun i j => ?_⟩⟩
  · exact Section.remote_of_name_iff h
  · exact ⟨find?_getElem_eq_some_iff (checkNaming_names h) i j,
      find?_getElem_eq_some_iff (checkNaming_remotes h) i j⟩

section HostMapping

open Catalog

/-- The field with different names on the two sides is found by each of them, and the remote
    name of no other field finds it. -/
theorem host_mapping_found :
    checkNaming VirtualServer.ssl.fields = .ok () ∧
      (VirtualServer.ssl.field? "ssl_server_cert_host_mapping").map (·.remote) =
        some "server_cert_host_mapping" ∧
      (VirtualServer.ssl.remoteField? "server_cert_host_mapping").map (·.name) =
        some "ssl_server_cert_host_mapping" ∧
      ∀ j : Fin VirtualServer.ssl.fields.length,
        VirtualServer.ssl.remoteField? VirtualServer.ssl.fields[j].remote =
          some VirtualServer.ssl.fields[15] ↔ 15 = j.val := by
  have hnaming : checkNaming VirtualServer.ssl.fields = .ok () := by decide +kernel
  obtain ⟨hinverse, hfound⟩ := names_correspond.2 VirtualServer.ssl hnaming
  have hremote : (VirtualServer.ssl.field? "ssl_server_cert_host_mapping").map (·.remote) =
      some "server_cert_host_mapping" := by decide +kernel
  refine ⟨hnaming, hremote, (hinverse _ _).mp hremote, fun j => ?_⟩
  exact (hfound ⟨15, by decide⟩ j).2.trans Fin.ext_iff

end HostMapping

end TrafficConfig
