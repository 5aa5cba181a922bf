import TrafficConfig.Proofs.UnknownPlans

/-!
# Changes that are confined to fields that are only read

A change set holds the paths at which something changed, and every path above one of them. A
section looks for a change at its writable fields, or, when it is replaced as a whole, at its
block; and the block stands above its fields that are only read:

* **`Section.watched`** — the names at which a section looks, and **`Section.touched_iff`**;
* **`ReadOnlyPath`** — the path of a field that is only read, and of no writable field;
* **`updatePayload_of_readOnly_paths`** — such paths cause an update exactly when one of them lies
  at or below the block of a section that is replaced as a whole, or below a writable field, which
  names without points rule out;
* **`update_of_read_addresses`** — so a change of what is only read may send a section, and clear
  what the remote side holds in it.
-/

namespace TrafficConfig

open ChangeSet

namespace Section

/-- The names at which a section looks for a change: its block, when that is replaced as a whole,
    else the paths of its writable fields. -/
def watched (s : Section) : List String :=
  match s.granularity, s.block with
  | .section, some block => [block]
  | _, _ => (s.fields.filter fun f => !f.readOnly).map s.pathOf

/-- A section looks at its block as a whole, or at its writable fields one by one. -/
theorem mem_watched {s : Section} {q : String} :
    q ∈ s.watched ↔ (s.granularity = .section ∧ s.block = some q) ∨
      ((s.granularity = .field ∨ s.block = none) ∧
        ∃ f ∈ s.fields, f.readOnly = false ∧ s.pathOf f = q) := by
  rw [watched]
  cases s.granularity with
  | field => simp [and_assoc]
  | «section» =>
      cases s.block with
      | none => simp [and_assoc]
      | some block => simp only [List.mem_singleton, Option.some.injEq, true_and, reduceCtorEq,
          or_self, false_and, or_false, eq_comm]

/-- A section is touched when there is a change at a name at which it looks. -/
theorem touched_iff {s : Section} {changes : ChangeSet} :
    s.touched changes = true ↔ ∃ q ∈ s.watched, changes.hasChange q = true := by
  rw [touched, watched, wholeChanged]
  have hpath : s.block = none → ∀ f, s.pathOf f = f.name := by
    intro hb f
    rw [pathOf, hb]
  rcases s.granularity with _ | _
  · simp [and_assoc]
  · cases hb : s.block with
    | some block => simp
    | none => simp [hpath hb, and_assoc]

end Section

/-! ## Updates by given paths -/

/-- The path of a field that is only read, and of no writable field. -/
def ReadOnlyPath (sections : List Section) (p : String) : Prop :=
  (∃ s ∈ sections, ∃ f ∈ s.fields, f.readOnly = true ∧ s.pathOf f = p) ∧
    ∀ s ∈ sections, ∀ f ∈ s.fields, f.readOnly = false → s.pathOf f ≠ p

/-- No block has the name of a top-level attribute. -/
def BlocksApart (sections : List Section) : Prop :=
  ∀ s ∈ sections, s.block = none → ∀ f ∈ s.fields, ∀ t ∈ sections, t.block ≠ some f.name

/-- An update by given paths is sent when one of the names at which its sections look is a stem
    of a path. -/
theorem updatePayload_ofPaths {config : Value} {sections : List Section}
    {paths : List String} {result : Option Json}
    (h : updatePayload config sections (ofPaths paths) = .ok result) :
    result ≠ none ↔ ∃ p ∈ paths, ∃ s ∈ sections, ∃ q ∈ s.watched, q.toList ∈ stems p.toList := by
  have htouched : result ≠ none ↔ ∃ s ∈ sections, s.touched (ofPaths paths) = true := by
    obtain ⟨root, -, ⟨rfl, huntouched⟩ | ⟨htouched, sent, rfl, -⟩⟩ := updatePayload_cases h
    · refine iff_of_false (fun hne => hne rfl) ?_
      rintro ⟨s, hs, htouched⟩
      exact Bool.noConfusion (htouched.symm.trans (huntouched s hs))
    · exact iff_of_true (fun hnone => nomatch hnone) htouched
  rw [htouched]
  simp only [Section.touched_iff, hasChange_ofPaths]
  constructor
  · rintro ⟨s, hs, q, hq, p, hp, hstem⟩
    exact ⟨p, hp, s, hs, q, hq, hstem⟩
  · rintro ⟨p, hp, s, hs, q, hq, hstem⟩
    exact ⟨s, hs, q, hq, p, hp, hstem⟩

private theorem exists_watched_stem_iff {sections : List Section} {p : String}
    (hp : ReadOnlyPath sections p) {s : Section} (hs : s ∈ sections) :
    (∃ q ∈ s.watched, q.toList ∈ stems p.toList) ↔
      (s.granularity = .section ∧ ∃ block ∈ s.block, p = block ∨ ∃ name, p = below block name) ∨
        ((s.granularity = .field ∨ s.block = none) ∧
          ∃ g ∈ s.fields, g.readOnly = false ∧ ∃ name, p = below (s.pathOf g) name) := by
  constructor
  · rintro ⟨q, hq, hstem⟩
    rw [mem_stems_iff_below] at hstem
    rcases Section.mem_watched.mp hq with ⟨hg, hb⟩ | ⟨hlook, g, hgf, hr, rfl⟩
    · exact .inl ⟨hg, q, hb, hstem⟩
    · exact .inr ⟨hlook, g, hgf, hr,
        hstem.resolve_left fun heq => hp.2 s hs g hgf hr heq.symm⟩
  · rintro (⟨hg, block, hb, hstem⟩ | ⟨hlook, g, hgf, hr, hstem⟩)
    · exact ⟨block, Section.mem_watched.mpr (.inl ⟨hg, hb⟩), mem_stems_iff_below.mpr hstem⟩
    · exact ⟨s.pathOf g, Section.mem_watched.mpr (.inr ⟨hlook, g, hgf, hr, rfl⟩),
        mem_stems_iff_below.mpr (.inr hstem)⟩

/-! ## Names without points -/

section Dotless

variable {sections : List Section} (hnames : DotlessSections sections)
  (hapart : BlocksApart sections)
include hnames hapart

private theorem block_of_stem {s t : Section} (hs : s ∈ sections) (ht : t ∈ sections) {f : Field}
    (hf : f ∈ t.fields) {block : String} (hb : s.block = some block)
    (hstem : block.toList ∈ stems (t.pathOf f).toList) : t.block = some block := by
  have hdotless : Dotless block := (hnames s hs).1 block hb
  rw [Section.pathOf] at hstem
  cases hc : t.block with
  | none =>
      rw [hc] at hstem
      -- the path of a top-level attribute has no other stem
      obtain rfl := hdotless.eq_of_mem_stems ((hnames t ht).2 f hf) hstem (self_mem_stems _)
      exact absurd hb (hapart t ht hc f hf s hs)
  | some other =>
      rw [hc] at hstem
      have hother : other.toList ∈ stems (below other f.name).toList :=
        mem_stems_iff_below.mpr (.inr ⟨f.name, rfl⟩)
      rw [hdotless.eq_of_mem_stems ((hnames t ht).1 other hc) hstem hother]

private theorem not_below_field {s t : Section} (hs : s ∈ sections) (ht : t ∈ sections)
    {g f : Field} (hg : g ∈ s.fields) (hf : f ∈ t.fields) (name : String) :
    t.pathOf f ≠ below (s.pathOf g) name := by
  intro hpath
  have hstem : (s.pathOf g).toList ∈ stems (t.pathOf f).toList :=
    mem_stems_iff_below.mpr (.inr ⟨name, hpath⟩)
  have hname : Dotless f.name := (hnames t ht).2 f hf
  cases hc : t.block with
  | none =>
      rw [Section.pathOf, hc] at hpath
      refine hname ?_
      rw [show f.name = below (s.pathOf g) name from hpath, toList_below]
      exact List.mem_append_right _ List.mem_cons_self
  | some block =>
      rw [Section.pathOf, hc] at hstem hpath
      have hblock : block.toList ∈ stems (below block f.name).toList :=
        mem_stems_iff_below.mpr (.inr ⟨f.name, rfl⟩)
      cases hb : s.block with
      | none =>
          rw [Section.pathOf, hb] at hstem
          obtain heq := ((hnames s hs).2 g hg).eq_of_mem_stems ((hnames t ht).1 block hc) hstem
            hblock
          exact hapart s hs hb g hg t ht (heq ▸ hc)
      | some other =>
          rw [Section.pathOf, hb] at hpath hstem
          have hother : other.toList ∈ stems (below block f.name).toList :=
            mem_stems_trans (mem_stems_iff_below.mpr (.inr ⟨g.name, rfl⟩)) hstem
          obtain rfl := ((hnames t ht).1 block hc).eq_of_mem_stems ((hnames s hs).1 other hb)
            hblock hother
          -- in one block the names are the same, and nothing lies below itself
          have hsame : g.name = f.name :=
            ((hnames s hs).2 g hg).eq_of_below_mem_stems hname hstem (self_mem_stems _)
          rw [hsame] at hpath
          have hself : below block f.name = below (below block f.name) name := hpath
          refine below_not_mem_stems (below block f.name) name ?_
          rw [← hself]
          exact self_mem_stems _

end Dotless

/-! ## Changes of what is only read -/

/-- **An update by paths of fields that are only read**: something is sent exactly when a path
    lies at or below the block of a section that is replaced as a whole, or below a writable
    field at which a section looks. Where names have no points, and no block has the name of a
    top-level attribute, this is when one of the fields is declared in a block that is replaced
    as a whole. -/
theorem updatePayload_of_readOnly_paths {config : Value} {sections : List Section}
    {paths : List String} (hpaths : ∀ p ∈ paths, ReadOnlyPath sections p) {result : Option Json}
    (h : updatePayload config sections (ofPaths paths) = .ok result) :
    (result ≠ none ↔ ∃ p ∈ paths, ∃ s ∈ sections,
      (s.granularity = .section ∧ ∃ block ∈ s.block, p = block ∨ ∃ name, p = below block name) ∨
        ((s.granularity = .field ∨ s.block = none) ∧
          ∃ g ∈ s.fields, g.readOnly = false ∧ ∃ name, p = below (s.pathOf g) name)) ∧
    (DotlessSections sections → BlocksApart sections →
      (result ≠ none ↔ ∃ s ∈ sections, s.granularity = .section ∧ ∃ block ∈ s.block,
        ∃ t ∈ sections, t.block = some block ∧
          ∃ f ∈ t.fields, f.readOnly = true ∧ t.pathOf f ∈ paths)) := by
  have hsent : result ≠ none ↔ ∃ p ∈ paths, ∃ s ∈ sections,
      (s.granularity = .section ∧ ∃ block ∈ s.block, p = block ∨ ∃ name, p = below block name) ∨
        ((s.granularity = .field ∨ s.block = none) ∧
          ∃ g ∈ s.fields, g.readOnly = false ∧ ∃ name, p = below (s.pathOf g) name) := by
    rw [updatePayload_ofPaths h]
    exact exists_congr fun p => and_congr_right fun hp => exists_congr fun s =>
      and_congr_right fun hs => exists_watched_stem_iff (hpaths p hp) hs
  refine ⟨hsent, fun hnames hapart => hsent.trans ⟨?_, ?_⟩⟩
  · rintro ⟨p, hp, s, hs, hcases⟩
    obtain ⟨t, ht, f, hf, hr, rfl⟩ := (hpaths p hp).1
    rcases hcases with ⟨hg, block, hb, hstem⟩ | ⟨-, g, hgf, -, name, hbelow⟩
    · exact ⟨s, hs, hg, block, hb, t, ht,
        block_of_stem hnames hapart hs ht hf hb (mem_stems_iff_below.mpr hstem), f, hf, hr, hp⟩
    · exact absurd hbelow (not_below_field hnames hapart hs ht hgf hf name)
  · rintro ⟨s, hs, hg, block, hb, t, -, hc, f, -, -, hp⟩
    refine ⟨t.pathOf f, hp, s, hs, .inl ⟨hg, block, hb, .inr ⟨f.name, ?_⟩⟩⟩
    rw [Section.pathOf, hc]
    rfl

section Addresses

open Catalog.TrafficManager

/-- A cluster member whose API listens on an address, which is only read. -/
private def listening : Value :=
  .map [("rest_api", .list [.map [("bind_ips", .list [.string "10.0.0.1"])]])]

private def portCleared : Json := propertiesDocument [("rest_api", .object [("port", .int 0)])]

private theorem updatePayload_listening :
    updatePayload listening [restApi] (ofPaths ["rest_api.bind_ips"]) =
      .ok (some portCleared) := by rfl

private theorem readOnlyPath_bind_ips :
    ∀ p ∈ ["rest_api.bind_ips"], ReadOnlyPath [restApi] p := by
  intro p hp
  obtain rfl := List.mem_singleton.mp hp
  refine ⟨⟨restApi, List.mem_cons_self, _, List.mem_cons_self, rfl, rfl⟩, ?_⟩
  intro s hs f hf hr
  obtain rfl := List.mem_singleton.mp hs
  rcases List.mem_cons.mp hf with rfl | hf
  · exact Bool.noConfusion hr
  · obtain rfl := List.mem_singleton.mp hf
    decide

/-- The addresses are declared in a block that is replaced as a whole, so their change sends its
    section, in which the port is cleared. -/
theorem update_of_read_addresses :
    heldField? portCleared "rest_api" "port" = some (.int 0) ∧
      ∃ s ∈ [restApi], s.granularity = .section ∧ ∃ block ∈ s.block, ∃ t ∈ [restApi],
        t.block = some block ∧
          ∃ f ∈ t.fields, f.readOnly = true ∧ t.pathOf f ∈ ["rest_api.bind_ips"] := by
  have hapart : BlocksApart [restApi] := by
    intro s hs hb
    obtain rfl := List.mem_singleton.mp hs
    exact nomatch hb
  exact ⟨rfl, ((updatePayload_of_readOnly_paths readOnlyPath_bind_ips
    updatePayload_listening).2 (by decide) hapart).mp fun hnone => nomatch hnone⟩

/-- **A change of fields that are only read may be an update.** -/
theorem readOnly_change_is_sent :
    ¬ ∀ (config : Value) (sections : List Section) (paths : List String),
      (∀ p ∈ paths, ReadOnlyPath sections p) →
        ∀ payload, updatePayload config sections (ofPaths paths) ≠ .ok (some payload) := by
  intro hclaim
  exact hclaim listening [restApi] ["rest_api.bind_ips"] readOnlyPath_bind_ips portCleared
    updatePayload_listening

end Addresses

end TrafficConfig
