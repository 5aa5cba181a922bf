import TrafficConfig.Proofs.Entries
import TrafficConfig.Proofs.Equality

/-!
# Plain values

Plans are taken from values that are known, without not-a-number, and whose maps are in
ascending order:

* **`Everywhere.of_equals`** — a property that equal values share, and that holds
  everywhere in one of two equal values, holds everywhere in the other one;
* **`Plain`** — such values. What equals a plain value is plain, as long as it has no
  not-a-number (**`Plain.of_equals`**): equal sets may hold one on one side.
-/

namespace TrafficConfig.Value

variable {p : Value → Prop}

/-! ## Equal values -/

/-- Equal values share a property. -/
private abbrev Shared (p : Value → Prop) : Prop := ∀ {u v}, equals u v = true → p v → p u

mutual

private theorem everywhere_shared (hp : Shared p) :
    ∀ u v : Value, NaNFree u → NaNFree v → equals u v = true →
      Everywhere p v → Everywhere p u
  | .list xs, v, hu, hv, h, hall => by
    obtain ⟨ys, rfl, hm⟩ := equals_list_iff.mp h
    exact everywhere_list.mpr
      ⟨hp h hall.here, everywhere_shared_items hp xs ys (everywhere_list.mp hu).2
      (everywhere_list.mp hv).2 hm (everywhere_list.mp hall).2⟩
  | .set xs, v, hu, hv, h, hall => by
    obtain ⟨ys, rfl, hs⟩ := equals_set_iff.mp h
    have hxs := (everywhere_set.mp hu).2
    have hys := (everywhere_set.mp hv).2
    obtain ⟨zs, hperm, hm⟩ := equals_congruence.exists_perm_of_sameMembers hxs hys hs
    refine everywhere_set.mpr
      ⟨hp h hall.here, everywhere_shared_items hp xs zs hxs ?_ hm ?_⟩
    · exact fun z hz => hys z (hperm.mem_iff.mp hz)
    · exact fun z hz => (everywhere_set.mp hall).2 z (hperm.mem_iff.mp hz)
  | .map es, v, hu, hv, h, hall => by
    obtain ⟨fs, rfl, hs⟩ := equals_map_iff.mp h
    exact everywhere_map.mpr
      ⟨hp h hall.here, everywhere_shared_entries hp es fs (everywhere_map.mp hu).2
      (everywhere_map.mp hv).2 (allPairs_iff.mp hs) (everywhere_map.mp hall).2⟩
  | .null, _, _, _, h, hall => hp h hall.here
  | .bool _, _, _, _, h, hall => hp h hall.here
  | .number _, _, _, _, h, hall => hp h hall.here
  | .string _, _, _, _, h, hall => hp h hall.here
  | .unknown, _, _, _, h, hall => hp h hall.here

private theorem everywhere_shared_items (hp : Shared p) :
    ∀ xs ys : List Value, (∀ x ∈ xs, NaNFree x) →
      (∀ y ∈ ys, NaNFree y) → Matching equals xs ys → (∀ y ∈ ys, Everywhere p y) →
        ∀ x ∈ xs, Everywhere p x
  | [], _, _, _, _, _ => fun _ hx => nomatch hx
  | x :: xs, ys, hxs, hys, hm, hall => by
    cases hm with
    | cons hxy hm =>
        rw [List.forall_mem_cons] at hxs hys hall ⊢
        exact ⟨everywhere_shared hp x _ hxs.1 hys.1 hxy hall.1,
          everywhere_shared_items hp xs _ hxs.2 hys.2 hm hall.2⟩

private theorem everywhere_shared_entries (hp : Shared p) :
    ∀ es fs : List (String × Value), (∀ e ∈ es, NaNFree e.2) →
      (∀ e ∈ fs, NaNFree e.2) → Matching (fun a b => a.1 == b.1 && equals a.2 b.2) es fs →
      (∀ e ∈ fs, Everywhere p e.2) → ∀ e ∈ es, Everywhere p e.2
  | [], _, _, _, _, _ => fun _ he => nomatch he
  | (_, v) :: es, fs, hes, hfs, hm, hall => by
    cases hm with
    | cons hvw hm =>
        rw [List.forall_mem_cons] at hes hfs hall ⊢
        rw [Bool.and_eq_true] at hvw
        exact ⟨everywhere_shared hp v _ hes.1 hfs.1 hvw.2 hall.1,
          everywhere_shared_entries hp es _ hes.2 hfs.2 hm hall.2⟩

end

/-- **What holds everywhere in a value holds everywhere in an equal one**, if equal values
    share it. -/
theorem Everywhere.of_equals {u v : Value} (hall : Everywhere p v)
    (hp : ∀ {u v}, equals u v = true → p v → p u) (hu : NaNFree u) (hv : NaNFree v)
    (h : equals u v = true) : Everywhere p u :=
  everywhere_shared hp u v hu hv h hall

/-! ## Plain values -/

/-- A map that is in ascending order, or no map. -/
def Ascending (v : Value) : Prop := ∀ entries ∈ v.asMap?, Assoc.Sorted entries

instance {α : Type u} (m : Assoc α) : Decidable (Assoc.Sorted m) :=
  inferInstanceAs (Decidable (List.Pairwise _ m))

instance : DecidablePred Ascending := fun v =>
  inferInstanceAs (Decidable (∀ entries ∈ v.asMap?, Assoc.Sorted entries))

/-- Known, without not-a-number, and with maps in ascending order. -/
structure Plain (v : Value) : Prop where
  nanFree : NaNFree v
  unknownFree : UnknownFree v
  ascending : Everywhere Ascending v

instance (v : Value) : Decidable (Plain v) :=
  decidable_of_iff (NaNFree v ∧ UnknownFree v ∧ Everywhere Ascending v)
    ⟨fun h => ⟨h.1, h.2.1, h.2.2⟩, fun h => ⟨h.nanFree, h.unknownFree, h.ascending⟩⟩

/-- A list is plain when its items are. -/
theorem plain_list_iff {items : List Value} :
    Plain (.list items) ↔ ∀ v ∈ items, Plain v := by
  constructor
  · intro h v hv
    exact ⟨(everywhere_list.mp h.nanFree).2 v hv, (everywhere_list.mp h.unknownFree).2 v hv,
      (everywhere_list.mp h.ascending).2 v hv⟩
  · intro h
    exact ⟨everywhere_list.mpr ⟨(fun hn => nomatch hn), fun v hv => (h v hv).nanFree⟩,
      everywhere_list.mpr ⟨(fun hn => nomatch hn), fun v hv => (h v hv).unknownFree⟩,
      everywhere_list.mpr ⟨(fun _ hn => nomatch hn), fun v hv => (h v hv).ascending⟩⟩

/-- A set is plain when its items are. -/
theorem plain_set_iff {items : List Value} : Plain (.set items) ↔ ∀ v ∈ items, Plain v := by
  constructor
  · intro h v hv
    exact ⟨(everywhere_set.mp h.nanFree).2 v hv, (everywhere_set.mp h.unknownFree).2 v hv,
      (everywhere_set.mp h.ascending).2 v hv⟩
  · intro h
    exact ⟨everywhere_set.mpr ⟨(fun hn => nomatch hn), fun v hv => (h v hv).nanFree⟩,
      everywhere_set.mpr ⟨(fun hn => nomatch hn), fun v hv => (h v hv).unknownFree⟩,
      everywhere_set.mpr ⟨(fun _ hn => nomatch hn), fun v hv => (h v hv).ascending⟩⟩

/-- A map is plain when its keys are in order and its values are plain. -/
theorem plain_map_iff {entries : Assoc Value} :
    Plain (.map entries) ↔ Assoc.Sorted entries ∧ ∀ e ∈ entries, Plain e.2 := by
  constructor
  · intro h
    refine ⟨h.ascending.here entries rfl, ?_⟩
    intro e he
    exact ⟨(everywhere_map.mp h.nanFree).2 e he, (everywhere_map.mp h.unknownFree).2 e he,
      (everywhere_map.mp h.ascending).2 e he⟩
  · rintro ⟨hsorted, h⟩
    refine ⟨everywhere_map.mpr ⟨(fun hn => nomatch hn), fun e he => (h e he).nanFree⟩,
      everywhere_map.mpr ⟨(fun hn => nomatch hn), fun e he => (h e he).unknownFree⟩,
      everywhere_map.mpr ⟨?_, fun e he => (h e he).ascending⟩⟩
    intro es hes
    obtain rfl := Option.some.inj hes
    exact hsorted

theorem plain_null : Plain .null :=
  ⟨nanFree_null, (fun hn => nomatch hn), fun _ hn => nomatch hn⟩

theorem plain_bool (b : Bool) : Plain (.bool b) :=
  ⟨(fun hn => nomatch hn), (fun hn => nomatch hn), fun _ hn => nomatch hn⟩

theorem plain_string (s : String) : Plain (.string s) :=
  ⟨(fun hn => nomatch hn), (fun hn => nomatch hn), fun _ hn => nomatch hn⟩

theorem plain_number {x : Number} (h : x ≠ .nan) : Plain (.number x) :=
  ⟨(fun hn => h (Value.number.inj hn)), (fun hn => nomatch hn), fun _ hn => nomatch hn⟩

namespace Plain

variable {u v : Value} {entries : Assoc Value}

/-- The keys of a plain map are in order. -/
theorem sorted (h : Plain (.map entries)) : Assoc.Sorted entries := (plain_map_iff.mp h).1

/-- What stands under a name of a plain map is plain. -/
theorem getOrNull (h : Plain (.map entries)) (name : String) :
    Plain (getOrNull entries name) := by
  rw [Value.getOrNull]
  cases hg : Assoc.get? entries name with
  | none => exact plain_null
  | some v => exact (plain_map_iff.mp h).2 _ (Assoc.mem_of_get? hg)

/-- A map stays plain when a plain value is put into it. -/
theorem insert (h : Plain (.map entries)) (hv : Plain v) (name : String) :
    Plain (.map (Assoc.insert entries name v)) := by
  refine plain_map_iff.mpr ⟨Assoc.sorted_insert h.sorted name v, ?_⟩
  intro e he
  rcases Assoc.mem_insert he with rfl | he
  · exact hv
  · exact (plain_map_iff.mp h).2 e he

/-- What equals a plain value is plain. -/
theorem of_equals (h : Plain v) (hu : NaNFree u) (heq : u.equals v = true) : Plain u where
  nanFree := hu
  unknownFree := by
    refine h.unknownFree.of_equals ?_ hu h.nanFree heq
    rintro a b hab hb rfl
    exact hb (equals_unknown_iff.mp hab)
  ascending := by
    refine h.ascending.of_equals ?_ hu h.nanFree heq
    intro a b hab hb entries ha
    cases a with
    | map es =>
        obtain ⟨fs, rfl, hs⟩ := equals_map_iff.mp hab
        obtain rfl := Option.some.inj ha
        exact sorted_congr (keys_eq_of_sameEntries hs).symm (hb fs rfl)
    | _ => exact nomatch ha

end Plain

end TrafficConfig.Value
