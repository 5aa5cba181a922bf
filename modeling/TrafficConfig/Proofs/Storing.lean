import TrafficConfig.Value.Access

/-!
# What storing at a path changes

A value is stored at the end of a path, and on the way there what is missing is made. Reading
and storing take the same steps, so storing is described by what can be read:

* **`child?`**, **`withChild`**, **`opened?`** — one step: what it leads to, what is there
  instead, and what storing goes on in. Reading (**`get?_cons`**) and storing
  (**`storeFrom_of_opened`**) are made of these;
* **`Step.unkeyed`** — an attribute name and a map key with the same text are the same step.
  **`Path.Parts`** says that neither of two paths is the beginning of the other;
* **`get?_storeFrom_self`**, **`get?_storeFrom_of_parts`** — what was stored is read again,
  and whatever becomes of the attempt, nothing else is read differently;
* **`store_is_local`** — the same for a whole value, whose root a path may replace.
-/

namespace TrafficConfig

/-! ## Steps -/

namespace Step

/-- A step, where a map key counts as the attribute name with the same text. -/
def unkeyed : Step → Step
  | .key k => .name k
  | s => s

/-- An index is an integer of 64 bits. -/
def Within64 : Step → Prop
  | .index i => -(Number.int64Bound : Int) ≤ i ∧ i < Number.int64Bound
  | _ => True

instance : DecidablePred Within64
  | .index i => inferInstanceAs (Decidable (-(Number.int64Bound : Int) ≤ i ∧ i < _))
  | .name _ | .key _ => isTrue trivial

/-- A step that is an index without its key is an index. -/
theorem eq_index_of_unkeyed {s : Step} {i : Int} (h : s.unkeyed = .index i) : s = .index i := by
  cases s with
  | key k => exact nomatch h
  | _ => exact h

/-- Different indices of 64 bits lead to different positions. -/
theorem slot_injective {i j : Int} (hi : (Step.index i).Within64) (hj : (Step.index j).Within64)
    (h : slot i = slot j) : i = j := by
  have hbound : (Number.int64Bound : Int) = 9223372036854775808 := rfl
  simp only [Within64, hbound] at hi hj
  simp only [slot, positionCount] at h
  omega

end Step

/-- Neither of two paths is the beginning of the other. -/
def Path.Parts (p q : Path) : Prop :=
  ¬ p.map Step.unkeyed <+: q.map Step.unkeyed ∧ ¬ q.map Step.unkeyed <+: p.map Step.unkeyed

instance (p q : Path) : Decidable (p.Parts q) := inferInstanceAs (Decidable (¬ _ ∧ ¬ _))

namespace Path.Parts

variable {s t : Step} {p q : Path}

/-- The whole of a value lies apart from nothing. -/
theorem not_nil_left : ¬ Path.Parts [] q := fun h => h.1 List.nil_prefix

/-- Nothing lies apart from the whole of a value. -/
theorem not_nil_right : ¬ Path.Parts p [] := fun h => h.2 List.nil_prefix

/-- Behind a common step, parting paths still part. -/
theorem tail (h : Path.Parts (s :: p) (t :: q)) (hst : s.unkeyed = t.unkeyed) : Path.Parts p q := by
  simpa only [Path.Parts, List.map_cons, hst, List.prefix_cons_inj] using h

end Path.Parts

namespace Value

/-! ## One step -/

/-- What one step leads to. -/
def child? (v : Value) (s : Step) : Option Value :=
  match v, s.unkeyed with
  | .map entries, .name n => Assoc.get? entries n
  | .list items, .index i => items[Step.slot i]?
  | _, _ => none

/-- A value with another one where a step leads. -/
def withChild (v : Value) (s : Step) (d : Value) : Value :=
  match v, s.unkeyed with
  | .map entries, .name n => .map (Assoc.insert entries n d)
  | .list items, .index i => .list (items.set (Step.slot i) d)
  | _, _ => v

/-- What storing goes on in behind a step: what the step leads to, or, under a name that a map
    does not have, a blank for the steps to come. -/
def opened? (v : Value) (s : Step) (rest : List Step) : Option Value :=
  match v, s.unkeyed with
  | .map entries, .name n => some ((Assoc.get? entries n).getD (blank rest))
  | _, _ => v.child? s

/-- A step of the kind that a value has: a text into a map, or an index into a list. -/
inductive Steps : Value → Step → Prop
  | entry (entries : Assoc Value) {s : Step} (n : String) (hs : s.unkeyed = .name n) :
      Steps (.map entries) s
  | element (items : List Value) {s : Step} (i : Int) (hs : s.unkeyed = .index i) :
      Steps (.list items) s

section Step

variable {v c : Value} {s t : Step} {rest : List Step}

theorem child?_map {entries : Assoc Value} {n : String} (hs : s.unkeyed = .name n) :
    (map entries).child? s = Assoc.get? entries n := by
  simp only [child?, hs]

theorem child?_list {items : List Value} {i : Int} (hs : s.unkeyed = .index i) :
    (list items).child? s = items[Step.slot i]? := by
  simp only [child?, hs]

theorem withChild_map {entries : Assoc Value} {n : String} (hs : s.unkeyed = .name n)
    (d : Value) : (map entries).withChild s d = .map (Assoc.insert entries n d) := by
  simp only [withChild, hs]

theorem withChild_list {items : List Value} {i : Int} (hs : s.unkeyed = .index i)
    (d : Value) : (list items).withChild s d = .list (items.set (Step.slot i) d) := by
  simp only [withChild, hs]

theorem opened?_map {entries : Assoc Value} {n : String} (hs : s.unkeyed = .name n) :
    (map entries).opened? s rest = some ((Assoc.get? entries n).getD (blank rest)) := by
  simp only [opened?, hs]

theorem opened?_list {items : List Value} {i : Int} (hs : s.unkeyed = .index i) :
    (list items).opened? s rest = items[Step.slot i]? := by
  simp only [opened?, child?, hs]

/-- Any other step leads nowhere. -/
theorem child?_eq_none (h : ¬ Steps v s) : v.child? s = none := by
  unfold child?
  split
  · next hs => exact absurd (.entry _ _ hs) h
  · next hs => exact absurd (.element _ _ hs) h
  · rfl

/-- Where no step can be taken nothing is opened. -/
theorem opened?_eq_none (h : ¬ Steps v s) : v.opened? s rest = none := by
  unfold opened?
  split
  · next hs => exact absurd (.entry _ _ hs) h
  · exact child?_eq_none h

/-- Where no step can be taken nothing is written. -/
theorem withChild_eq_self (h : ¬ Steps v s) (d : Value) : v.withChild s d = v := by
  unfold withChild
  split
  · next hs => exact absurd (.entry _ _ hs) h
  · next hs => exact absurd (.element _ _ hs) h
  · rfl

/-- What has a child can be stepped into. -/
theorem steps_of_child? (h : v.child? s = some c) : Steps v s := by
  refine Classical.byContradiction fun hno => ?_
  rw [child?_eq_none hno] at h
  exact nomatch h

/-- What was opened can be stepped into. -/
theorem steps_of_opened? (h : v.opened? s rest = some c) : Steps v s := by
  refine Classical.byContradiction fun hno => ?_
  rw [opened?_eq_none hno] at h
  exact nomatch h

/-- Steps that are the same lead to the same. -/
theorem child?_congr (h : s.unkeyed = t.unkeyed) (v : Value) : v.child? s = v.child? t := by
  simp only [child?, h]

/-- Storing goes on in what is there. -/
theorem opened?_of_child? (h : v.child? s = some c) : v.opened? s rest = some c := by
  cases steps_of_child? h with
  | entry entries n hs =>
      rw [child?_map hs] at h
      rw [opened?_map hs, h]
      rfl
  | element items i hs =>
      rw [child?_list hs] at h
      rw [opened?_list hs, h]

/-- Where nothing is there, it goes on in a blank. -/
theorem opened?_cases (h : v.opened? s rest = some c) :
    v.child? s = some c ∨ (v.child? s = none ∧ c = blank rest) := by
  cases steps_of_opened? h with
  | entry entries n hs =>
      rw [opened?_map hs, Option.some.injEq] at h
      rw [child?_map hs]
      cases hget : Assoc.get? entries n with
      | some y => exact .inl (by rw [← h, hget]; rfl)
      | none => exact .inr ⟨rfl, by rw [← h, hget]; rfl⟩
  | element items i hs =>
      rw [opened?_list hs] at h
      exact .inl ((child?_list hs).trans h)

/-- A step that storing takes leads to what was put there. -/
theorem child?_withChild_self (h : v.opened? s rest = some c) (d : Value) :
    (v.withChild s d).child? s = some d := by
  cases steps_of_opened? h with
  | entry entries n hs => rw [withChild_map hs, child?_map hs, Assoc.get?_insert_self]
  | element items i hs =>
      rw [opened?_list hs] at h
      rw [withChild_list hs, child?_list hs]
      exact List.getElem?_set_self (List.getElem?_eq_some_iff.mp h).1

/-- A different step leads where it did. -/
theorem child?_withChild_of_ne (hs : s.Within64) (ht : t.Within64)
    (hst : s.unkeyed ≠ t.unkeyed) (v d : Value) : (v.withChild s d).child? t = v.child? t := by
  by_cases hsteps : Steps v s
  · cases hsteps with
    | entry entries n hname =>
        rw [withChild_map hname]
        cases htext : t.unkeyed with
        | name m =>
            rw [child?_map htext, child?_map htext, Assoc.get?_insert, if_neg]
            rintro rfl
            exact hst (hname.trans htext.symm)
        | _ => simp only [child?, htext]
    | element items i hindex =>
        rw [withChild_list hindex]
        cases htext : t.unkeyed with
        | index j =>
            rw [child?_list htext, child?_list htext, List.getElem?_set_ne]
            intro hslot
            obtain rfl := Step.eq_index_of_unkeyed hindex
            obtain rfl := Step.eq_index_of_unkeyed htext
            exact hst (congrArg Step.index (Step.slot_injective hs ht hslot))
        | _ => simp only [child?, htext]
  · rw [withChild_eq_self hsteps]

end Step

/-! ## Reading and storing step by step -/

section Walk

variable {v c x : Value} {s : Step} {rest : List Step} {whole : Path}

private theorem followFrom_of_child? (h : v.child? s = some c) :
    followFrom whole v (s :: rest) = followFrom whole c rest := by
  cases steps_of_child? h with
  | entry entries n hs =>
      rw [child?_map hs] at h
      cases s with
      | index i => exact nomatch hs
      | name m | key m =>
          obtain rfl := Step.name.inj hs
          rw [followFrom, h]
  | element items i hs =>
      rw [child?_list hs] at h
      obtain rfl := Step.eq_index_of_unkeyed hs
      rw [followFrom, h]

private theorem followFrom_of_no_child (whole : Path) (rest : List Step) (h : v.child? s = none) :
    ∃ e, followFrom whole v (s :: rest) = .error e := by
  by_cases hsteps : Steps v s
  · cases hsteps with
    | entry entries n hs =>
        rw [child?_map hs] at h
        cases s with
        | index i => exact nomatch hs
        | name m | key m =>
            obtain rfl := Step.name.inj hs
            exact ⟨_, by rw [followFrom, h]⟩
    | element items i hs =>
        rw [child?_list hs] at h
        obtain rfl := Step.eq_index_of_unkeyed hs
        exact ⟨_, by rw [followFrom, h]⟩
  · cases v <;> cases s <;> first
      | exact ⟨_, rfl⟩
      | exact absurd (.entry _ _ rfl) hsteps
      | exact absurd (.element _ _ rfl) hsteps

/-- Storing goes on behind a step that it can take. -/
theorem storeFrom_of_opened (h : v.opened? s rest = some c) : storeFrom x v (s :: rest) =
    (v.withChild s (storeFrom x c rest).1, (storeFrom x c rest).2) := by
  cases steps_of_opened? h with
  | entry entries n hs =>
      rw [opened?_map hs, Option.some.injEq] at h
      rw [withChild_map hs]
      cases s with
      | index i => exact nomatch hs
      | name m | key m =>
          obtain rfl := Step.name.inj hs
          rw [storeFrom, h]
  | element items i hs =>
      rw [opened?_list hs] at h
      rw [withChild_list hs]
      obtain rfl := Step.eq_index_of_unkeyed hs
      rw [storeFrom, h]

/-- At any other step it ends with an error, and changes nothing. -/
theorem storeFrom_of_not_opened (h : v.opened? s rest = none) :
    ∃ e, storeFrom x v (s :: rest) = (v, .error e) := by
  by_cases hsteps : Steps v s
  · cases hsteps with
    | entry entries n hs =>
        rw [opened?_map hs] at h
        exact nomatch h
    | element items i hs =>
        rw [opened?_list hs] at h
        obtain rfl := Step.eq_index_of_unkeyed hs
        exact ⟨_, by rw [storeFrom, h]⟩
  · cases v <;> cases s <;> first
      | exact ⟨_, rfl⟩
      | exact absurd (.entry _ _ rfl) hsteps
      | exact absurd (.element _ _ rfl) hsteps

end Walk

private theorem toOption_followFrom_cons (whole : Path) (v : Value) (s : Step) (p : List Step) :
    (followFrom whole v (s :: p)).toOption =
      (v.child? s).bind fun c => (followFrom whole c p).toOption := by
  cases h : v.child? s with
  | none =>
      obtain ⟨e, he⟩ := followFrom_of_no_child whole p h
      rw [he]
      rfl
  | some c => rw [followFrom_of_child? h, Option.bind_some]

private theorem toOption_followFrom (whole whole' : Path) (v : Value) (p : List Step) :
    (followFrom whole v p).toOption = (followFrom whole' v p).toOption := by
  induction p generalizing v with
  | nil => rfl
  | cons s p ih =>
      rw [toOption_followFrom_cons, toOption_followFrom_cons]
      exact Option.bind_congr fun c _ => ih c

@[simp] theorem get?_nil (v : Value) : v.get? [] = some v := rfl

/-- A path is read step by step. -/
theorem get?_cons (v : Value) (s : Step) (q : Path) :
    v.get? (s :: q) = (v.child? s).bind fun c => c.get? q := by
  rw [get?, follow, toOption_followFrom_cons]
  exact Option.bind_congr fun c _ => toOption_followFrom ..

/-- Nothing can be read inside a blank. -/
theorem get?_blank (rest : List Step) (s : Step) (q : Path) :
    (blank rest).get? (s :: q) = none := by
  have hchild : (blank rest).child? s = none := by
    unfold blank
    split <;> cases s <;> rfl
  rw [get?_cons, hchild, Option.bind_none]

/-! ## What is read after storing -/

section Stored

variable {x : Value}

/-- **What was stored is read again.** -/
theorem get?_storeFrom_self {v : Value} {p : Path} (h : (storeFrom x v p).2 = .ok ()) :
    (storeFrom x v p).1.get? p = some x := by
  induction p generalizing v with
  | nil => rw [storeFrom, get?_nil]
  | cons s rest ih =>
      cases hopen : v.opened? s rest with
      | none =>
          obtain ⟨e, he⟩ := storeFrom_of_not_opened (x := x) hopen
          rw [he] at h
          exact nomatch h
      | some c =>
          rw [storeFrom_of_opened hopen] at h ⊢
          rw [get?_cons, child?_withChild_self hopen]
          exact ih h

/-- **Nothing else is read differently**, also when storing ends on the way. What is made on
    the way is read behind the stored path only. -/
theorem get?_storeFrom_of_parts {v : Value} {p q : Path} (hp : ∀ s ∈ p, s.Within64)
    (hq : ∀ t ∈ q, t.Within64) (hparts : p.Parts q) :
    (storeFrom x v p).1.get? q = v.get? q := by
  induction p generalizing v q with
  | nil => exact absurd hparts Path.Parts.not_nil_left
  | cons s rest ih =>
      cases q with
      | nil => exact absurd hparts Path.Parts.not_nil_right
      | cons t q =>
          rw [List.forall_mem_cons] at hp hq
          cases hopen : v.opened? s rest with
          | none =>
              obtain ⟨e, he⟩ := storeFrom_of_not_opened (x := x) hopen
              rw [he]
          | some c =>
              rw [storeFrom_of_opened hopen, get?_cons, get?_cons]
              by_cases hst : s.unkeyed = t.unkeyed
              · -- both paths go on in the same place
                have hrest := hparts.tail hst
                rw [← child?_congr hst, ← child?_congr hst, child?_withChild_self hopen,
                  Option.bind_some, ih hp.2 hq.2 hrest]
                rcases opened?_cases hopen with hc | ⟨hc, rfl⟩
                · rw [hc, Option.bind_some]
                · cases q with
                  | nil => exact absurd hrest Path.Parts.not_nil_right
                  | cons u q => rw [hc, Option.bind_none, get?_blank]
              · rw [child?_withChild_of_ne hp.1 hq.1 hst]

/-- Where something can be read, something can be stored. -/
theorem storeFrom_of_get? {v y : Value} {p : Path} (h : v.get? p = some y) :
    (storeFrom x v p).2 = .ok () := by
  induction p generalizing v with
  | nil => rw [storeFrom]
  | cons s rest ih =>
      rw [get?_cons] at h
      obtain ⟨c, hc, hy⟩ := Option.bind_eq_some_iff.mp h
      rw [storeFrom_of_opened (opened?_of_child? hc)]
      exact ih hy

/-- Before a path that is not empty, the root becomes a map. -/
theorem store_cons (v : Value) (s : Step) (rest : Path) :
    v.store (s :: rest) x = storeFrom x (.map v.root) (s :: rest) := by
  cases v <;> rfl

/-- Unless it was a list, nothing could be read in what is replaced. -/
theorem get?_map_root {v : Value} (hroot : v.asList? = none) (s : Step) (q : Path) :
    (map v.root).get? (s :: q) = v.get? (s :: q) := by
  cases v with
  | map entries => rfl
  | list items => exact nomatch hroot
  | _ => cases s <;> rfl

end Stored

/-- **Storing is local.** If a value can be stored at a path, it is what the path names
    afterwards. Where the root is no list, this is possible at least where the path names
    something already; and whether it was possible or not, every path that parts from this one,
    with indices of 64 bits, names what it named before. -/
theorem store_is_local (v : Value) (p : Path) (x : Value) :
    ((v.store p x).2 = .ok () → (v.store p x).1.get? p = some x) ∧
    (v.asList? = none →
      (∀ y, v.get? p = some y → (v.store p x).2 = .ok ()) ∧
      ∀ q : Path, (∀ s ∈ p ++ q, s.Within64) → p.Parts q →
        (v.store p x).1.get? q = v.get? q) := by
  cases p with
  | nil =>
      exact ⟨fun _ => rfl, fun _ => ⟨fun _ _ => rfl, fun _ _ h => absurd h Path.Parts.not_nil_left⟩⟩
  | cons s rest =>
      rw [store_cons]
      refine ⟨get?_storeFrom_self, fun hroot => ⟨?_, ?_⟩⟩
      · intro y hy
        exact storeFrom_of_get? ((get?_map_root hroot s rest).trans hy)
      · intro q hbits hparts
        rw [List.forall_mem_append] at hbits
        rw [get?_storeFrom_of_parts hbits.1 hbits.2 hparts]
        cases q with
        | nil => exact absurd hparts Path.Parts.not_nil_right
        | cons t q => exact get?_map_root hroot t q

section Configured

/-- A state with one block. -/
private def configured : Value :=
  .map [("rest_api", .list [.map [("bind_ip", .string "10.0.0.1"), ("enabled", .bool false)]])]

private def enabledPath : Path := [.name "rest_api", .index 0, .name "enabled"]

/-- A path into the same block, by a map key. -/
private def bindPath : Path := [.name "rest_api", .index 0, .key "bind_ip"]

/-- A path before the first instance of a block that is missing. -/
private def javaPath : Path := [.name "java", .index (-1), .name "enabled"]

/-- One field of a block is stored, and its neighbour stays. Storing before the first instance
    of another block makes the block's list, fails, and leaves the field as it was. -/
theorem enabled_is_stored :
    (configured.store enabledPath (.bool true)).2 = .ok () ∧
    (configured.store enabledPath (.bool true)).1.get? enabledPath = some (.bool true) ∧
    (configured.store enabledPath (.bool true)).1.get? bindPath = some (.string "10.0.0.1") ∧
    (configured.store javaPath (.bool true)).2 = .error (.indexOutOfBounds 18446744073709551615) ∧
    (configured.store javaPath (.bool true)).1.get? [.name "java"] = some (.list []) ∧
    (configured.store javaPath (.bool true)).1.get? enabledPath = some (.bool false) := by
  obtain ⟨hself, hroot⟩ := store_is_local configured enabledPath (.bool true)
  obtain ⟨hable, hapart⟩ := hroot rfl
  have hok := hable (.bool false) rfl
  have hfailed := (store_is_local configured javaPath (.bool true)).2 rfl
  exact ⟨hok, hself hok, hapart bindPath (by decide) (by decide), rfl, rfl,
    hfailed.2 enabledPath (by decide) (by decide)⟩

end Configured

end Value

end TrafficConfig
