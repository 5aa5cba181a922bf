import TrafficConfig.Proofs.Plain
import TrafficConfig.Proofs.Reading
import TrafficConfig.Proofs.Rounding
import TrafficConfig.Value.Document

/-!
# Values written as texts and read again

A text has no sets, and one kind of numerals for all whole numbers. Apart from that, nothing
is lost in it:

* **`Value.listed`** — a value with a list in the place of every set: its elements stay in
  their order (**`listed_set`**), and so do the entries of a map that is in order
  (**`listed_map`**);
* **`Value.Carried`** — what a text carries of a value: whole numbers below 2⁶³, and strings
  other than the mark of unknown values. Their documents are read from their texts
  (**`decode_text`**) and stand for equal values (**`equals_ofJson_toJson`**);
* **`toJson_ofJson`** — a document whose integers are doubles exactly is written again;
* **`text_round_trip`** — so both ways lead back.
-/

namespace TrafficConfig

namespace Value

/-- What holds of the values without parts, and of a collection when it holds of its parts,
    holds of every value. -/
@[elab_as_elim]
theorem induction {motive : Value → Prop} (null : motive .null) (bool : ∀ b, motive (.bool b))
    (number : ∀ x, motive (.number x)) (string : ∀ s, motive (.string s))
    (list : ∀ items, (∀ v ∈ items, motive v) → motive (.list items))
    (set : ∀ items, (∀ v ∈ items, motive v) → motive (.set items))
    (map : ∀ entries, (∀ e ∈ entries, motive e.2) → motive (.map entries))
    (unknown : motive .unknown) : ∀ v : Value, motive v :=
  @Value.rec motive (fun items => ∀ v ∈ items, motive v)
    (fun entries => ∀ e ∈ entries, motive e.2) (fun e => motive e.2)
    null bool number string list set map unknown
    (List.forall_mem_nil _) (fun _ _ hv hrest => List.forall_mem_cons.mpr ⟨hv, hrest⟩)
    (List.forall_mem_nil _) (fun _ _ he hrest => List.forall_mem_cons.mpr ⟨he, hrest⟩)
    (fun _ _ h => h)

mutual

/-- The value with the list of its elements in the place of every set, and with the entries
    of its maps in the order in which values are compared. -/
def listed : Value → Value
  | .list items => .list (listedItems items)
  | .set items => .list (listedItems items)
  | .map entries => .map (Assoc.ofEntries (listedEntries entries))
  | v => v

def listedItems : List Value → List Value
  | [] => []
  | v :: rest => listed v :: listedItems rest

def listedEntries : List (String × Value) → List (String × Value)
  | [] => []
  | (k, v) :: rest => (k, listed v) :: listedEntries rest

end

/-- What a text carries of a value at one place: a number is whole and below 2⁶³ in
    magnitude, and no string is the mark of unknown values. -/
def Carried : Value → Prop
  | .number x => ∃ z, x.toInt? = some z ∧ z.natAbs < Number.int64Bound
  | .string s => s ≠ unknownMark
  | _ => True

/-! ## Parts -/

theorem listedItems_eq (items : List Value) : listedItems items = items.map listed := by
  induction items with
  | nil => rfl
  | cons v rest ih => rw [listedItems, ih, List.map_cons]

theorem listedEntries_eq (entries : List (String × Value)) :
    listedEntries entries = entries.map fun e => (e.1, e.2.listed) := by
  induction entries with
  | nil => rfl
  | cons e rest ih => rw [listedEntries, ih, List.map_cons]

/-- The elements of a set stay in their order. -/
theorem listed_set (items : List Value) : (set items).listed = .list (items.map listed) := by
  rw [listed, listedItems_eq]

/-- The entries of a map in order stay in their order. -/
theorem listed_map {entries : List (String × Value)} (h : Ascending (.map entries)) :
    (map entries).listed = .map (entries.map fun e => (e.1, e.2.listed)) := by
  have hsorted : Assoc.Sorted (entries.map fun e => (e.1, e.2.listed)) :=
    List.pairwise_map.mpr (h entries rfl)
  rw [listed, listedEntries_eq, Assoc.ofEntries_of_sorted hsorted]

theorem toJsonItems_eq (items : List Value) : toJsonItems items = items.map toJson := by
  induction items with
  | nil => rfl
  | cons v rest ih => rw [toJsonItems, ih, List.map_cons]

theorem toJsonFields_eq (entries : List (String × Value)) :
    toJsonFields entries = entries.map fun e => (e.1, e.2.toJson) := by
  induction entries with
  | nil => rfl
  | cons e rest ih => rw [toJsonFields, ih, List.map_cons]

theorem ofJsonItems_eq (items : List Json) : ofJsonItems items = items.map ofJson := by
  induction items with
  | nil => rfl
  | cons j rest ih => rw [ofJsonItems, ih, List.map_cons]

theorem ofJsonFields_eq (fields : List (String × Json)) :
    ofJsonFields fields = fields.map fun e => (e.1, ofJson e.2) := by
  induction fields with
  | nil => rfl
  | cons e rest ih => rw [ofJsonFields, ih, List.map_cons]

/-! ## The document of a value -/

private theorem toJson_of_toInt? {x : Number} {z : Int} (h : x.toInt? = some z)
    (hz : z.natAbs < Number.int64Bound) : x.toJson = .int z := by
  rw [Number.toJson, h]
  exact if_pos hz

/-- The document of a value is nested as deeply as the value. -/
theorem depth_toJson (v : Value) : v.toJson.depth = v.depth := by
  have hitems : ∀ items : List Value, (∀ v ∈ items, v.toJson.depth = v.depth) →
      Json.depthItems (toJsonItems items) = depthItems items := by
    intro items ih
    induction items with
    | nil => rfl
    | cons v rest step =>
        rw [List.forall_mem_cons] at ih
        rw [toJsonItems, Json.depthItems, depthItems, ih.1, step ih.2]
  induction v using Value.induction with
  | number x =>
      show x.toJson.depth = 0
      rw [Number.toJson]
      split <;> split <;> rfl
  | list items ih | set items ih => rw [toJson, Json.depth, depth, hitems items ih]
  | map entries ih =>
      rw [toJson, Json.depth, depth]
      congr 1
      induction entries with
      | nil => rfl
      | cons e rest step =>
          rw [List.forall_mem_cons] at ih
          rw [toJsonFields, Json.depthFields, depthEntries, ih.1, step ih.2]
  | _ => rfl

/-- **The document of a carried value has no doubles**, and its integers fit 64 bits. -/
theorem integers_toJson {v : Value} (h : Everywhere Carried v) :
    v.toJson.Integers Json.FitsWord := by
  induction v using Value.induction with
  | number x =>
      obtain ⟨z, hz, hbound⟩ := h
      rw [toJson, toJson_of_toInt? hz hbound]
      constructor <;> omega
  | list items ih =>
      have hitems := (everywhere_list.mp h).2
      rw [toJson, Json.Integers, Json.integersItems_iff, toJsonItems_eq, List.forall_mem_map]
      exact fun v hv => ih v hv (hitems v hv)
  | set items ih =>
      have hitems := (everywhere_set.mp h).2
      rw [toJson, Json.Integers, Json.integersItems_iff, toJsonItems_eq, List.forall_mem_map]
      exact fun v hv => ih v hv (hitems v hv)
  | map entries ih =>
      have hentries := (everywhere_map.mp h).2
      rw [toJson, Json.Integers, Json.integersFields_iff, toJsonFields_eq, List.forall_mem_map]
      exact fun e he => ih e he (hentries e he)
  | _ => trivial

/-! ## The value of a document -/

/-- **The document of a carried value stands for an equal value**, sets apart. -/
theorem equals_ofJson_toJson {v : Value} (h : Everywhere Carried v) :
    (ofJson v.toJson.normal).equals v.listed = true := by
  have hitems : ∀ items : List Value,
      (∀ v ∈ items, (ofJson v.toJson.normal).equals v.listed = true) →
        (ofJson (Json.array (toJsonItems items)).normal).equals (.list (listedItems items)) =
          true := by
    intro items ih
    rw [Json.normal, ofJson, equals_list]
    induction items with
    | nil => rfl
    | cons v rest step =>
        rw [List.forall_mem_cons] at ih
        rw [toJsonItems, Json.normalItems, ofJsonItems, listedItems, allPairs, ih.1, step ih.2]
        rfl
  induction v using Value.induction with
  | null | unknown => rfl
  | bool b => exact equals_bool_iff.mpr rfl
  | number x =>
      obtain ⟨z, hz, hbound⟩ := h
      rw [toJson, toJson_of_toInt? hz hbound]
      exact equals_number_iff.mpr ⟨x, rfl, Number.equals_ofInt_of_toInt? hz⟩
  | string s =>
      show (ofJson (.string s)).equals (.string s) = true
      rw [ofJson, if_neg h]
      exact equals_string_iff.mpr rfl
  | list items ih => exact hitems items fun v hv => ih v hv ((everywhere_list.mp h).2 v hv)
  | set items ih => exact hitems items fun v hv => ih v hv ((everywhere_set.mp h).2 v hv)
  | map entries ih =>
      have hentries := (everywhere_map.mp h).2
      rw [toJson, Json.normal, Json.normalFields_eq, toJsonFields_eq, List.map_map, ofJson,
        ofJsonFields_eq, Assoc.map_ofEntries, List.map_map, listed, listedEntries_eq, equals_map]
      simp only [Function.comp_def]
      refine sameEntries_of_get?_rel (Assoc.sorted_ofEntries _) (Assoc.sorted_ofEntries _) ?_
      intro q
      -- both sides hold what belongs to the last entry with a key
      rw [Assoc.get?_ofEntries_map (fun v => ofJson v.toJson.normal) entries q,
        Assoc.get?_ofEntries_map listed entries q]
      cases hq : Assoc.get? entries.reverse q with
      | none => exact .none
      | some v =>
          have hmem := List.mem_reverse.mp (Assoc.mem_of_get? hq)
          exact .some (ih _ hmem (hentries _ hmem))

/-- **A document whose integers are doubles exactly is written again.** -/
theorem toJson_ofJson {j : Json} (h : j.Integers fun z => z.natAbs ≤ 2 ^ 53) :
    (ofJson j).toJson = j := by
  induction j using Json.induction with
  | int z =>
      have hbound : z.natAbs < Number.int64Bound := Nat.lt_of_le_of_lt h (by decide)
      exact toJson_of_toInt? (Number.toInt?_ofInt h) hbound
  | float x => exact h.elim
  | string s =>
      rw [ofJson]
      split
      · next hmark => rw [hmark, toJson]
      · rfl
  | array items ih =>
      have hitems := Json.integersItems_iff.mp h
      rw [ofJson, toJson, ofJsonItems_eq, toJsonItems_eq, List.map_map]
      congr 1
      exact (List.map_congr_left fun j hj => ih j hj (hitems j hj)).trans (List.map_id' items)
  | object fields ih =>
      have hfields := Json.integersFields_iff.mp h
      rw [ofJson, toJson, ofJsonFields_eq, toJsonFields_eq, List.map_map]
      congr 1
      refine (List.map_congr_left fun e he => ?_).trans (List.map_id' fields)
      exact Prod.ext rfl (ih e he (hfields e he))
  | _ => rfl

/-! ## Texts -/

/-- The bytes of a text are those of this text. -/
theorem decodeBytes_toUTF8 (text : String) : decodeBytes text.toUTF8 = decode text := by
  have h : String.fromUTF8? text.toUTF8 = some text := dif_pos text.isValidUTF8
  rw [decodeBytes, h]

/-- **A document is decoded from its text**, with the fields of its objects in order. -/
theorem decode_text {j : Json} (hints : j.Integers Json.FitsWord)
    (hdepth : j.depth ≤ nestingLimit) : decode j.text = .ok (ofJson j.normal) := by
  have hlimit : ∀ n ∈ some nestingLimit, j.depth ≤ n := by
    rintro n ⟨⟩
    exact hdepth
  rw [decode, Json.read?_text hints hlimit]

/-- **Values and documents survive their texts.** A carried value that is not nested too deep
    is read from its text as an equal one, with lists for its sets. A document whose integers
    are doubles exactly is read as a value whose document it is, with the fields of its
    objects in order; when they are in order, the value has the same text. -/
theorem text_round_trip :
    (∀ v : Value, v.depth ≤ nestingLimit → Everywhere Carried v →
      ∃ w, decodeBytes v.encode.toUTF8 = .ok w ∧ w.equals v.listed = true) ∧
    (∀ j : Json, j.depth ≤ nestingLimit → (j.Integers fun z => z.natAbs ≤ 2 ^ 53) →
      ∃ w, decodeBytes j.text.toUTF8 = .ok w ∧ w.toJson = j.normal ∧
        (j.Sorted → w.encode = j.text)) := by
  constructor
  · intro v hdepth h
    refine ⟨ofJson v.toJson.normal, ?_, equals_ofJson_toJson h⟩
    rw [decodeBytes_toUTF8, encode, decode_text (integers_toJson h)]
    rw [depth_toJson]
    exact hdepth
  · intro j hdepth h
    have hwritten := toJson_ofJson (Json.integers_normal h)
    refine ⟨ofJson j.normal, ?_, hwritten, ?_⟩
    · rw [decodeBytes_toUTF8, decode_text (h.imp fun z hz => ?_) hdepth]
      have hbound : (2 : Nat) ^ 53 < Number.int64Bound := by decide
      constructor <;> omega
    · intro hsorted
      rw [encode, hwritten, Json.normal_of_sorted hsorted]

section Nested

/-- A value with a set, an unknown value and a number inside a map. -/
private def nested : Value :=
  .map [("ports", .set [.number (Number.ofInt 80), .unknown]), ("tags", .list [.string "a\n"])]

/-- A document with its fields out of order. -/
private def unordered : Json :=
  .object [("b", .array [.int (-7), .null]), ("a", .string unknownMark)]

/-- A nested value and an unordered document survive their texts. -/
theorem nested_round_trip :
    (∃ w, decodeBytes nested.encode.toUTF8 = .ok w ∧ w.equals nested.listed = true) ∧
      ∃ w, decodeBytes unordered.text.toUTF8 = .ok w ∧ w.toJson = unordered.normal := by
  have hport : (Number.ofInt 80).toInt? = some 80 := Number.toInt?_ofInt (by decide)
  have hcarried : Everywhere Carried nested :=
    ⟨trivial, ⟨trivial, ⟨80, hport, by decide⟩, trivial, trivial⟩,
      ⟨trivial, (by decide : "a\n" ≠ unknownMark), trivial⟩, trivial⟩
  obtain ⟨w, hw, hequal⟩ := text_round_trip.1 nested (by decide) hcarried
  obtain ⟨u, hu, hsame, -⟩ := text_round_trip.2 unordered (by decide)
    ⟨⟨(by decide : (-7 : Int).natAbs ≤ 2 ^ 53), trivial, trivial⟩, trivial, trivial⟩
  exact ⟨⟨w, hw, hequal⟩, u, hu, hsame⟩

end Nested

end Value

end TrafficConfig
