import TrafficConfig.Json.Printer
import TrafficConfig.Json.Reader
import TrafficConfig.Proofs.Entries
import TrafficConfig.Proofs.Numerals

/-!
# What was printed is read

The machine that reads texts, fed with what was printed:

* **`feedAll_escaped`** — the characters of a string are read one by one, escaped or not;
* **`Ends`** — a word or a numeral is complete only when something else follows. The state
  goes on as if its document had been delivered already;
* **`ends_print`** — the text of a document leads from the place of a value to such a state,
  whatever is open around it;
* **`read?_text`** — so a document without doubles, whose integers fit 64 bits, is read from
  its text, with the fields of its objects in order (**`Json.normal`**). A document in order
  stays as it is (**`normal_of_sorted`**).
-/

namespace TrafficConfig

namespace Json

/-! ## Documents -/

mutual

/-- The numerals of a document are integers with a property. -/
def Integers (p : Int → Prop) : Json → Prop
  | .int z => p z
  | .float _ => False
  | .array items => IntegersItems p items
  | .object fields => IntegersFields p fields
  | _ => True

def IntegersItems (p : Int → Prop) : List Json → Prop
  | [] => True
  | j :: rest => Integers p j ∧ IntegersItems p rest

def IntegersFields (p : Int → Prop) : List (String × Json) → Prop
  | [] => True
  | (_, j) :: rest => Integers p j ∧ IntegersFields p rest

end

mutual

/-- The document with the fields of its objects in order; of two with one key the later one
    stays. -/
def normal : Json → Json
  | .array items => .array (normalItems items)
  | .object fields => .object (Assoc.ofEntries (normalFields fields))
  | j => j

def normalItems : List Json → List Json
  | [] => []
  | j :: rest => normal j :: normalItems rest

def normalFields : List (String × Json) → List (String × Json)
  | [] => []
  | (k, j) :: rest => (k, normal j) :: normalFields rest

end

/-- What holds of the documents without parts, and of an array or an object when it holds of
    its parts, holds of every document. -/
@[elab_as_elim]
theorem induction {motive : Json → Prop} (null : motive .null) (bool : ∀ b, motive (.bool b))
    (int : ∀ z, motive (.int z)) (float : ∀ x, motive (.float x))
    (string : ∀ s, motive (.string s))
    (array : ∀ items, (∀ j ∈ items, motive j) → motive (.array items))
    (object : ∀ fields, (∀ e ∈ fields, motive e.2) → motive (.object fields)) :
    ∀ j : Json, motive j :=
  @Json.rec motive (fun items => ∀ j ∈ items, motive j) (fun fields => ∀ e ∈ fields, motive e.2)
    (fun e => motive e.2) null bool int float string array object
    (List.forall_mem_nil _) (fun _ _ hj hrest => List.forall_mem_cons.mpr ⟨hj, hrest⟩)
    (List.forall_mem_nil _) (fun _ _ he hrest => List.forall_mem_cons.mpr ⟨he, hrest⟩)
    (fun _ _ h => h)

section Parts

variable {p : Int → Prop}

theorem integersItems_iff {items : List Json} :
    IntegersItems p items ↔ ∀ j ∈ items, j.Integers p := by
  induction items with
  | nil => simp [IntegersItems]
  | cons j rest ih => rw [IntegersItems, ih, List.forall_mem_cons]

theorem integersFields_iff {fields : List (String × Json)} :
    IntegersFields p fields ↔ ∀ e ∈ fields, e.2.Integers p := by
  induction fields with
  | nil => simp [IntegersFields]
  | cons e rest ih => rw [IntegersFields, ih, List.forall_mem_cons]

theorem sortedItems_iff {items : List Json} : SortedItems items ↔ ∀ j ∈ items, j.Sorted := by
  induction items with
  | nil => simp [SortedItems]
  | cons j rest ih => rw [SortedItems, ih, List.forall_mem_cons]

theorem sortedFields_iff {fields : List (String × Json)} :
    SortedFields fields ↔ ∀ e ∈ fields, e.2.Sorted := by
  induction fields with
  | nil => simp [SortedFields]
  | cons e rest ih => rw [SortedFields, ih, List.forall_mem_cons]

theorem normalItems_eq (items : List Json) : normalItems items = items.map normal := by
  induction items with
  | nil => rfl
  | cons j rest ih => rw [normalItems, ih, List.map_cons]

theorem normalFields_eq (fields : List (String × Json)) :
    normalFields fields = fields.map fun e => (e.1, e.2.normal) := by
  induction fields with
  | nil => rfl
  | cons e rest ih => rw [normalFields, ih, List.map_cons]

end Parts

/-- **A document in order stays as it is.** -/
theorem normal_of_sorted {j : Json} (h : j.Sorted) : j.normal = j := by
  induction j using Json.induction with
  | array items ih =>
      have hitems := sortedItems_iff.mp h
      rw [normal, normalItems_eq, List.map_congr_left fun j hj => ih j hj (hitems j hj),
        List.map_id']
  | object fields ih =>
      have hfields := sortedFields_iff.mp h.2
      have hsame : ∀ e ∈ fields, (e.1, e.2.normal) = e := fun e he => by
        rw [ih e he (hfields e he)]
      rw [normal, normalFields_eq, List.map_congr_left hsame, List.map_id',
        Assoc.ofEntries_of_sorted h.1]
  | _ => rfl

/-- What follows from a property of integers holds of those in a document too. -/
theorem Integers.imp {p q : Int → Prop} {j : Json} (h : j.Integers p) (hpq : ∀ z, p z → q z) :
    j.Integers q := by
  induction j using Json.induction with
  | int z => exact hpq z h
  | array items ih =>
      have hitems := integersItems_iff.mp h
      exact integersItems_iff.mpr fun j hj => ih j hj (hitems j hj)
  | object fields ih =>
      have hfields := integersFields_iff.mp h
      exact integersFields_iff.mpr fun e he => ih e he (hfields e he)
  | _ => exact h

/-- Putting fields in order brings no other numerals. -/
theorem integers_normal {p : Int → Prop} {j : Json} (h : j.Integers p) : j.normal.Integers p := by
  induction j using Json.induction with
  | array items ih =>
      have hitems := integersItems_iff.mp h
      rw [normal, Integers, integersItems_iff, normalItems_eq, List.forall_mem_map]
      exact fun j hj => ih j hj (hitems j hj)
  | object fields ih =>
      have hfields := integersFields_iff.mp h
      rw [normal, Integers, integersFields_iff, normalFields_eq]
      intro e he
      obtain ⟨f, hf, rfl⟩ := List.mem_map.mp (Assoc.mem_of_mem_ofEntries he)
      exact ih f hf (hfields f hf)
  | _ => exact h

/-- An integer fits 64 bits, signed or not. -/
def FitsWord (z : Int) : Prop :=
  -(Number.int64Bound : Int) ≤ z ∧ z < 2 * Number.int64Bound

end Json

namespace Json.Reader

variable {limit : Option Nat} {stack : List Frame}

/-- Feeding begins with the first character. -/
theorem feedAll_cons (s : State) (c : Char) (cs : List Char) :
    feedAll limit s (c :: cs) = (feed limit s c).bind fun t => feedAll limit t cs := by
  rw [feedAll, List.foldlM_cons]
  rfl

/-- Feeding goes on where it ended. -/
theorem feedAll_append (s : State) (xs ys : List Char) :
    feedAll limit s (xs ++ ys) = (feedAll limit s xs).bind fun t => feedAll limit t ys := by
  rw [feedAll, List.foldlM_append]
  rfl

/-- A first part that is read leads to the state from which the rest is read. -/
theorem feedAll_append_of_some {s t : State} {xs : List Char} (h : feedAll limit s xs = some t)
    (ys : List Char) : feedAll limit s (xs ++ ys) = feedAll limit t ys := by
  rw [feedAll_append, h, Option.bind_some]

/-! ## Strings -/

private theorem hexValue?_hexDigit (n : Nat) :
    Text.hexValue? (Text.hexDigit n) = some (n % 16) := by
  have hall : ∀ d < 16, Text.hexValue? (Text.hexDigit d) = some d := by decide
  have hmod := hall (n % 16) (Nat.mod_lt n (by decide))
  rwa [Text.hexDigit, Nat.mod_mod] at hmod

section Literal

variable {isKey : Bool}

private theorem feedAll_control (read : List Char) {c : Char} (h : c.toNat < 0x20) :
    feedAll limit ⟨stack, .literal isKey read (.hex none 0 0)⟩
      ['0', '0', Text.hexDigit (c.toNat / 16), Text.hexDigit c.toNat] =
        some ⟨stack, .literal isKey (c :: read) .plain⟩ := by
  -- the first two digits are zeros, so the others make up the code point
  show feedAll limit ⟨stack, .literal isKey read (.hex none 2 0)⟩
    [Text.hexDigit (c.toNat / 16), Text.hexDigit c.toNat] = _
  have hunit : c.toNat / 16 % 16 * 16 + c.toNat % 16 = c.toNat := by omega
  have hclose : closeUnit read none c.toNat = some (c :: read, .plain) := by
    have hlead : ¬ (0xD800 ≤ c.toNat) := by omega
    have htrail : ¬ (0xDC00 ≤ c.toNat) := by omega
    simp [closeUnit, hlead, htrail]
  simp only [feedAll_cons, feed, feedLiteral, hexValue?_hexDigit, Nat.reduceEqDiff, if_false,
    if_true, Nat.reduceAdd, Nat.zero_mul, Nat.zero_add, Option.bind_some, Option.map_some]
  rw [hunit, hclose]
  rfl

/-- A character of a string is read from what is printed for it. -/
theorem feedAll_escapeChar (read : List Char) (c : Char) :
    feedAll limit ⟨stack, .literal isKey read .plain⟩ (escapeChar c) =
      some ⟨stack, .literal isKey (c :: read) .plain⟩ := by
  unfold escapeChar
  split
  · next h => subst h; rfl
  split
  · next h => subst h; rfl
  split
  · next h => subst h; rfl
  split
  · next h => subst h; rfl
  split
  · next h => subst h; rfl
  split
  · next h =>
      rw [← Char.ofNat_toNat c, h]
      rfl
  split
  · next h =>
      rw [← Char.ofNat_toNat c, h]
      rfl
  split
  · next hcontrol =>
      exact feedAll_control read hcontrol
  · next hquote hbackslash _ _ _ _ _ hcontrol =>
      have hfeed : feedLiteral read .plain c = some (c :: read, .plain) := by
        rw [feedLiteral, if_neg hbackslash, if_neg hcontrol]
      rw [feedAll_cons, feed]
      simp only [if_neg hquote, hfeed]
      rfl

/-- The characters of a string are read one by one. -/
theorem feedAll_escaped (cs read : List Char) :
    feedAll limit ⟨stack, .literal isKey read .plain⟩ (cs.flatMap escapeChar) =
      some ⟨stack, .literal isKey (cs.reverse ++ read) .plain⟩ := by
  induction cs generalizing read with
  | nil => rfl
  | cons c rest ih =>
      rw [List.flatMap_cons, feedAll_append_of_some (feedAll_escapeChar read c), ih (c :: read),
        List.reverse_cons, List.append_assoc]
      rfl

/-- Behind its opening quote, a string literal is read as its string. -/
theorem feedAll_literal (s : String) :
    feedAll limit ⟨stack, .literal isKey [] .plain⟩ (s.toList.flatMap escapeChar ++ ['"']) =
      closeLiteral stack isKey s.toList.reverse := by
  rw [feedAll_append_of_some (feedAll_escaped s.toList []), List.append_nil, feedAll_cons]
  show (closeLiteral stack isKey s.toList.reverse).bind some = _
  exact Option.bind_fun_some _

end Literal

/-- A string is read as a value. -/
theorem feedAll_string (first : Bool) (s : String) :
    feedAll limit ⟨stack, .value first⟩ (literal s) = some (deliver stack (.string s)) := by
  have hopen : feed limit ⟨stack, .value first⟩ '"' = some ⟨stack, .literal false [] .plain⟩ := by
    cases first <;> rfl
  rw [literal, List.cons_append, feedAll_cons, hopen, Option.bind_some, feedAll_literal]
  show some (deliver stack (.string (String.ofList s.toList.reverse.reverse))) = _
  rw [List.reverse_reverse, String.ofList_toList]

/-- A string is read as a key. -/
theorem feedAll_key (done : List (String × Json)) (key : String) (first : Bool) (s : String) :
    feedAll limit ⟨.object done key :: stack, .key first⟩ (literal s) =
      some ⟨.object done s :: stack, .colon⟩ := by
  have hopen : feed limit ⟨.object done key :: stack, .key first⟩ '"' =
      some ⟨.object done key :: stack, .literal true [] .plain⟩ := by
    cases first <;> rfl
  rw [literal, List.cons_append, feedAll_cons, hopen, Option.bind_some, feedAll_literal]
  show some (State.mk (.object done (String.ofList s.toList.reverse.reverse) :: stack) .colon) = _
  rw [List.reverse_reverse, String.ofList_toList]

/-! ## Words and numerals -/

/-- What may stand right behind a value. -/
def follows : List Char := [',', ']', '\x7d']

/-- A state goes on as if a document had been delivered: at the end of the text, and with
    what may stand right behind a value. -/
structure Ends (limit : Option Nat) (stack : List Frame) (j : Json) (s : State) : Prop where
  next : ∀ c ∈ follows, feed limit s c = afterValue (deliver stack j) c
  final : stack = [] → finish s = some j

private theorem mem_follows {c : Char} : c ∈ follows ↔ c = ',' ∨ c = ']' ∨ c = '\x7d' := by
  simp [follows]

/-- A value that was delivered is complete. -/
theorem ends_deliver (j : Json) : Ends limit stack j (deliver stack j) where
  next c _ := by
    cases stack with
    | nil => rfl
    | cons frame rest => cases frame <;> rfl
  final h := by
    subst h
    rfl

/-- A word is complete when nothing goes on with it. -/
theorem ends_word {read : List Char} {j : Json} (h : word? read = some j) :
    Ends limit stack j ⟨stack, .word read⟩ where
  next c hc := by
    have halpha : c.isAlpha = false := by
      rcases mem_follows.mp hc with rfl | rfl | rfl <;> rfl
    rw [feed]
    simp only [halpha, h]
    rfl
  final hstack := by
    subst hstack
    exact h

/-- A numeral is complete when nothing goes on with it. -/
theorem ends_numeral {read : List Char} {j : Json} (h : ofNumeral? read.reverse = some j) :
    Ends limit stack j ⟨stack, .numeral read⟩ where
  next c hc := by
    have hchar : isNumeralChar c = false := by
      rcases mem_follows.mp hc with rfl | rfl | rfl <;> rfl
    rw [feed]
    simp only [hchar, h]
    rfl
  final hstack := by
    subst hstack
    exact h

/-- The characters of a numeral are gathered. -/
theorem feedAll_numeral {cs : List Char} (h : ∀ c ∈ cs, isNumeralChar c = true)
    (read : List Char) :
    feedAll limit ⟨stack, .numeral read⟩ cs = some ⟨stack, .numeral (cs.reverse ++ read)⟩ := by
  induction cs generalizing read with
  | nil => rfl
  | cons c rest ih =>
      rw [List.forall_mem_cons] at h
      have hfeed : feed limit ⟨stack, .numeral read⟩ c = some ⟨stack, .numeral (c :: read)⟩ := by
        rw [feed]
        simp only [h.1, if_true]
      rw [feedAll_cons, hfeed, Option.bind_some, ih h.2, List.reverse_cons, List.append_assoc]
      rfl

private theorem feed_numeral (first : Bool) {c : Char} (h : c = '-' ∨ c.isDigit = true) :
    feed limit ⟨stack, .value first⟩ c = some ⟨stack, .numeral [c]⟩ := by
  rcases h with rfl | h
  · cases first <;> rfl
  · have hother : ∀ d : Char, d.isDigit = false → c ≠ d := by
      rintro d hd rfl
      rw [h] at hd
      exact nomatch hd
    have hspace : isSpace c = false := by
      simp [isSpace, hother ' ' rfl, hother '\n' rfl, hother '\t' rfl, hother '\r' rfl]
    simp [feed, beginValue, hspace, h, hother '"' rfl, hother '[' rfl, hother ']' rfl,
      hother '\x7b' rfl]

/-- **The text of an integer is a numeral.** -/
theorem feedAll_int (first : Bool) (z : Int) :
    feedAll limit ⟨stack, .value first⟩ (toString z).toList =
      some ⟨stack, .numeral (toString z).toList.reverse⟩ := by
  have hchars : ∀ c ∈ (toString z).toList, c = '-' ∨ c.isDigit = true := by
    intro c hc
    rw [Numeral.toList_toString, List.mem_append] at hc
    rcases hc with hc | hc
    · split at hc
      · exact .inl (List.mem_singleton.mp hc)
      · exact nomatch hc
    · exact .inr (Numeral.isDigit_toDigits _ c hc)
  have hnumeral : ∀ c ∈ (toString z).toList, isNumeralChar c = true := by
    intro c hc
    rcases hchars c hc with rfl | hdigit
    · rfl
    · simp [isNumeralChar, hdigit]
  cases hcs : (toString z).toList with
  | nil =>
      rw [Numeral.toList_toString] at hcs
      exact absurd (List.append_eq_nil_iff.mp hcs).2 Nat.toDigits_ne_nil
  | cons c rest =>
      rw [hcs, List.forall_mem_cons] at hchars hnumeral
      rw [feedAll_cons, feed_numeral first hchars.1, Option.bind_some,
        feedAll_numeral hnumeral.2, List.reverse_cons]

/-! ## Documents -/

/-- A document within the limit, around which some are open already. -/
def Within (limit : Option Nat) (stack : List Frame) (depth : Nat) : Prop :=
  ∀ n ∈ limit, stack.length + depth ≤ n

/-- Arrays and objects are opened within the limit. -/
theorem openFrame_of_within {depth : Nat} (h : Within limit stack (depth + 1))
    (frame : Frame) (mode : Mode) :
    openFrame limit stack frame mode = some ⟨frame :: stack, mode⟩ := by
  rw [openFrame, if_pos]
  cases limit with
  | none => rfl
  | some n =>
      have := h n rfl
      simp only [Option.all_some, decide_eq_true_eq]
      omega

private theorem Within.push {depth : Nat} (h : Within limit stack (depth + 1)) (frame : Frame) :
    Within limit (frame :: stack) depth := by
  intro n hn
  have := h n hn
  rw [List.length_cons]
  omega

private theorem Within.mono {depth less : Nat} (h : Within limit stack depth)
    (hless : less ≤ depth) : Within limit stack less := fun n hn =>
  Nat.le_trans (Nat.add_le_add_left hless _) (h n hn)

/-- A field is read up to where its value ends. -/
theorem feedAll_field {done : List (String × Json)} {key k : String} {first : Bool}
    {j : Json} {s : State}
    (h : feedAll limit ⟨.object done k :: stack, .value false⟩ j.print = some s)
    (rest : List Char) :
    feedAll limit ⟨.object done key :: stack, .key first⟩
      (literal k ++ ':' :: (j.print ++ rest)) = feedAll limit s rest := by
  rw [feedAll_append_of_some (feedAll_key done key first k), feedAll_cons]
  show feedAll limit ⟨.object done k :: stack, .value false⟩ (j.print ++ rest) = _
  exact feedAll_append_of_some h rest

mutual

/-- **The text of a document leads to its end.** -/
theorem ends_print : ∀ (j : Json), j.Integers FitsWord → ∀ (stack : List Frame) (first : Bool),
    Within limit stack j.depth → ∃ s,
      feedAll limit ⟨stack, .value first⟩ j.print = some s ∧ Ends limit stack j.normal s
  | .null, _, stack, first, _ => by
    refine ⟨⟨stack, .word ['l', 'l', 'u', 'n']⟩, ?_, ends_word rfl⟩
    cases first <;> rfl
  | .bool true, _, stack, first, _ => by
    refine ⟨⟨stack, .word ['e', 'u', 'r', 't']⟩, ?_, ends_word rfl⟩
    cases first <;> rfl
  | .bool false, _, stack, first, _ => by
    refine ⟨⟨stack, .word ['e', 's', 'l', 'a', 'f']⟩, ?_, ends_word rfl⟩
    cases first <;> rfl
  | .int z, hz, stack, first, _ => by
    refine ⟨_, feedAll_int first z, ends_numeral ?_⟩
    rw [List.reverse_reverse]
    exact Numeral.ofNumeral?_toString hz.1 hz.2
  | .float _, h, _, _, _ => h.elim
  | .string s, _, stack, first, _ => ⟨_, feedAll_string first s, ends_deliver _⟩
  | .array items, h, stack, first, hwithin => by
    have hopen : feed limit ⟨stack, .value first⟩ '[' =
        some ⟨.array [] :: stack, .value true⟩ := by
      rw [← openFrame_of_within hwithin (.array []) (.value true)]
      cases first <;> rfl
    refine ⟨_, ?_, ends_deliver _⟩
    rw [print, feedAll_cons, hopen, Option.bind_some]
    exact feedAll_items items h stack [] true (fun _ => rfl) (hwithin.push _)
  | .object fields, h, stack, first, hwithin => by
    have hopen : feed limit ⟨stack, .value first⟩ '\x7b' =
        some ⟨.object [] "" :: stack, .key true⟩ := by
      rw [← openFrame_of_within hwithin (.object [] "") (.key true)]
      cases first <;> rfl
    refine ⟨_, ?_, ends_deliver _⟩
    rw [print, feedAll_cons, hopen, Option.bind_some]
    exact feedAll_fields fields h stack [] "" true (fun _ => rfl) (hwithin.push _)

private theorem feedAll_items : ∀ (items : List Json), IntegersItems FitsWord items →
    ∀ (stack : List Frame) (done : List Json) (first : Bool), (items = [] → first = true) →
      Within limit (.array done :: stack) (depthItems items) →
        feedAll limit ⟨.array done :: stack, .value first⟩ (printItems items ++ [']']) =
          some (deliver stack (.array (done.reverse ++ normalItems items)))
  | [], _, stack, done, first, hfirst, _ => by
    obtain rfl := hfirst rfl
    rw [normalItems, List.append_nil]
    rfl
  | [j], h, stack, done, first, _, hwithin => by
    obtain ⟨s, hs, hends⟩ := ends_print j h.1 (.array done :: stack) first
      (hwithin.mono (Nat.le_max_left ..))
    rw [printItems, feedAll_append_of_some hs, feedAll_cons, hends.next _ (by decide)]
    show some (deliver stack (.array (j.normal :: done).reverse)) = _
    rw [List.reverse_cons]
    rfl
  | j :: j' :: rest, h, stack, done, first, _, hwithin => by
    obtain ⟨s, hs, hends⟩ := ends_print j h.1 (.array done :: stack) first
      (hwithin.mono (Nat.le_max_left ..))
    have hrest := feedAll_items (j' :: rest) h.2 stack (j.normal :: done) false nofun
      (hwithin.mono (Nat.le_max_right ..))
    rw [printItems, List.append_assoc, feedAll_append_of_some hs, List.cons_append, feedAll_cons,
      hends.next _ (by decide)]
    rw [List.reverse_cons, List.append_assoc] at hrest
    exact hrest

private theorem feedAll_fields : ∀ (fields : List (String × Json)),
    IntegersFields FitsWord fields → ∀ (stack : List Frame) (done : List (String × Json))
      (key : String) (first : Bool), (fields = [] → first = true) →
      Within limit (.object done key :: stack) (depthFields fields) →
        feedAll limit ⟨.object done key :: stack, .key first⟩ (printFields fields ++ ['\x7d']) =
          some (deliver stack (.object (Assoc.ofEntries (done.reverse ++ normalFields fields))))
  | [], _, stack, done, key, first, hfirst, _ => by
    obtain rfl := hfirst rfl
    rw [normalFields, List.append_nil]
    rfl
  | [(k, j)], h, stack, done, key, first, _, hwithin => by
    obtain ⟨s, hs, hends⟩ := ends_print j h.1 (.object done k :: stack) false
      (hwithin.mono (Nat.le_max_left ..))
    rw [printFields, List.append_assoc, List.cons_append, feedAll_field hs, feedAll_cons,
      hends.next _ (by decide)]
    show some (deliver stack (.object (Assoc.ofEntries ((k, j.normal) :: done).reverse))) = _
    rw [List.reverse_cons]
    rfl
  | (k, j) :: e :: rest, h, stack, done, key, first, _, hwithin => by
    obtain ⟨s, hs, hends⟩ := ends_print j h.1 (.object done k :: stack) false
      (hwithin.mono (Nat.le_max_left ..))
    have hrest := feedAll_fields (e :: rest) h.2 stack ((k, j.normal) :: done) "" false nofun
      (hwithin.mono (Nat.le_max_right ..))
    rw [printFields, List.append_assoc, List.cons_append, List.append_assoc, feedAll_field hs,
      List.cons_append, feedAll_cons, hends.next _ (by decide)]
    rw [List.reverse_cons, List.append_assoc] at hrest
    exact hrest

end

end Json.Reader

namespace Json

open Reader

/-- **A document is read from its text, with the fields of its objects in order**, if it has
    no doubles, its integers fit 64 bits, and it is not nested deeper than the limit. -/
theorem read?_text {limit : Option Nat} {j : Json} (hints : j.Integers FitsWord)
    (hdepth : ∀ n ∈ limit, j.depth ≤ n) : read? limit j.text = some j.normal := by
  have hwithin : Within limit [] j.depth := by
    intro n hn
    rw [List.length_nil, Nat.zero_add]
    exact hdepth n hn
  obtain ⟨s, hs, hends⟩ := ends_print j hints [] false hwithin
  rw [read?, text, String.toList_ofList, hs]
  exact hends.final rfl

end Json

end TrafficConfig
