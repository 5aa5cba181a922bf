import TrafficConfig.Json.Outline
import TrafficConfig.Proofs.Numerals

/-!
# The syntax of documents

What a text is by syntax alone, and that documents are taken apart exactly as they are written:

* **`IsValue`**, **`Lists`** — the grammar: a value, and the elements up to a closing bracket.
  What a string literal or a numeral denotes does not matter, nor how deep a value is nested;
* **`exists_of_pastValue?`**, **`pastValue?_append`** — what is passed is a value, and every
  value is passed, whatever follows that does not go on with it;
* **`members?_eq_some_iff`** — so an object is taken apart into its members, and nothing else
  is. This is the main result.
-/

namespace TrafficConfig.Json.Outline

/-! ## Grammar -/

/-- Nothing but blanks. -/
def Blank (cs : List Char) : Prop := ∀ c ∈ cs, c ∈ [' ', '\n', '\t', '\r']

/-- A piece of a string literal: a character, or an escape. -/
inductive IsUnit : List Char → Prop
  | char {c : Char} (hquote : c ≠ '"') (hbackslash : c ≠ '\\') (hcontrol : 0x20 ≤ c.toNat) :
      IsUnit [c]
  | escape {c : Char} (h : c ∈ ['"', '\\', '/', 'b', 'f', 'n', 'r', 't']) : IsUnit ['\\', c]
  | digits {a b c d : Char} (h : ∀ x ∈ [a, b, c, d], (Text.hexValue? x).isSome = true) :
      IsUnit ['\\', 'u', a, b, c, d]

/-- A string literal: pieces between quotes. -/
inductive IsLiteral : List Char → Prop
  | of {units : List (List Char)} (h : ∀ u ∈ units, IsUnit u) :
      IsLiteral ('"' :: (units.flatten ++ ['"']))

/-- The words. -/
def words : List (List Char) := ["null".toList, "true".toList, "false".toList]

mutual

/-- The characters of a value. -/
inductive IsValue : List Char → Prop
  | word {cs : List Char} (h : cs ∈ words) : IsValue cs
  | numeral {cs : List Char} (h : Numeral.IsNumeral cs) : IsValue cs
  | literal {cs : List Char} (h : IsLiteral cs) : IsValue cs
  | group {b : Bracket} {elements : List Element} {cs : List Char} (h : Lists b elements cs) :
      IsValue (b.opening :: cs)

/-- An element between brackets: a value, in an object behind its key and a colon. -/
inductive Writes : Bracket → Element → List Char → Prop
  | item {value : List Char} (h : IsValue value) : Writes .square ⟨[], value⟩ value
  | member {key before after value : List Char} (hkey : IsLiteral key) (hbefore : Blank before)
      (hafter : Blank after) (h : IsValue value) :
      Writes .curly ⟨key, value⟩ (key ++ (before ++ ':' :: (after ++ value)))

/-- Elements with commas between them, and the closing bracket. -/
inductive Lists : Bracket → List Element → List Char → Prop
  | nil {b : Bracket} {space : List Char} (h : Blank space) : Lists b [] (space ++ [b.closing])
  | last {b : Bracket} {e : Element} {before written after : List Char} (hbefore : Blank before)
      (h : Writes b e written) (hafter : Blank after) :
      Lists b [e] (before ++ (written ++ (after ++ [b.closing])))
  | cons {b : Bracket} {e next : Element} {others : List Element}
      {before written after cs : List Char} (hbefore : Blank before) (h : Writes b e written)
      (hafter : Blank after) (hrest : Lists b (next :: others) cs) :
      Lists b (e :: next :: others) (before ++ (written ++ (after ++ ',' :: cs)))

end

/-! ## Blanks -/

/-- The blanks of documents. -/
theorem isSpace_iff {c : Char} : Reader.isSpace c = true ↔ c ∈ [' ', '\n', '\t', '\r'] := by
  simp [Reader.isSpace, or_assoc]

/-- Blanks are passed up to something else. -/
theorem pastBlanks_append {space : List Char} {c : Char} (h : Blank space)
    (hc : Reader.isSpace c = false) (rest : List Char) :
    pastBlanks (space ++ c :: rest) = c :: rest := by
  refine (Numeral.takeWhile_front (fun b hb => isSpace_iff.mpr (h b hb)) fun x hx => ?_).2
  obtain rfl := Option.some.inj hx
  exact hc

/-- In front of what stands behind blanks are blanks. -/
theorem exists_blank (cs : List Char) : ∃ space, Blank space ∧ cs = space ++ pastBlanks cs := by
  refine ⟨cs.takeWhile Reader.isSpace, ?_, List.takeWhile_append_dropWhile.symm⟩
  intro c hc
  exact isSpace_iff.mp (List.mem_takeWhile_imp hc)

/-- Nothing is left of blanks. -/
theorem pastBlanks_eq_nil_iff {cs : List Char} : pastBlanks cs = [] ↔ Blank cs := by
  rw [pastBlanks, List.dropWhile_eq_nil_iff]
  exact forall₂_congr fun c _ => isSpace_iff

/-- Blanks behind blanks are blanks. -/
theorem Blank.append {xs ys : List Char} (hx : Blank xs) (hy : Blank ys) : Blank (xs ++ ys) := by
  intro c hc
  exact (List.mem_append.mp hc).elim (hx c) (hy c)

/-- What stands in front of a rest is what the rest was put behind. -/
theorem front_append (piece rest : List Char) : front (piece ++ rest) rest = piece := by
  rw [front, List.length_append, Nat.add_sub_cancel, List.take_left']
  rfl

/-! ## Literals -/

/-- The letters that an escape may have. -/
theorem escaped?_isSome_iff {c : Char} :
    (Reader.escaped? c).isSome = true ↔ c ∈ ['"', '\\', '/', 'b', 'f', 'n', 'r', 't'] := by
  simp only [Reader.escaped?, List.mem_cons, List.not_mem_nil, or_false]
  grind

/-- From a place inside of a string literal, the characters complete the piece around it. -/
def Completes : Place → List Char → Prop
  | .between, head => head = []
  | .backslash, head => IsUnit ('\\' :: head)
  | .digit left, head => head.length = left + 1 ∧ ∀ x ∈ head, (Text.hexValue? x).isSome = true

private theorem completes_digits {left : Nat} {q : Place} {c : Char} {head : List Char}
    (hstep : Place.behind? c (.digit left) = some q) (h : Completes q head) :
    Completes (.digit left) (c :: head) := by
  obtain ⟨value, hvalue, hq⟩ := Option.map_eq_some_iff.mp hstep
  have hhex : (Text.hexValue? c).isSome = true := by rw [hvalue]; rfl
  cases left with
  | zero =>
      obtain rfl : Place.between = q := hq
      obtain rfl : head = [] := h
      exact ⟨rfl, List.forall_mem_cons.mpr ⟨hhex, List.forall_mem_nil _⟩⟩
  | succ left =>
      obtain rfl : Place.digit left = q := hq
      exact ⟨congrArg (· + 1) h.1, List.forall_mem_cons.mpr ⟨hhex, h.2⟩⟩

private theorem completes_backslash {q : Place} {c : Char} {head : List Char}
    (hstep : Place.behind? c .backslash = some q) (h : Completes q head) :
    Completes .backslash (c :: head) := by
  rw [Place.behind?] at hstep
  split at hstep
  · next hu =>
      subst hu
      obtain rfl := Option.some.inj hstep
      obtain ⟨hlength, hhex⟩ := h
      match head, hlength with
      | [a, b, c, d], _ => exact .digits hhex
  · obtain ⟨e, hescaped, rfl⟩ := Option.map_eq_some_iff.mp hstep
    obtain rfl : head = [] := h
    exact .escape (escaped?_isSome_iff.mp (by rw [hescaped]; rfl))

private theorem isUnit_of_behind? {q : Place} {c : Char} {head : List Char} (hc : c ≠ '"')
    (hstep : Place.behind? c .between = some q) (h : Completes q head) : IsUnit (c :: head) := by
  rw [Place.behind?] at hstep
  split at hstep
  · next hbackslash =>
      subst hbackslash
      obtain rfl := Option.some.inj hstep
      exact h
  · next hbackslash =>
      split at hstep
      · exact nomatch hstep
      · next hcontrol =>
          obtain rfl := Option.some.inj hstep
          obtain rfl : head = [] := h
          exact .char hc hbackslash (Nat.not_lt.mp hcontrol)

/-- What is passed from a place inside of a string literal completes the piece around it, and
goes on with pieces up to the closing quote. -/
theorem exists_of_pastLiteral? {p : Place} {cs rest : List Char}
    (h : pastLiteral? p cs = some rest) : ∃ (head : List Char) (units : List (List Char)),
      Completes p head ∧ (∀ u ∈ units, IsUnit u) ∧ cs = head ++ (units.flatten ++ '"' :: rest) := by
  induction cs generalizing p with
  | nil => cases p <;> exact nomatch h
  | cons c cs ih =>
      cases p with
      | between =>
          rw [pastLiteral?] at h
          split at h
          · next hquote =>
              obtain rfl := Option.some.inj h
              exact ⟨[], [], rfl, List.forall_mem_nil _, by rw [hquote]; rfl⟩
          · next hquote =>
              obtain ⟨q, hstep, h⟩ := Option.bind_eq_some_iff.mp h
              obtain ⟨head, units, hhead, hunits, rfl⟩ := ih h
              refine ⟨[], (c :: head) :: units, rfl, ?_, ?_⟩
              · exact List.forall_mem_cons.mpr ⟨isUnit_of_behind? hquote hstep hhead, hunits⟩
              · simp only [List.flatten_cons, List.nil_append, List.cons_append,
                  List.append_assoc]
      | backslash =>
          obtain ⟨q, hstep, h⟩ := Option.bind_eq_some_iff.mp h
          obtain ⟨head, units, hhead, hunits, rfl⟩ := ih h
          exact ⟨c :: head, units, completes_backslash hstep hhead, hunits, rfl⟩
      | digit left =>
          obtain ⟨q, hstep, h⟩ := Option.bind_eq_some_iff.mp h
          obtain ⟨head, units, hhead, hunits, rfl⟩ := ih h
          exact ⟨c :: head, units, completes_digits hstep hhead, hunits, rfl⟩

/-- Every piece is passed. -/
theorem pastLiteral?_unit {u : List Char} (h : IsUnit u) (cs : List Char) :
    pastLiteral? .between (u ++ cs) = pastLiteral? .between cs := by
  cases h with
  | @char c hquote hbackslash hcontrol =>
      show pastLiteral? .between (c :: cs) = _
      rw [pastLiteral?, if_neg hquote, Place.behind?, if_neg hbackslash,
        if_neg (Nat.not_lt.mpr hcontrol)]
      rfl
  | @escape c hc =>
      have hu : c ≠ 'u' := by
        rintro rfl
        revert hc
        decide
      obtain ⟨e, he⟩ := Option.isSome_iff_exists.mp (escaped?_isSome_iff.mpr hc)
      show (Place.behind? c .backslash).bind (fun p => pastLiteral? p cs) = _
      rw [Place.behind?, if_neg hu, he]
      rfl
  | @digits a b c d hhex =>
      obtain ⟨ha, hhex⟩ := List.forall_mem_cons.mp hhex
      obtain ⟨hb, hhex⟩ := List.forall_mem_cons.mp hhex
      obtain ⟨hc, hhex⟩ := List.forall_mem_cons.mp hhex
      obtain ⟨hd, -⟩ := List.forall_mem_cons.mp hhex
      obtain ⟨_, ha⟩ := Option.isSome_iff_exists.mp ha
      obtain ⟨_, hb⟩ := Option.isSome_iff_exists.mp hb
      obtain ⟨_, hc⟩ := Option.isSome_iff_exists.mp hc
      obtain ⟨_, hd⟩ := Option.isSome_iff_exists.mp hd
      show (Place.behind? a (.digit 3)).bind (fun p => pastLiteral? p (b :: c :: d :: cs)) = _
      simp only [Place.behind?, ha, hb, hc, hd, Option.map_some, Option.bind_some, pastLiteral?]

/-- **What stands behind a string literal is passed to exactly.** -/
theorem pastLiteral?_eq_some_iff {cs rest : List Char} :
    pastLiteral? .between cs = some rest ↔
      ∃ piece, IsLiteral ('"' :: piece) ∧ cs = piece ++ rest := by
  constructor
  · intro h
    obtain ⟨head, units, rfl, hunits, rfl⟩ := exists_of_pastLiteral? h
    refine ⟨units.flatten ++ ['"'], .of hunits, ?_⟩
    rw [List.nil_append, List.append_assoc]
    rfl
  · rintro ⟨piece, hpiece, rfl⟩
    cases hpiece with
    | @of units hunits =>
        induction units with
        | nil => rfl
        | cons u units ih =>
            obtain ⟨hu, hunits⟩ := List.forall_mem_cons.mp hunits
            rw [List.flatten_cons, List.append_assoc, List.append_assoc, pastLiteral?_unit hu,
              ← List.append_assoc]
            exact ih hunits

/-! ## Numerals and words -/

/-- What follows goes on with neither a numeral nor a word. -/
def Stops (rest : List Char) : Prop :=
  ∀ c ∈ rest.head?, Reader.isNumeralChar c = false ∧ c.isAlpha = false

/-- Blanks go on with nothing. -/
theorem stops_blank {space rest : List Char} (h : Blank space) (hrest : Stops rest) :
    Stops (space ++ rest) := by
  cases space with
  | nil => exact hrest
  | cons c space =>
      have hblank : ∀ b ∈ [' ', '\n', '\t', '\r'],
          Reader.isNumeralChar b = false ∧ b.isAlpha = false := by
        simp [Reader.isNumeralChar]
      rintro _ ⟨⟩
      exact hblank c (h c List.mem_cons_self)

private theorem isNumeralChar_digits {ds : List Char} (h : Numeral.Digits ds) :
    ∀ d ∈ ds, Reader.isNumeralChar d = true := by
  intro d hd
  simp only [Reader.isNumeralChar, h.2 d hd, Bool.true_or]

/-- The characters of a numeral stand together. -/
theorem isNumeralChar_of_isNumeral {cs : List Char} (h : Numeral.IsNumeral cs) :
    ∀ c ∈ cs, Reader.isNumeralChar c = true := by
  obtain ⟨hsign, hwhole, hfraction, hexponent⟩ := h
  refine List.forall_mem_append.mpr ⟨?sign, List.forall_mem_append.mpr
    ⟨isNumeralChar_digits hwhole.1, List.forall_mem_append.mpr ⟨?fraction, ?exponent⟩⟩⟩
  case sign => rcases hsign with rfl | rfl <;> simp [Reader.isNumeralChar]
  case fraction =>
    cases hfraction with
    | none => exact List.forall_mem_nil _
    | some hds => exact List.forall_mem_cons.mpr ⟨rfl, isNumeralChar_digits hds⟩
  case exponent =>
    cases hexponent with
    | none => exact List.forall_mem_nil _
    | some hmark hsign hds =>
        refine List.forall_mem_cons.mpr ⟨by rcases hmark with rfl | rfl <;> rfl, ?_⟩
        refine List.forall_mem_append.mpr ⟨?_, isNumeralChar_digits hds⟩
        rcases hsign with rfl | rfl | rfl <;> simp [Reader.isNumeralChar]

/-- A numeral begins with a minus sign or a digit. -/
theorem exists_cons_of_isNumeral {cs : List Char} (h : Numeral.IsNumeral cs) :
    ∃ c rest, cs = c :: rest ∧ (c = '-' || c.isDigit) = true := by
  obtain ⟨hsign, hwhole, -, -⟩ := h
  rcases hsign with rfl | rfl
  · obtain ⟨d, ds, rfl⟩ := List.exists_cons_of_ne_nil hwhole.1.1
    refine ⟨d, _, rfl, ?_⟩
    rw [hwhole.1.2 d List.mem_cons_self, Bool.or_true]
  · exact ⟨'-', _, rfl, rfl⟩

/-- What is passed as a numeral is one. -/
theorem exists_of_pastNumeral? {cs rest : List Char} (h : pastNumeral? cs = some rest) :
    ∃ piece, Numeral.IsNumeral piece ∧ cs = piece ++ rest := by
  rw [pastNumeral?] at h
  split at h
  · next hsplit =>
      obtain rfl := Option.some.inj h
      refine ⟨_, Numeral.isSome_split?_iff.mp hsplit, ?_⟩
      exact List.takeWhile_append_dropWhile.symm
  · exact nomatch h

/-- Every numeral is passed, if nothing goes on with it. -/
theorem pastNumeral?_append {piece rest : List Char} (h : Numeral.IsNumeral piece)
    (hrest : Stops rest) : pastNumeral? (piece ++ rest) = some rest := by
  obtain ⟨htake, hdrop⟩ := Numeral.takeWhile_front (isNumeralChar_of_isNumeral h)
    fun c hc => (hrest c hc).1
  rw [pastNumeral?, htake, hdrop, if_pos (Numeral.isSome_split?_iff.mpr h)]

/-- The words that have a value. -/
theorem isSome_word?_iff {cs : List Char} :
    (Reader.word? cs.reverse).isSome = true ↔ cs ∈ words := by
  have hword : ∀ word : List Char, cs.reverse = word ↔ cs = word.reverse :=
    fun word => List.reverse_eq_iff
  rw [Reader.word?]
  simp only [hword]
  show _ ↔ cs ∈ [['n', 'u', 'l', 'l'], ['t', 'r', 'u', 'e'], ['f', 'a', 'l', 's', 'e']]
  grind

/-- What is passed as a word is one. -/
theorem exists_of_pastWord? {cs rest : List Char} (h : pastWord? cs = some rest) :
    ∃ piece ∈ words, cs = piece ++ rest := by
  rw [pastWord?] at h
  split at h
  · next hword =>
      obtain rfl := Option.some.inj h
      exact ⟨_, isSome_word?_iff.mp hword, List.takeWhile_append_dropWhile.symm⟩
  · exact nomatch h

/-- Every word is passed, if nothing goes on with it. -/
theorem pastWord?_append {piece rest : List Char} (h : piece ∈ words) (hrest : Stops rest) :
    pastWord? (piece ++ rest) = some rest := by
  have halpha : ∀ word ∈ words, ∀ c ∈ word, c.isAlpha = true := by simp [words]
  obtain ⟨htake, hdrop⟩ := Numeral.takeWhile_front (halpha piece h) fun c hc => (hrest c hc).2
  rw [pastWord?, htake, hdrop, if_pos (isSome_word?_iff.mpr h)]

/-! ## Nothing but values is passed -/

/-- Blanks in front of the elements do not matter. -/
theorem Lists.blank_append {b : Bracket} {es : List Element} {cs space : List Char}
    (hspace : Blank space) (h : Lists b es cs) : Lists b es (space ++ cs) := by
  cases h with
  | nil h =>
      rw [← List.append_assoc]
      exact .nil (hspace.append h)
  | last hbefore h hafter =>
      rw [← List.append_assoc]
      exact .last (hspace.append hbefore) h hafter
  | cons hbefore h hafter hrest =>
      rw [← List.append_assoc]
      exact .cons (hspace.append hbefore) h hafter hrest

/-- Behind the key, a value makes an element. -/
theorem writes_of_key? {b : Bracket} {cs key behind : List Char}
    (h : key? b cs = some (key, behind)) : ∃ head, cs = head ++ behind ∧
      ∀ value, IsValue value → Writes b ⟨key, value⟩ (head ++ value) := by
  cases b with
  | square =>
      obtain ⟨rfl, rfl⟩ := Prod.mk.inj (Option.some.inj h)
      exact ⟨[], rfl, fun value hvalue => .item hvalue⟩
  | curly =>
      match cs, h with
      | c :: rest, h =>
          rw [key?] at h
          split at h
          · next hquote =>
              obtain ⟨past, hpast, h⟩ := Option.bind_eq_some_iff.mp h
              obtain ⟨piece, hpiece, rfl⟩ := pastLiteral?_eq_some_iff.mp hpast
              obtain ⟨before, hbefore, hpasteq⟩ := exists_blank past
              split at h
              · exact nomatch h
              next colon value hcolon =>
              split at h
              · next heq =>
                  obtain ⟨rfl, rfl⟩ := Prod.mk.inj (Option.some.inj h)
                  obtain ⟨after, hafter, hvalueeq⟩ := exists_blank value
                  subst hquote heq
                  rw [← List.cons_append, front_append]
                  refine ⟨('"' :: piece) ++ (before ++ ':' :: after), ?_, fun v hv => ?_⟩
                  · rw [hpasteq, hcolon]
                    simp only [List.append_assoc, List.cons_append, ← hvalueeq]
                  · have hmember := Writes.member hpiece hbefore hafter hv
                    simpa only [List.append_assoc, List.cons_append] using hmember
              · exact nomatch h
          · exact nomatch h

/-- What one step through a sequence does: it passes a key and a value, and either a comma with
the other elements behind it or the closing bracket. -/
theorem sequence?_cases {n : Nat} {b : Bracket} {cs rest : List Char} {es : List Element}
    (h : sequence? (n + 1) b cs = some (es, rest)) :
    ∃ key text behind, key? b cs = some (key, text) ∧ pastValue? n text = some behind ∧
      ((∃ others more, pastBlanks behind = ',' :: others ∧
          sequence? n b (pastBlanks others) = some (more, rest) ∧
          es = ⟨key, front text behind⟩ :: more) ∨
        (pastBlanks behind = b.closing :: rest ∧ es = [⟨key, front text behind⟩])) := by
  rw [sequence?] at h
  obtain ⟨⟨key, text⟩, hkey, hpast⟩ := Option.bind_eq_some_iff.mp h
  obtain ⟨behind, hbehind, hmore⟩ := Option.bind_eq_some_iff.mp hpast
  refine ⟨key, text, behind, hkey, hbehind, ?_⟩
  split at hmore
  · exact nomatch hmore
  next c others hc =>
  split at hmore
  · next hcomma =>
      obtain ⟨⟨more, _⟩, hnext, hpair⟩ := Option.map_eq_some_iff.mp hmore
      obtain ⟨rfl, rfl⟩ := Prod.mk.inj hpair
      exact .inl ⟨others, more, hcomma ▸ hc, hnext, rfl⟩
  split at hmore
  · next hclosing =>
      obtain ⟨rfl, rfl⟩ := Prod.mk.inj (Option.some.inj hmore)
      exact .inr ⟨hclosing ▸ hc, rfl⟩
  · exact nomatch hmore

private theorem sound (n : Nat) :
    (∀ {cs rest}, pastValue? n cs = some rest → ∃ piece, IsValue piece ∧ cs = piece ++ rest) ∧
    (∀ {b cs es rest}, elements? n b cs = some (es, rest) →
      ∃ piece, Lists b es piece ∧ cs = piece ++ rest) ∧
    (∀ {b cs es rest}, sequence? n b cs = some (es, rest) →
      ∃ e others piece, es = e :: others ∧ Lists b es piece ∧ cs = piece ++ rest) := by
  induction n with
  | zero => exact ⟨nofun, nofun, nofun⟩
  | succ n ih =>
      obtain ⟨hvalue, helements, hsequence⟩ := ih
      -- a bracket is passed with the elements behind it
      have hgroup : ∀ {b : Bracket} {cs rest : List Char},
          (elements? n b (pastBlanks cs)).map (·.2) = some rest →
          ∃ piece, IsValue piece ∧ b.opening :: cs = piece ++ rest := by
        intro b cs rest h
        obtain ⟨⟨es, _⟩, hpast, rfl⟩ := Option.map_eq_some_iff.mp h
        obtain ⟨piece, hpiece, heq⟩ := helements hpast
        obtain ⟨space, hspace, hcs⟩ := exists_blank cs
        refine ⟨b.opening :: (space ++ piece), .group (hpiece.blank_append hspace), ?_⟩
        rw [hcs, heq, List.cons_append, List.append_assoc]
      refine ⟨?value, ?elements, ?sequence⟩
      case value =>
        intro cs rest h
        match cs, h with
        | c :: cs, h =>
            rw [pastValue?] at h
            split at h
            · next hc =>
                obtain ⟨piece, hpiece, rfl⟩ := pastLiteral?_eq_some_iff.mp h
                exact ⟨'"' :: piece, .literal hpiece, by rw [hc]; rfl⟩
            split at h
            · next hc =>
                subst hc
                exact hgroup (b := .square) h
            split at h
            · next hc =>
                subst hc
                exact hgroup (b := .curly) h
            split at h
            · obtain ⟨piece, hpiece, heq⟩ := exists_of_pastNumeral? h
              exact ⟨piece, .numeral hpiece, heq⟩
            · obtain ⟨piece, hpiece, heq⟩ := exists_of_pastWord? h
              exact ⟨piece, .word hpiece, heq⟩
      case elements =>
        intro b cs es rest h
        match cs, h with
        | c :: cs, h =>
            rw [elements?] at h
            split at h
            · next hc =>
                obtain ⟨rfl, rfl⟩ := Prod.mk.inj (Option.some.inj h)
                exact ⟨[] ++ [b.closing], .nil (List.forall_mem_nil _), by rw [hc]; rfl⟩
            · obtain ⟨_, _, piece, -, hpiece, heq⟩ := hsequence h
              exact ⟨piece, hpiece, heq⟩
      case sequence =>
        intro b cs es rest h
        have hnone : Blank [] := List.forall_mem_nil _
        obtain ⟨key, text, behind, hkey, hbehind, hnext⟩ := sequence?_cases h
        obtain ⟨head, rfl, hwrites⟩ := writes_of_key? hkey
        obtain ⟨value, hisValue, rfl⟩ := hvalue hbehind
        obtain ⟨after, hafter, heq⟩ := exists_blank behind
        have hwritten := hwrites value hisValue
        rw [front_append] at hnext
        rcases hnext with ⟨others, more, hcomma, hmore, rfl⟩ | ⟨hclosing, rfl⟩
        · obtain ⟨e, others', piece, rfl, hpiece, hrest⟩ := hsequence hmore
          obtain ⟨space, hspace, hothers⟩ := exists_blank others
          refine ⟨_, _, _, rfl, .cons hnone hwritten hafter (hpiece.blank_append hspace), ?_⟩
          rw [heq, hcomma, hothers, hrest]
          simp only [List.nil_append, List.append_assoc, List.cons_append]
        · refine ⟨_, _, _, rfl, .last hnone hwritten hafter, ?_⟩
          rw [heq, hclosing]
          simp only [List.nil_append, List.append_assoc, List.cons_append]

/-! ## Every value is passed -/

/-- A character that can begin a value. -/
def Begins (c : Char) : Prop :=
  Reader.isSpace c = false ∧ c ≠ Bracket.square.closing ∧ c ≠ Bracket.curly.closing

instance (c : Char) : Decidable (Begins c) := inferInstanceAs (Decidable (_ ∧ _ ∧ _))

private theorem begins_of_numeral {c : Char} (h : (c = '-' || c.isDigit) = true) :
    Begins c ∧ c ≠ '"' ∧ c ≠ '[' ∧ c ≠ '\x7b' := by
  have hother : ∀ x ∈ [' ', '\n', '\t', '\r', '"', '[', '\x7b', ']', '\x7d'],
      (x = '-' || x.isDigit) = false := by simp
  have hne : ∀ x ∈ [' ', '\n', '\t', '\r', '"', '[', '\x7b', ']', '\x7d'], c ≠ x := by
    rintro x hx rfl
    exact Bool.false_ne_true ((hother c hx).symm.trans h)
  have hspace : Reader.isSpace c = false := by
    rw [← Bool.not_eq_true, isSpace_iff]
    intro hmem
    exact hne c (List.mem_append_left ['"', '[', '\x7b', ']', '\x7d'] hmem) rfl
  exact ⟨⟨hspace, hne ']' (by decide), hne '\x7d' (by decide)⟩, hne '"' (by decide),
    hne '[' (by decide), hne '\x7b' (by decide)⟩

/-- Every value begins with a character that can begin one. -/
theorem exists_cons_of_isValue {cs : List Char} (h : IsValue cs) :
    ∃ c rest, cs = c :: rest ∧ Begins c := by
  cases h with
  | word h =>
      have hwords : ∀ word ∈ words, ∃ c rest, word = c :: rest ∧ Begins c := by
        simp only [words, List.forall_mem_cons]
        exact ⟨⟨_, _, rfl, by decide⟩, ⟨_, _, rfl, by decide⟩, ⟨_, _, rfl, by decide⟩, nofun⟩
      exact hwords cs h
  | numeral h =>
      obtain ⟨c, rest, rfl, hc⟩ := exists_cons_of_isNumeral h
      exact ⟨c, rest, rfl, (begins_of_numeral hc).1⟩
  | literal h =>
      cases h with
      | of _ => exact ⟨'"', _, rfl, by decide⟩
  | @group b _ cs _ =>
      cases b with
      | square => exact ⟨'[', cs, rfl, by decide⟩
      | curly => exact ⟨'\x7b', cs, rfl, by decide⟩

private theorem exists_piece_of_isLiteral {cs : List Char} (h : IsLiteral cs) :
    ∃ piece, cs = '"' :: piece ∧ ∀ rest, pastLiteral? .between (piece ++ rest) = some rest := by
  cases h with
  | of hunits => exact ⟨_, rfl, fun _ => pastLiteral?_eq_some_iff.mpr ⟨_, .of hunits, rfl⟩⟩

/-- The key of an element is passed up to its value. -/
theorem exists_head_of_writes {b : Bracket} {e : Element} {written : List Char}
    (h : Writes b e written) : IsValue e.value ∧ ∃ head, written = head ++ e.value ∧
      ∀ rest, key? b (head ++ (e.value ++ rest)) = some (e.key, e.value ++ rest) := by
  cases h with
  | item h => exact ⟨h, [], rfl, fun rest => rfl⟩
  | @member key before after value hkey hbefore hafter h =>
      refine ⟨h, key ++ (before ++ ':' :: after), ?_, fun rest => ?_⟩
      · simp only [List.append_assoc, List.cons_append]
      obtain ⟨piece, rfl, hpast⟩ := exists_piece_of_isLiteral hkey
      obtain ⟨c, text, rfl, hc⟩ := exists_cons_of_isValue h
      have hcolon := pastBlanks_append hbefore (c := ':') rfl (after ++ c :: (text ++ rest))
      have hvalue := pastBlanks_append hafter hc.1 (text ++ rest)
      show key? .curly ('"' :: (piece ++ (before ++ ':' :: after) ++ (c :: text ++ rest))) = _
      simp only [List.append_assoc, List.cons_append]
      rw [key?, if_pos rfl, hpast, Option.bind_some, hcolon]
      simp only [if_true, hvalue]
      rw [← List.cons_append, front_append]

/-- What is written of an element begins as a value does. -/
theorem exists_cons_of_writes {b : Bracket} {e : Element} {written : List Char}
    (h : Writes b e written) : ∃ c rest, written = c :: rest ∧ Begins c := by
  cases h with
  | item h => exact exists_cons_of_isValue h
  | member hkey _ _ _ =>
      obtain ⟨piece, rfl, -⟩ := exists_piece_of_isLiteral hkey
      exact ⟨'"', _, rfl, by decide⟩

private theorem sequence?_append {n : Nat} {b : Bracket} {e : Element}
    {before written behind others : List Char} {c : Char} (hbefore : Blank before)
    (h : Writes b e written) (hvalue : pastValue? n (e.value ++ behind) = some behind)
    (hbehind : pastBlanks behind = c :: others) :
    sequence? (n + 1) b (pastBlanks (before ++ (written ++ behind))) =
      if c = ',' then
        (sequence? n b (pastBlanks others)).map fun (elements, rest) => (e :: elements, rest)
      else if c = b.closing then some ([e], others) else none := by
  have hpast : pastBlanks (before ++ (written ++ behind)) = written ++ behind := by
    obtain ⟨first, text, rfl, hfirst⟩ := exists_cons_of_writes h
    exact pastBlanks_append hbefore hfirst.1 (text ++ behind)
  obtain ⟨-, head, rfl, hkey⟩ := exists_head_of_writes h
  rw [hpast, List.append_assoc, sequence?, hkey, Option.bind_some]
  simp only [hvalue, Option.bind_some, hbehind, front_append]

private theorem closing_ne_comma (b : Bracket) : b.closing ≠ ',' := by
  cases b <;> decide

private theorem pastBlanks_separator {b : Bracket} {c : Char} (hc : c = ',' ∨ c = b.closing)
    {space : List Char} (h : Blank space) (rest : List Char) :
    pastBlanks (space ++ c :: rest) = c :: rest ∧ Stops (space ++ c :: rest) := by
  have hends : Reader.isSpace c = false ∧ Reader.isNumeralChar c = false ∧ c.isAlpha = false := by
    rcases hc with rfl | rfl
    · decide
    · cases b <;> decide
  refine ⟨pastBlanks_append h hends.1 rest, stops_blank h fun x hx => ?_⟩
  obtain rfl := Option.some.inj hx
  exact hends.2

private theorem Begins.ne_closing {c : Char} (h : Begins c) (b : Bracket) : c ≠ b.closing := by
  cases b with
  | square => exact h.2.1
  | curly => exact h.2.2

private theorem exists_cons_of_lists {b : Bracket} {e : Element} {others : List Element}
    {piece : List Char} (h : Lists b (e :: others) piece) (rest : List Char) :
    ∃ c text, pastBlanks (piece ++ rest) = c :: text ∧ Begins c := by
  have hwritten : ∀ {before written : List Char} (behind : List Char), Blank before →
      Writes b e written →
      ∃ c text, pastBlanks (before ++ (written ++ behind)) = c :: text ∧ Begins c := by
    intro before written behind hbefore hwrites
    obtain ⟨c, text, rfl, hc⟩ := exists_cons_of_writes hwrites
    exact ⟨c, text ++ behind, pastBlanks_append hbefore hc.1 (text ++ behind), hc⟩
  cases h with
  | last hbefore h _ =>
      rw [List.append_assoc, List.append_assoc]
      exact hwritten _ hbefore h
  | cons hbefore h _ _ =>
      rw [List.append_assoc, List.append_assoc]
      exact hwritten _ hbefore h

private theorem complete (n : Nat) :
    (∀ {piece rest}, IsValue piece → Stops rest → 3 * piece.length ≤ n →
      pastValue? n (piece ++ rest) = some rest) ∧
    (∀ {b es piece} rest, Lists b es piece → 3 * piece.length + 2 ≤ n →
      elements? n b (pastBlanks (piece ++ rest)) = some (es, rest)) ∧
    (∀ {b e others piece} rest, Lists b (e :: others) piece → 3 * piece.length + 1 ≤ n →
      sequence? n b (pastBlanks (piece ++ rest)) = some (e :: others, rest)) := by
  induction n with
  | zero =>
      refine ⟨fun {piece rest} h _ hn => ?_, fun _ _ hn => ?_, fun _ _ hn => ?_⟩
      · obtain ⟨c, text, rfl, -⟩ := exists_cons_of_isValue h
        exact absurd hn (by simp)
      · omega
      · omega
  | succ n ih =>
      obtain ⟨hvalue, helements, hsequence⟩ := ih
      refine ⟨?value, ?elements, ?sequence⟩
      case value =>
        intro piece rest h hrest hn
        cases h with
        | word h =>
            have hfirst : ∀ word ∈ words, pastValue? (n + 1) (word ++ rest) =
                pastWord? (word ++ rest) := by
              simp only [words, List.forall_mem_cons]
              exact ⟨rfl, rfl, rfl, nofun⟩
            rw [hfirst piece h]
            exact pastWord?_append h hrest
        | numeral h =>
            obtain ⟨c, text, rfl, hc⟩ := exists_cons_of_isNumeral h
            obtain ⟨-, hquote, hsquare, hcurly⟩ := begins_of_numeral hc
            have hpast := pastNumeral?_append h hrest
            rw [List.cons_append] at hpast ⊢
            rw [pastValue?, if_neg hquote, if_neg hsquare, if_neg hcurly, if_pos hc, hpast]
        | literal h =>
            obtain ⟨text, rfl, hpast⟩ := exists_piece_of_isLiteral h
            rw [List.cons_append, pastValue?, if_pos rfl]
            exact hpast rest
        | @group b es cs h =>
            have hpast := helements rest h (by rw [List.length_cons] at hn; omega)
            rw [List.cons_append]
            cases b with
            | square =>
                show (elements? n .square (pastBlanks (cs ++ rest))).map (·.2) = some rest
                rw [hpast]
                rfl
            | curly =>
                show (elements? n .curly (pastBlanks (cs ++ rest))).map (·.2) = some rest
                rw [hpast]
                rfl
      case elements =>
        intro b es piece rest h hn
        cases es with
        | nil =>
            cases h with
            | @nil _ space hspace =>
                have hpast : pastBlanks (space ++ [b.closing] ++ rest) = b.closing :: rest := by
                  rw [List.append_assoc]
                  exact (pastBlanks_separator (.inr rfl) hspace rest).1
                rw [hpast, elements?, if_pos rfl]
        | cons e others =>
            obtain ⟨c, text, heq, hc⟩ := exists_cons_of_lists h rest
            have hpast := hsequence rest h (by omega)
            rw [heq] at hpast ⊢
            rw [elements?, if_neg (hc.ne_closing b), hpast]
      case sequence =>
        intro b e others piece rest h hn
        cases h with
        | @last _ _ before written after hbefore h hafter =>
            obtain ⟨hbehind, hstops⟩ := pastBlanks_separator (.inr rfl) hafter rest
            obtain ⟨hisValue, head, hwritten, -⟩ := exists_head_of_writes h
            have hlength : 3 * e.value.length ≤ n := by
              simp only [hwritten, List.length_append, List.length_cons] at hn
              omega
            have hstep := sequence?_append hbefore h (hvalue hisValue hstops hlength) hbehind
            rw [if_neg (closing_ne_comma b), if_pos rfl] at hstep
            simpa only [List.append_assoc, List.cons_append, List.nil_append] using hstep
        | @cons _ _ next others before written after cs hbefore h hafter hrest =>
            obtain ⟨hbehind, hstops⟩ :=
              pastBlanks_separator (b := b) (.inl rfl) hafter (cs ++ rest)
            obtain ⟨hisValue, head, hwritten, -⟩ := exists_head_of_writes h
            obtain ⟨hlength, hmore⟩ : 3 * e.value.length ≤ n ∧ 3 * cs.length + 1 ≤ n := by
              simp only [hwritten, List.length_append, List.length_cons] at hn
              omega
            have hstep := sequence?_append hbefore h (hvalue hisValue hstops hlength) hbehind
            rw [if_pos rfl, hsequence rest hrest hmore, Option.map_some] at hstep
            simpa only [List.append_assoc, List.cons_append] using hstep

/-- **What is passed as a value is one.** -/
theorem exists_of_pastValue? {n : Nat} {cs rest : List Char} (h : pastValue? n cs = some rest) :
    ∃ piece, IsValue piece ∧ cs = piece ++ rest :=
  (sound n).1 h

/-- **Every value is passed, whatever follows that does not go on with it.** -/
theorem pastValue?_append {n : Nat} {piece rest : List Char} (h : IsValue piece)
    (hrest : Stops rest) (hn : 3 * piece.length ≤ n) :
    pastValue? n (piece ++ rest) = some rest :=
  (complete n).1 h hrest hn

/-- **Objects are taken apart into the members they are written with, and nothing else is taken
apart.** -/
theorem members?_eq_some_iff {cs : List Char} {es : List Element} :
    members? cs = some es ↔
      ∃ piece after, Lists .curly es piece ∧ Blank after ∧ cs = piece ++ after := by
  constructor
  · intro h
    obtain ⟨⟨elements, rest⟩, hpast, hend⟩ := Option.bind_eq_some_iff.mp h
    replace hend : (if (pastBlanks rest).isEmpty then some elements else none) = some es := hend
    split at hend
    · next hempty =>
        obtain rfl := Option.some.inj hend
        obtain ⟨piece, hpiece, heq⟩ := (sound _).2.1 hpast
        obtain ⟨space, hspace, hcs⟩ := exists_blank cs
        have hafter : Blank rest := pastBlanks_eq_nil_iff.mp (List.isEmpty_iff.mp hempty)
        refine ⟨space ++ piece, rest, hpiece.blank_append hspace, hafter, ?_⟩
        rw [hcs, heq, List.append_assoc]
    · exact nomatch hend
  · rintro ⟨piece, after, hpiece, hafter, rfl⟩
    have hsteps : 3 * piece.length + 2 ≤ 3 * (piece ++ after).length + 2 := by
      rw [List.length_append]
      omega
    have hpast := (complete _).2.1 after hpiece hsteps
    have hend : (pastBlanks after).isEmpty = true :=
      List.isEmpty_iff.mpr (pastBlanks_eq_nil_iff.mpr hafter)
    rw [members?, hpast]
    exact if_pos hend

end TrafficConfig.Json.Outline
