import TrafficConfig.Catalog
import TrafficConfig.Proofs.Readback

/-!
# Texts that are read as they were written

* **`Text.Legible`** — the lines that are read again when they stand in one text: these
  and no others (**`Text.lines_unlines_iff`**);
* **`Text.Separable`** — lines that can be told apart wherever they stand in a text, so that
  **`Text.lines_unlines`** reads them again;
* **`Value.Recitable`** — the value of an attribute that stands for a text: no set, and if
  it is a list of strings, these are such lines;
* **`Catalog.decode_encode`** — a text of the catalog is read as the value that it was
  written for.
-/

namespace TrafficConfig

open Value

namespace Text

/-- Lines that a text keeps apart: none of them has a line feed or ends with a carriage
    return, and the last one is not empty. -/
structure Separable (ls : List String) : Prop where
  unbroken : ∀ l ∈ ls, '\n' ∉ l.toList
  ends : ∀ l ∈ ls, l.toList.getLast? ≠ some '\r'
  last : ls.getLast? ≠ some ""

/-- Lines that a text gives back: none of them has a line feed, none before the last one ends
    with a carriage return, and the last one is not empty. -/
structure Legible (ls : List String) : Prop where
  unbroken : ∀ l ∈ ls, '\n' ∉ l.toList
  ends : ∀ l ∈ ls.dropLast, l.toList.getLast? ≠ some '\r'
  last : ls.getLast? ≠ some ""

/-- Lines that can be told apart are legible. -/
theorem Separable.legible {ls : List String} (h : Separable ls) : Legible ls :=
  ⟨h.unbroken, fun l hl => h.ends l (List.dropLast_subset ls hl), h.last⟩

/-! ## Splitting -/

/-- A line without the carriage return at its end. -/
def chomp (line : List Char) : List Char :=
  if line.getLast? = some '\r' then line.dropLast else line

/-- A line loses nothing unless it ends with a carriage return. -/
theorem chomp_eq_self_iff {line : List Char} :
    chomp line = line ↔ line.getLast? ≠ some '\r' := by
  rw [chomp]
  by_cases h : line.getLast? = some '\r'
  · rw [if_pos h]
    refine iff_of_false (fun hsame => ?_) (absurd h)
    have hpos := List.length_pos_of_mem (List.mem_of_getLast? h)
    have hlength := congrArg List.length hsame
    rw [List.length_dropLast] at hlength
    omega
  · rw [if_neg h]
    exact iff_of_true rfl h

private theorem chomp_cons_cons (c d : Char) (rest : List Char) :
    chomp (c :: d :: rest) = c :: chomp (d :: rest) := by
  rw [chomp, chomp, List.getLast?_cons_cons, List.dropLast_cons_cons]
  split <;> rfl

section Split

variable {line : List Char}

private theorem splitLines_cons {c : Char} {text : List Char} (hc : c ≠ '\n')
    (hreturn : ¬ (c = '\r' ∧ text.head? = some '\n')) :
    splitLines (c :: text) = match splitLines text with
      | [] => [[c]]
      | line :: more => (c :: line) :: more :=
  (if_neg hc).trans (if_neg hreturn)

/-- **A line with its end is the first one**, without a carriage return before the end. -/
theorem splitLines_append (hline : '\n' ∉ line) (text : List Char) :
    splitLines (line ++ '\n' :: text) = chomp line :: splitLines text := by
  induction line with
  | nil =>
      rw [List.nil_append, splitLines, if_pos rfl]
      rfl
  | cons c rest ih =>
      rw [List.mem_cons, not_or] at hline
      have hc := Ne.symm hline.1
      have hrest := ih hline.2
      rw [List.cons_append]
      cases rest with
      | nil =>
          by_cases hreturn : c = '\r'
          · subst hreturn
            exact ((if_neg hc).trans (if_pos ⟨rfl, rfl⟩)).trans hrest
          · have hkept : chomp [c] = [c] := chomp_eq_self_iff.mpr fun h =>
              hreturn (Option.some.inj h)
            rw [splitLines_cons hc fun h => hreturn h.1, hrest, hkept]
            rfl
      | cons d more =>
          rw [splitLines_cons hc, hrest, chomp_cons_cons]
          rintro ⟨-, hnext⟩
          exact hline.2 (Option.some.inj hnext ▸ List.mem_cons_self)

/-- A line without an end is one line, unless it is empty. -/
theorem splitLines_line (hline : '\n' ∉ line) (hne : line ≠ []) :
    splitLines line = [line] := by
  induction line with
  | nil => exact absurd rfl hne
  | cons c rest ih =>
      rw [List.mem_cons, not_or] at hline
      rw [splitLines_cons (Ne.symm hline.1)]
      · by_cases hrest : rest = []
        · rw [hrest, splitLines]
        · rw [ih hline.2 hrest]
      · rintro ⟨-, hnext⟩
        exact hline.2 (List.mem_of_mem_head? hnext)

/-- No line of a text has a line feed. -/
theorem newline_not_mem_of_mem_splitLines {text : List Char} (h : line ∈ splitLines text) :
    '\n' ∉ line := by
  induction text generalizing line with
  | nil => exact absurd h List.not_mem_nil
  | cons c rest ih =>
      rw [splitLines] at h
      split at h
      · rcases List.mem_cons.mp h with rfl | h
        · exact List.not_mem_nil
        · exact ih h
      · next hc =>
          have hfirst : ∀ {l : List Char}, '\n' ∉ l → '\n' ∉ c :: l := by
            intro l hl
            rw [List.mem_cons, not_or]
            exact ⟨Ne.symm hc, hl⟩
          split at h
          · exact ih h
          · split at h
            · rw [List.mem_singleton] at h
              exact h ▸ hfirst List.not_mem_nil
            · next first more hsplit =>
                rcases List.mem_cons.mp h with rfl | h
                · exact hfirst (ih (hsplit ▸ List.mem_cons_self))
                · exact ih (hsplit ▸ List.mem_cons_of_mem first h)

end Split

/-- Which lines a text splits into again. -/
theorem splitLines_intercalate_eq_iff {ls : List (List Char)} :
    splitLines (['\n'].intercalate ls) = ls ↔
      (∀ l ∈ ls, '\n' ∉ l) ∧ (∀ l ∈ ls.dropLast, l.getLast? ≠ some '\r') ∧
        ls.getLast? ≠ some [] := by
  by_cases hunbroken : ∀ l ∈ ls, '\n' ∉ l
  · rw [and_iff_right hunbroken]
    induction ls with
    | nil => exact iff_of_true rfl ⟨fun _ h => absurd h List.not_mem_nil, nofun⟩
    | cons l rest ih =>
        rw [List.forall_mem_cons] at hunbroken
        cases rest with
        | nil =>
            rw [List.intercalate_singleton, List.dropLast_singleton, List.getLast?_singleton]
            by_cases hl : l = []
            · subst hl
              exact iff_of_false nofun fun h => h.2 rfl
            · refine iff_of_true (splitLines_line hunbroken.1 hl)
                ⟨fun _ h => absurd h List.not_mem_nil, fun h => hl (Option.some.inj h)⟩
        | cons m more =>
            -- the first line loses a carriage return, and the others are as they were
            rw [List.intercalate_cons_cons, List.append_assoc, List.singleton_append,
              splitLines_append hunbroken.1, List.cons.injEq, chomp_eq_self_iff,
              ih hunbroken.2, List.dropLast_cons_cons, List.forall_mem_cons,
              List.getLast?_cons_cons, and_assoc]
  · refine iff_of_false (fun hsame => hunbroken fun l hl => ?_) fun h => hunbroken h.1
    exact newline_not_mem_of_mem_splitLines (hsame.symm ▸ hl)

/-- **Which lines are read again** from the text that they make up. -/
theorem lines_unlines_iff {ls : List String} : lines (unlines ls) = ls ↔ Legible ls := by
  have hmap : ∀ xs : List (List Char), xs.map String.ofList = ls ↔ xs = ls.map String.toList := by
    intro xs
    constructor
    · rintro rfl
      simp
    · rintro rfl
      simp
  have htext : (unlines ls).toList = ['\n'].intercalate (ls.map String.toList) :=
    String.toList_intercalate
  rw [lines, hmap, htext, splitLines_intercalate_eq_iff, List.forall_mem_map,
    ← List.map_dropLast, List.forall_mem_map, List.getLast?_map]
  have hlast : ls.getLast?.map String.toList = some [] ↔ ls.getLast? = some "" := by
    rw [Option.map_eq_some_iff]
    constructor
    · rintro ⟨l, hl, hempty⟩
      rw [hl, String.toList_eq_nil_iff.mp hempty]
    · exact fun h => ⟨"", h, rfl⟩
  rw [ne_eq, hlast]
  exact ⟨fun ⟨hunbroken, hends, hnonempty⟩ => ⟨hunbroken, hends, hnonempty⟩,
    fun h => ⟨h.unbroken, h.ends, h.last⟩⟩

/-- **Lines that a text keeps apart are read again.** -/
theorem lines_unlines {ls : List String} (h : Separable ls) : lines (unlines ls) = ls :=
  lines_unlines_iff.mpr h.legible

end Text

/-- The value of an attribute that stands for a text: it is no set, and strings in a list
    are lines that a text keeps apart. -/
def Value.Recitable (v : Value) : Prop :=
  v.kindName ≠ "set" ∧ ∀ ls : List String, v = .list (ls.map .string) → Text.Separable ls

namespace Catalog

/-- **A text of the catalog is read as the value that it was written for.** -/
theorem decode_encode {r : Resource} (hr : r ∈ resources) {form : TextForm}
    (hc : r.content = .text form) {v : Value} (hv : v.Recitable) {body : String}
    (hbody : form.encode v = .ok body) : form.decode body = v := by
  simp only [resources, List.mem_cons, List.not_mem_nil, or_false] at hr
  rcases hr with rfl | rfl | rfl | rfl | rfl | rfl | rfl | rfl
  case inr.inl =>
    -- a zone file is the text itself
    obtain rfl := Content.text.inj hc
    cases v with
    | string s => exact congrArg Value.string (Except.ok.inj hbody).symm
    | _ => exact nomatch hbody
  case inr.inr.inr.inl =>
    obtain rfl := Content.text.inj hc
    obtain ⟨ls, hls, rfl⟩ := Except.map_eq_ok hbody
    have helements := elements?_of_toStrings hls
    cases v with
    | list items =>
        obtain rfl := Option.some.inj helements
        show Value.list ((Text.lines (Text.unlines ls)).map .string) = _
        rw [Text.lines_unlines (hv.2 ls rfl)]
    | set items => exact absurd rfl hv.1
    | _ => exact nomatch helements
  all_goals exact nomatch hc

end Catalog

end TrafficConfig
