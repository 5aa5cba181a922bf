import Mathlib.Data.List.TakeDrop
import Mathlib.Data.List.TakeWhile
import TrafficConfig.Proofs.Escapes

/-!
# Directories

A URL may end in a slash and a segment that stands for itself: of plain characters and escapes,
and no dot segment (**`Url.Stands`**). Each step of reading a URL leaves such an end alone, and
what it makes of the rest does not depend on it:

* **`Url.scheme?_append`**, **`Url.splitAuthority_append`** — the scheme and the authority are
  found before it;
* **`Url.exists_path_append`**, **`Url.exists_target_append`** — it ends the path, or the query
  where there is one, and goes with the fragment;
* **`Location.exists_parse_below`** — so a URL that goes on behind its authority locates the
  same directory with each of these ends.
-/

namespace TrafficConfig

namespace Url

/-- A segment that stands for itself at the end of a path. -/
structure Stands (segment : List Char) : Prop where
  escaped : Percent.Escaped segment
  not_dot : isDot segment = false
  not_doubleDot : isDoubleDot segment = false

/-! ## Where reading stops -/

section Stops

variable {p : Char → Bool} {x : Char}

/-- What is taken from the front ends at a stop, whatever stands behind it. -/
theorem takeWhile_stop (hx : p x = false) (before after : List Char) :
    (before ++ x :: after).takeWhile p = before.takeWhile p := by
  induction before with
  | nil => rw [List.nil_append, List.takeWhile_cons_of_neg (ne_true_of_eq_false hx)]; rfl
  | cons c before ih =>
      rw [List.cons_append, List.takeWhile_cons, List.takeWhile_cons, ih]

/-- Dropping from the front ends at a stop, whatever stands behind it. -/
theorem dropWhile_stop (hx : p x = false) (before after : List Char) :
    (before ++ x :: after).dropWhile p = before.dropWhile p ++ x :: after := by
  induction before with
  | nil => rw [List.nil_append, List.dropWhile_cons_of_neg (ne_true_of_eq_false hx)]; rfl
  | cons c before ih =>
      rw [List.cons_append, List.dropWhile_cons, List.dropWhile_cons, ih]
      split
      · rfl
      · rfl

/-- A stop is not passed when a text is split, whatever stands behind it. -/
theorem span_stop (hx : p x = false) (before after : List Char) :
    (before ++ x :: after).span p = ((before.span p).1, (before.span p).2 ++ x :: after) := by
  rw [List.span_eq_takeWhile_dropWhile, List.span_eq_takeWhile_dropWhile, takeWhile_stop hx,
    dropWhile_stop hx]

/-- What stops the reading is not dropped. -/
theorem mem_dropWhile_iff (hx : p x = false) (cs : List Char) : x ∈ cs.dropWhile p ↔ x ∈ cs := by
  induction cs with
  | nil => rfl
  | cons c cs ih =>
      rw [List.dropWhile_cons]
      split
      next hc =>
        have hne : x ≠ c := by
          rintro rfl
          exact Bool.false_ne_true (hx.symm.trans hc)
        rw [ih, List.mem_cons, or_iff_right hne]
      next => rfl

variable {cs : List Char}

/-- Where nothing stops, all is taken. -/
theorem span_all (hcs : ∀ c ∈ cs, p c = true) : cs.span p = (cs, []) := by
  rw [List.span_eq_takeWhile_dropWhile, List.takeWhile_eq_self_iff.mpr hcs,
    List.dropWhile_eq_nil_iff.mpr hcs]

/-- A text is split at the first stop. -/
theorem span_cut (hcs : ∀ c ∈ cs, p c = true) (hx : p x = false) (after : List Char) :
    (cs ++ x :: after).span p = (cs, x :: after) := by
  rw [span_stop hx, span_all hcs, List.nil_append]

/-- Reading stops nowhere, or somewhere for the first time. -/
theorem all_or_cut (p : Char → Bool) (cs : List Char) : (∀ c ∈ cs, p c = true) ∨
    ∃ before x after, cs = before ++ x :: after ∧ (∀ c ∈ before, p c = true) ∧ p x = false := by
  induction cs with
  | nil => exact .inl fun _ h => absurd h List.not_mem_nil
  | cons c cs ih =>
      cases hc : p c with
      | false => exact .inr ⟨[], c, cs, rfl, fun _ h => absurd h List.not_mem_nil, hc⟩
      | true =>
          rcases ih with hall | ⟨before, x, after, rfl, hbefore, hx⟩
          · exact .inl (List.forall_mem_cons.mpr ⟨hc, hall⟩)
          · exact .inr ⟨c :: before, x, after, rfl, List.forall_mem_cons.mpr ⟨hc, hbefore⟩, hx⟩

end Stops

/-! ## The front of a URL -/

/-- A character that does not count at the ends of a URL. -/
def isMargin (c : Char) : Bool := c.toNat ≤ 0x20

/-- A character that counts inside of a URL. -/
def counts (c : Char) : Bool := c ≠ '\t' && c ≠ '\n' && c ≠ '\r'

theorem significant_eq (text : String) :
    significant text =
      ((text.toList.dropWhile isMargin).reverse.dropWhile isMargin).reverse.filter counts := rfl

/-- The significant characters of a front that something follows. -/
def opening (cs : List Char) : List Char := (cs.dropWhile isMargin).filter counts

section Visible

variable {x : Char} (hx : 0x20 < x.toNat)
include hx

/-- A visible character is no margin. -/
theorem isMargin_of_visible : isMargin x = false := decide_eq_false (Nat.not_le.mpr hx)

/-- A visible character counts. -/
theorem counts_of_visible : counts x = true := by
  simp only [counts, Bool.and_eq_true, decide_eq_true_eq]
  refine ⟨⟨?_, ?_⟩, ?_⟩ <;> rintro rfl <;> exact absurd hx (by decide)

/-- A visible character stays in the opening of an address. -/
theorem mem_opening_iff (cs : List Char) : x ∈ opening cs ↔ x ∈ cs := by
  rw [opening, List.mem_filter, mem_dropWhile_iff (isMargin_of_visible hx),
    and_iff_left (counts_of_visible hx)]

/-- From a visible character on the front is taken as it stands, line ends apart. -/
theorem opening_append (before after : List Char) :
    opening (before ++ x :: after) = opening before ++ x :: after.filter counts := by
  rw [opening, dropWhile_stop (isMargin_of_visible hx), List.filter_append,
    List.filter_cons_of_pos (counts_of_visible hx), ← opening]

end Visible

/-- Nothing at the end of a URL is lost when this is an escaped name. -/
theorem significant_append {segment : List Char} (h : Percent.Escaped segment)
    (before : List Char) :
    significant (String.ofList (before ++ '/' :: segment)) =
      opening before ++ '/' :: segment := by
  have hback : segment.reverse.dropWhile isMargin = segment.reverse := by
    cases hrev : segment.reverse with
    | nil => rfl
    | cons last others =>
        have hlast : last ∈ segment := List.mem_reverse.mp (hrev ▸ List.mem_cons_self)
        exact List.dropWhile_cons_of_neg
          (ne_true_of_eq_false (isMargin_of_visible (h.visible hlast).1))
  have hkept : segment.filter counts = segment :=
    List.filter_eq_self.mpr fun c hc => counts_of_visible (h.visible hc).1
  rw [significant_eq, String.toList_ofList, dropWhile_stop rfl, List.reverse_append,
    List.reverse_cons, List.append_assoc, List.singleton_append, dropWhile_stop rfl, hback,
    List.reverse_append, List.reverse_reverse, List.reverse_cons, List.reverse_reverse,
    List.append_assoc, List.singleton_append, List.filter_append,
    List.filter_cons_of_pos (by rfl), hkept, opening]

/-- The scheme of an address does not depend on what stands behind a slash. -/
theorem scheme?_append (before after : List Char) :
    scheme? (before ++ '/' :: after) =
      (scheme? before).map fun found => (found.1, found.2 ++ '/' :: after) := by
  rw [scheme?, scheme?, span_stop rfl]
  generalize before.span isSchemeChar = parts
  match parts with
  | ([], _) => rfl
  | (_ :: _, []) => rfl
  | (c :: name, d :: rest) =>
      by_cases hd : d = ':'
      · subst hd
        by_cases hc : c.isAlpha = true
        · simp only [List.cons_append, if_pos hc, Option.map_some]
        · simp only [List.cons_append, if_neg hc, Option.map_none]
      · simp only [List.cons_append]
        grind

/-! ## The authority -/

/-- The authority of an address does not depend on what stands behind a slash. -/
theorem splitAuthority_append (special : Bool) (before after : List Char) :
    splitAuthority special (before ++ '/' :: after) =
      ((splitAuthority special before).1, (splitAuthority special before).2 ++ '/' :: after) := by
  rw [splitAuthority, splitAuthority, span_stop rfl]

/-- An authority that a path follows is judged without this path. -/
theorem checkFront_append (special : Bool) (before after : List Char) :
    checkFront special (before ++ '/' :: after) =
      checkAuthority special true (splitAuthority special before).1 := by
  have hfollowed : (!((splitAuthority special before).2 ++ '/' :: after).isEmpty) = true := by
    cases (splitAuthority special before).2 <;> rfl
  rw [checkFront, splitAuthority_append]
  show checkAuthority special (!((splitAuthority special before).2 ++ '/' :: after).isEmpty) _ = _
  rw [hfollowed]

/-- The host of a file ends before its path. -/
theorem checkFile_append (a b : Char) (before after : List Char) :
    checkFile (a :: b :: before ++ '/' :: after) = checkFile (a :: b :: before) := by
  show checkFile (a :: b :: (before ++ '/' :: after)) = _
  rw [checkFile, checkFile, takeWhile_stop rfl]

/-! ## The target -/

/-- The last segment of a path stays when the others are cleared. -/
theorem exists_clear_append (segments done : List (List Char)) :
    ∃ front, ∀ segment, isDot segment = false → isDoubleDot segment = false →
      clear done (segments ++ [segment]) = front ++ [segment] := by
  induction segments generalizing done with
  | nil =>
      refine ⟨done.reverse, ?_⟩
      intro segment hdot hdouble
      rw [List.nil_append, clear, hdouble, hdot]
      exact List.reverse_cons
  | cons first rest ih =>
      have hmore {segment : List Char} : (rest ++ [segment]).isEmpty = false := by
        cases rest <;> rfl
      by_cases hdouble : isDoubleDot first = true
      · obtain ⟨front, hfront⟩ := ih (done.drop 1)
        refine ⟨front, fun segment hdot' hdouble' => ?_⟩
        rw [List.cons_append, clear, if_pos hdouble, hmore, if_neg Bool.false_ne_true]
        exact hfront segment hdot' hdouble'
      by_cases hdot : isDot first = true
      · obtain ⟨front, hfront⟩ := ih done
        refine ⟨front, fun segment hdot' hdouble' => ?_⟩
        rw [List.cons_append, clear, if_neg hdouble, if_pos hdot, hmore, if_neg Bool.false_ne_true]
        exact hfront segment hdot' hdouble'
      · obtain ⟨front, hfront⟩ := ih (first :: done)
        refine ⟨front, fun segment hdot' hdouble' => ?_⟩
        rw [List.cons_append, clear, if_neg hdouble, if_neg hdot]
        exact hfront segment hdot' hdouble'

/-- The segments of a path before dots are cleared. -/
def segments (cs : List Char) : List (List Char) :=
  let slashed := cs.map fun c => if c = '\\' then '/' else c
  ((if slashed.head? = some '/' then slashed.drop 1 else slashed).splitOn '/').map
    Percent.encodePath

theorem path_eq (cs : List Char) :
    path cs = (clear [] (segments cs)).flatMap fun segment => '/' :: segment := rfl

/-- An escaped last segment stays as it is, and the earlier ones do not depend on it. -/
theorem exists_segments_append (before : List Char) :
    ∃ earlier, ∀ segment, Percent.Escaped segment →
      segments (before ++ '/' :: segment) = earlier ++ [segment] := by
  have hslashed {segment : List Char} (h : Percent.Escaped segment) :
      (before ++ '/' :: segment).map (fun c => if c = '\\' then '/' else c) =
        before.map (fun c => if c = '\\' then '/' else c) ++ '/' :: segment := by
    have hsegment : segment.map (fun c => if c = '\\' then '/' else c) = segment := by
      refine (List.map_congr_left ?_).trans (List.map_id segment)
      exact fun c hc => if_neg (ne_of_mem_of_not_mem hc (h.not_mem rfl (by decide)))
    rw [List.map_append, List.map_cons, hsegment]
    rfl
  -- The first slash begins the path. It stands in the front, unless this is empty.
  cases hbefore : before.map fun c => if c = '\\' then '/' else c with
  | nil =>
      refine ⟨[], ?_⟩
      intro segment h
      have hslash : '/' ∉ segment := h.not_mem rfl (by decide)
      simp only [segments]
      rw [hslashed h, hbefore, List.nil_append, List.head?_cons, if_pos rfl, List.drop_one,
        List.tail_cons, List.splitOn_eq_singleton hslash, List.map_singleton,
        h.encodePath_eq_self, List.nil_append]
  | cons first others =>
      refine ⟨((if first = '/' then others else first :: others).splitOn '/').map
        Percent.encodePath, ?_⟩
      intro segment h
      have hslash : '/' ∉ segment := h.not_mem rfl (by decide)
      have hfirst : (if (first :: others ++ '/' :: segment).head? = some '/' then
          (first :: others ++ '/' :: segment).drop 1 else first :: others ++ '/' :: segment) =
            (if first = '/' then others else first :: others) ++ '/' :: segment := by
        rw [List.cons_append, List.head?_cons]
        by_cases hf : first = '/'
        · rw [if_pos hf, if_pos (congrArg some hf)]
          rfl
        · rw [if_neg hf, if_neg (fun h => hf (Option.some.inj h))]
          rfl
      simp only [segments]
      rw [hslashed h, hbefore, hfirst, List.splitOn_append_cons_self,
        List.splitOn_eq_singleton hslash, List.map_append, List.map_singleton,
        h.encodePath_eq_self]

/-- A last segment that stands stays at the end of the path, and the front does not depend on it.
-/
theorem exists_path_append (before : List Char) :
    ∃ front, ∀ segment, Stands segment →
      path (before ++ '/' :: segment) = front ++ '/' :: segment := by
  obtain ⟨earlier, hsegments⟩ := exists_segments_append before
  obtain ⟨front, hclear⟩ := exists_clear_append earlier []
  refine ⟨front.flatMap fun segment => '/' :: segment, ?_⟩
  intro segment h
  rw [path_eq, hsegments segment h.escaped, hclear segment h.not_dot h.not_doubleDot,
    List.flatMap_append, List.flatMap_singleton]

/-- A query ends in what it goes on with, unless a fragment comes before. -/
theorem exists_query_append (before : List Char) :
    ∃ front, ∀ segment, Percent.Escaped segment →
      query ('?' :: (before ++ '/' :: segment)) =
        front ++ if '#' ∈ before then [] else '/' :: segment := by
  by_cases hmark : '#' ∈ before
  · obtain ⟨asked, fragment, rfl⟩ := List.append_of_mem hmark
    refine ⟨'?' :: Percent.encodeQuery (asked.takeWhile (· ≠ '#')), ?_⟩
    intro segment _
    rw [if_pos hmark, List.append_nil, query, List.append_assoc, List.cons_append,
      takeWhile_stop (by rfl)]
  · refine ⟨'?' :: Percent.encodeQuery before, ?_⟩
    intro segment h
    have hall : ∀ c ∈ before ++ '/' :: segment, decide (c ≠ '#') = true := by
      refine List.forall_mem_append.mpr ⟨?_, List.forall_mem_cons.mpr ⟨rfl, ?_⟩⟩
      · exact fun c hc => decide_eq_true (ne_of_mem_of_not_mem hc hmark)
      · exact fun c hc => decide_eq_true (ne_of_mem_of_not_mem hc (h.not_mem rfl (by decide)))
    rw [if_neg hmark, query, List.takeWhile_eq_self_iff.mpr hall, h.encodeQuery_append,
      List.cons_append]

/-- What is asked for ends in the last segment, unless a fragment comes before. -/
theorem exists_target_append (before : List Char) :
    ∃ front, ∀ segment, Stands segment →
      target (before ++ '/' :: segment) =
        String.ofList (front ++ if '#' ∈ before then [] else '/' :: segment) := by
  obtain hall | ⟨way, x, after, rfl, hway, hx⟩ := all_or_cut (fun c => c ≠ '?' && c ≠ '#') before
  · -- It is all path.
    have hmark : '#' ∉ before := fun hmark => absurd (hall '#' hmark) (by decide)
    obtain ⟨front, hpath⟩ := exists_path_append before
    refine ⟨front, ?_⟩
    intro segment h
    have hsegment : ∀ c ∈ before ++ '/' :: segment, (c ≠ '?' && c ≠ '#') = true := by
      refine List.forall_mem_append.mpr ⟨hall, List.forall_mem_cons.mpr ⟨rfl, fun c hc => ?_⟩⟩
      have hask : c ≠ '?' := ne_of_mem_of_not_mem hc (h.escaped.not_mem rfl (by decide))
      have hmark : c ≠ '#' := ne_of_mem_of_not_mem hc (h.escaped.not_mem rfl (by decide))
      exact Bool.and_eq_true_iff.mpr ⟨decide_eq_true hask, decide_eq_true hmark⟩
    rw [target, span_all hsegment, if_neg hmark]
    show String.ofList (path _ ++ []) = _
    rw [hpath segment h, List.append_nil]
  · have hnone : '#' ∉ way := fun hmark => absurd (hway '#' hmark) (by decide)
    have htarget (segment : List Char) : target (way ++ x :: after ++ '/' :: segment) =
        String.ofList (path way ++ query (x :: (after ++ '/' :: segment))) := by
      rw [target, List.append_assoc, List.cons_append, span_cut hway hx]
    by_cases hquestion : x = '?'
    · subst hquestion
      obtain ⟨front, hquery⟩ := exists_query_append after
      have hmark : '#' ∈ way ++ '?' :: after ↔ '#' ∈ after := by
        rw [List.mem_append, or_iff_right hnone, List.mem_cons, or_iff_right (by decide)]
      refine ⟨path way ++ front, ?_⟩
      intro segment h
      rw [htarget, hquery segment h.escaped, List.append_assoc]
      simp only [hmark]
    · have hnumber : x = '#' := by simpa [hquestion] using hx
      subst hnumber
      refine ⟨path way, ?_⟩
      intro segment _
      rw [htarget, if_pos (List.mem_append_right way List.mem_cons_self)]
      rfl

end Url

/-! ## Locations -/

namespace Location

/-- What the characters behind the slashes of a scheme locate. -/
def onServer (scheme : String) (cs : List Char) : Except UrlFault Location := do
  Url.checkFront true cs
  return if scheme = "http" || scheme = "https" then
    .web (Url.target (Url.splitAuthority true cs).2) else .other scheme

/-- What is located where the scheme has no rules of its own. -/
def unruled (scheme : String) : List Char → Except UrlFault Location
  | '/' :: '/' :: cs => do
    Url.checkFront false cs
    return .other scheme
  | _ => .ok (.other scheme)

/-- What the characters behind a scheme locate. -/
def behind (scheme : String) (cs : List Char) : Except UrlFault Location :=
  if scheme = "file" then do
    Url.checkFile cs
    return .other scheme
  else if ["http", "https", "ws", "wss", "ftp"].contains scheme then
    onServer scheme (cs.dropWhile Url.isSlash)
  else unruled scheme cs

theorem parse_eq (text : String) :
    parse text = match Url.scheme? (Url.significant text) with
      | none => .error .relative
      | some (scheme, cs) => behind scheme cs := rfl

/-- What is located further down, by what is asked for in addition. -/
def below (rest : List Char) : Location → Location
  | .web target => .web (target ++ String.ofList rest)
  | .other scheme => .other scheme

/-- A fragment begins behind the scheme, if at all. -/
theorem mem_of_scheme? {cs rest : List Char} {scheme : String}
    (h : Url.scheme? cs = some (scheme, rest)) : '#' ∈ rest ↔ '#' ∈ cs := by
  rw [Url.scheme?, List.span_eq_takeWhile_dropWhile] at h
  split at h
  case h_1 c name rest' hspan =>
      obtain ⟨-, hdrop⟩ := Prod.mk.inj hspan
      split at h
      case isTrue =>
          obtain ⟨-, rfl⟩ := Prod.mk.inj (Option.some.inj h)
          rw [← Url.mem_dropWhile_iff (p := Url.isSchemeChar) rfl cs, hdrop, List.mem_cons,
            or_iff_right (by decide)]
      case isFalse => exact nomatch h
  case h_2 => exact nomatch h

/-- On a server, what stands behind the last slash is put below a location that does not depend on
it. -/
theorem exists_onServer_below (scheme : String) (site : List Char) :
    ∃ base : Except UrlFault Location, ∀ segment, Url.Stands segment →
      onServer scheme (site ++ '/' :: segment) =
        base.map (below (if '#' ∈ site then [] else '/' :: segment)) := by
  obtain ⟨directory, htarget⟩ := Url.exists_target_append (Url.splitAuthority true site).2
  refine ⟨(Url.checkAuthority true true (Url.splitAuthority true site).1).map fun _ =>
    if scheme = "http" || scheme = "https" then .web (String.ofList directory)
    else .other scheme, ?_⟩
  intro segment h
  have hmark : '#' ∈ (Url.splitAuthority true site).2 ↔ '#' ∈ site := by
    rw [Url.splitAuthority, List.span_eq_takeWhile_dropWhile, Url.mem_dropWhile_iff rfl]
  rw [onServer, Url.checkFront_append, Url.splitAuthority_append, htarget segment h]
  simp only [hmark, String.ofList_append]
  by_cases hweb : (scheme = "http" || scheme = "https") = true
  · simp only [if_pos hweb]
    cases Url.checkAuthority true true (Url.splitAuthority true site).1 <;> rfl
  · simp only [if_neg hweb]
    cases Url.checkAuthority true true (Url.splitAuthority true site).1 <;> rfl

/-- Without rules for the scheme, the location does not depend on what stands behind the last
slash. -/
theorem exists_unruled_below (scheme : String) (a b : Char) (way : List Char) :
    ∃ base : Except UrlFault Location, ∀ segment rest,
      unruled scheme (a :: b :: way ++ '/' :: segment) = base.map (below rest) := by
  by_cases hslashes : a = '/' ∧ b = '/'
  · obtain ⟨rfl, rfl⟩ := hslashes
    refine ⟨(Url.checkAuthority false true (Url.splitAuthority false way).1).map fun _ =>
      .other scheme, ?_⟩
    intro segment rest
    rw [List.cons_append, List.cons_append, unruled, Url.checkFront_append]
    cases Url.checkAuthority false true (Url.splitAuthority false way).1 <;> rfl
  · refine ⟨.ok (.other scheme), ?_⟩
    intro segment rest
    rw [List.cons_append, List.cons_append, unruled]
    · rfl
    · intro cs hcs
      obtain ⟨ha, hb⟩ := List.cons.inj hcs
      exact hslashes ⟨ha, (List.cons.inj hb).1⟩

/-- What stands behind a scheme is read up to its last segment, which goes on with what is asked
for. -/
theorem exists_behind_below {x : Char} (hx : Url.isSlash x = false) (scheme : String)
    (front after : List Char) :
    ∃ base : Except UrlFault Location, ∀ segment, Url.Stands segment →
      behind scheme (front ++ '/' :: x :: after ++ '/' :: segment) =
        base.map (below (if '#' ∈ front ++ '/' :: x :: after then [] else '/' :: segment)) := by
  obtain ⟨a, b, way, hway⟩ : ∃ a b way, front ++ '/' :: x :: after = a :: b :: way := by
    match front with
    | [] => exact ⟨_, _, _, rfl⟩
    | [c] => exact ⟨_, _, _, rfl⟩
    | c :: d :: front => exact ⟨_, _, _, rfl⟩
  by_cases hfile : scheme = "file"
  · refine ⟨(Url.checkFile (a :: b :: way)).map fun _ => .other scheme, ?_⟩
    intro segment _
    rw [behind, if_pos hfile, hway, Url.checkFile_append]
    cases Url.checkFile (a :: b :: way) <;> rfl
  by_cases hspecial : ["http", "https", "ws", "wss", "ftp"].contains scheme = true
  · -- The slashes behind the scheme end before the character that is none.
    have hslashes (rest : List Char) : (front ++ '/' :: x :: rest).dropWhile Url.isSlash =
        (front ++ ['/']).dropWhile Url.isSlash ++ x :: rest := by
      rw [← Url.dropWhile_stop hx, List.append_assoc, List.singleton_append]
    obtain ⟨base, hbase⟩ := exists_onServer_below scheme
      ((front ++ ['/']).dropWhile Url.isSlash ++ x :: after)
    have hmark : '#' ∈ (front ++ ['/']).dropWhile Url.isSlash ++ x :: after ↔
        '#' ∈ front ++ '/' :: x :: after := by
      rw [← hslashes, Url.mem_dropWhile_iff rfl]
    refine ⟨base, ?_⟩
    intro segment h
    rw [behind, if_neg hfile, if_pos hspecial, List.append_assoc, List.cons_append,
      List.cons_append, hslashes]
    simpa only [List.append_assoc, List.cons_append, hmark] using hbase segment h
  · obtain ⟨base, hbase⟩ := exists_unruled_below scheme a b way
    refine ⟨base, ?_⟩
    intro segment _
    rw [behind, if_neg hfile, if_neg hspecial, hway]
    exact hbase segment _

/-- Behind an address with a visible character, the location of an object lies below one that all
objects have in common. -/
theorem exists_parse_below {x : Char} (hx : Url.isSlash x = false) (hvisible : 0x20 < x.toNat)
    (front after : List Char) :
    ∃ base : Except UrlFault Location, ∀ segment, Url.Stands segment →
      parse (String.ofList (front ++ '/' :: x :: after ++ '/' :: segment)) =
        base.map (below (if '#' ∈ front ++ '/' :: x :: after then [] else '/' :: segment)) := by
  have hopening : Url.opening (front ++ '/' :: x :: after) =
      Url.opening front ++ '/' :: x :: after.filter Url.counts := by
    rw [Url.opening_append (by decide), List.filter_cons_of_pos (Url.counts_of_visible hvisible)]
  have hscheme := Url.scheme?_append (Url.opening front) (x :: after.filter Url.counts)
  have hparse (segment : List Char) (h : Url.Stands segment) :
      parse (String.ofList (front ++ '/' :: x :: after ++ '/' :: segment)) =
        match (Url.scheme? (Url.opening front)).map fun found =>
          (found.1, found.2 ++ '/' :: x :: after.filter Url.counts ++ '/' :: segment) with
        | none => .error .relative
        | some (scheme, cs) => behind scheme cs := by
    rw [parse_eq, Url.significant_append h.escaped, hopening, List.append_assoc, List.cons_append,
      Url.scheme?_append]
    simp only [List.append_assoc, List.cons_append]
  cases hfound : Url.scheme? (Url.opening front) with
  | none =>
      refine ⟨.error .relative, fun segment h => ?_⟩
      rw [hparse segment h, hfound]
      rfl
  | some found =>
      obtain ⟨scheme, rest⟩ := found
      obtain ⟨base, hbase⟩ := exists_behind_below hx scheme rest (after.filter Url.counts)
      have hmark : '#' ∈ rest ++ '/' :: x :: after.filter Url.counts ↔
          '#' ∈ front ++ '/' :: x :: after := by
        rw [hfound] at hscheme
        rw [mem_of_scheme? hscheme, ← hopening, Url.mem_opening_iff (by decide)]
      refine ⟨base, fun segment h => ?_⟩
      have hbehind := hbase segment h
      simp only [hmark] at hbehind
      rw [hparse segment h, hfound]
      exact hbehind

end Location

end TrafficConfig
