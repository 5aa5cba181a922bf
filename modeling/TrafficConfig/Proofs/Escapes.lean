import Mathlib.Data.List.Basic
import TrafficConfig.Url

/-!
# Escaped names

A name is written as one segment of a path, byte by byte:

* **`Percent.Escaped`** — text of characters that need no escape, and of escapes of bytes. An
  encoded name is such a text (**`Percent.escaped_encodeName`**), so that no character in it
  separates anything;
* **`Percent.decode_encodeName`** — its bytes are those of the name. So a name is read again
  from its encoding (**`Percent.ofUtf8?_decode_encodeName`**), and no two names have the same
  one (**`Percent.encodeName_injective`**);
* **`Percent.isDot_encodeName`**, **`Percent.isDoubleDot_encodeName`** — which encoded names
  are dot segments.
-/

namespace TrafficConfig

/-! ## Bytes of a text -/

namespace Text

/-- A text is read again from its bytes. -/
theorem ofUtf8?_utf8 (s : String) : ofUtf8? (utf8 s) = some s := by
  have hbytes : (⟨(utf8 s).toArray⟩ : ByteArray) = s.toByteArray := by
    have h : s.toByteArray = s.toList.utf8Encode := by
      rw [← String.toByteArray_ofList, String.ofList_toList]
    refine ByteArray.ext ?_
    rw [h, List.utf8Encode, List.data_toByteArray, utf8]
  rw [ofUtf8?, hbytes]
  exact dif_pos s.isValidUTF8

/-- Different texts have different bytes. -/
theorem utf8_injective : Function.Injective utf8 := by
  intro s t h
  have hread := ofUtf8?_utf8 s
  rw [h, ofUtf8?_utf8 t] at hread
  exact (Option.some.inj hread).symm

/-- The bytes of two texts stand one behind the other. -/
theorem utf8_append (s t : String) : utf8 (s ++ t) = utf8 s ++ utf8 t := by
  rw [utf8, String.toList_append, List.flatMap_append]
  rfl

end Text

namespace Percent

/-- A character that is written as it is. -/
def isPlain (c : Char) : Bool := c.isAlphanum || ['-', '_', '.', '~'].contains c

/-- Text of plain characters and escapes. -/
inductive Escaped : List Char → Prop
  | nil : Escaped []
  | plain {c : Char} {cs : List Char} (hc : isPlain c = true) (h : Escaped cs) :
      Escaped (c :: cs)
  | escape (b : UInt8) {cs : List Char} (h : Escaped cs) : Escaped (escape b ++ cs)

/-! ## One byte -/

private theorem forall_byte {p : UInt8 → Prop} (h : ∀ n < 256, p (UInt8.ofNat n)) : ∀ b, p b := by
  intro b
  have hb := h b.toNat b.toNat_lt
  rwa [UInt8.ofNat_toNat] at hb

private theorem unreserved_facts : ∀ b : UInt8, isUnreserved b = true →
    isPlain (Char.ofNat b.toNat) = true ∧ Char.ofNat b.toNat ≠ '%' ∧
      String.utf8EncodeChar (Char.ofNat b.toNat) = [b] :=
  forall_byte (by decide +kernel)

private theorem escape_digits : ∀ b : UInt8,
    (isPlain (Text.hexDigit (b.toNat / 16)).toUpper = true ∧
      Text.hexValue? (Text.hexDigit (b.toNat / 16)).toUpper = some (b.toNat / 16)) ∧
    (isPlain (Text.hexDigit b.toNat).toUpper = true ∧
      Text.hexValue? (Text.hexDigit b.toNat).toUpper = some (b.toNat % 16)) :=
  forall_byte (by decide +kernel)

/-- A character that begins no escape stands for itself. -/
theorem decode_cons_of_ne {c : Char} (hc : c ≠ '%') (rest : List Char) :
    decode (c :: rest) = String.utf8EncodeChar c ++ decode rest := by
  match rest with
  | [] => rw [decode, decode, List.append_nil]
  | [d] => rw [decode, decode]
  | a :: b :: rest =>
      rw [decode]
      intro _ _ h
      exact absurd h hc

/-- An escape is decoded to its byte. -/
theorem decode_escape (b : UInt8) (rest : List Char) :
    decode (escape b ++ rest) = b :: decode rest := by
  obtain ⟨⟨-, hhigh⟩, -, hlow⟩ := escape_digits b
  have hbyte : 16 * (b.toNat / 16) + b.toNat % 16 = b.toNat := by omega
  rw [escape, List.cons_append, List.cons_append, List.cons_append, List.nil_append]
  simp only [decode, hhigh, hlow, hbyte, UInt8.ofNat_toNat]

/-! ## Names -/

/-- What was encoded is decoded again. -/
theorem decode_encodeBytes (bytes : List UInt8) (rest : List Char) :
    decode (encodeBytes isUnreserved bytes ++ rest) = bytes ++ decode rest := by
  induction bytes with
  | nil => rfl
  | cons b bytes ih =>
      rw [encodeBytes, List.flatMap_cons, List.append_assoc]
      show decode (_ ++ (encodeBytes isUnreserved bytes ++ rest)) = _
      by_cases hb : isUnreserved b = true
      · obtain ⟨-, hne, hbyte⟩ := unreserved_facts b hb
        rw [if_pos hb]
        show decode (_ :: (encodeBytes isUnreserved bytes ++ rest)) = _
        rw [decode_cons_of_ne hne, hbyte, ih]
        rfl
      · rw [if_neg hb, decode_escape, ih]
        rfl

/-- **The bytes of an encoded name are those of the name.** -/
theorem decode_encodeName (name : String) :
    decode (encodeName name).toList = Text.utf8 name := by
  have h := decode_encodeBytes (Text.utf8 name) []
  rw [List.append_nil, decode, List.append_nil] at h
  rw [encodeName, String.toList_ofList, h]

/-- **A name is read again from its encoding.** -/
theorem ofUtf8?_decode_encodeName (name : String) :
    Text.ofUtf8? (decode (encodeName name).toList) = some name := by
  rw [decode_encodeName, Text.ofUtf8?_utf8]

example : encodeName "a/b c" = "a%2Fb%20c" := by rfl

/-- Different names have different encodings. -/
theorem encodeName_injective : Function.Injective encodeName := by
  intro name other h
  refine Text.utf8_injective ?_
  rw [← decode_encodeName, h, decode_encodeName]

/-- **An encoded name holds plain characters and escapes only.** -/
theorem escaped_encodeName (name : String) : Escaped (encodeName name).toList := by
  rw [encodeName, String.toList_ofList]
  induction Text.utf8 name with
  | nil => exact .nil
  | cons b bytes ih =>
      rw [encodeBytes, List.flatMap_cons]
      by_cases hb : isUnreserved b = true
      · rw [if_pos hb]
        exact .plain (unreserved_facts b hb).1 ih
      · rw [if_neg hb]
        exact .escape b ih

/-! ## Characters -/

/-- Plain characters are visible characters of ASCII. -/
theorem toNat_of_isPlain {c : Char} (h : isPlain c = true) : 0x20 < c.toNat ∧ c.toNat < 0x7F := by
  delta isPlain Char.isAlphanum Char.isAlpha Char.isUpper Char.isLower Char.isDigit at h
  simp only [Bool.or_eq_true, Bool.and_eq_true, decide_eq_true_eq, UInt32.le_iff_toNat_le,
    List.contains_iff_mem, List.mem_cons, List.not_mem_nil, or_false] at h
  have hrange {low high : Char} (hlow : 0x20 < low.toNat) (hhigh : high.toNat < 0x7F)
      (hc : low.toNat ≤ c.toNat ∧ c.toNat ≤ high.toNat) : 0x20 < c.toNat ∧ c.toNat < 0x7F :=
    ⟨Nat.lt_of_lt_of_le hlow hc.1, Nat.lt_of_le_of_lt hc.2 hhigh⟩
  rcases h with ((h | h) | h) | rfl | rfl | rfl | rfl
  · exact hrange (by decide) (by decide) h
  · exact hrange (by decide) (by decide) h
  · exact hrange (by decide) (by decide) h
  all_goals decide

/-- What an encoding keeps stays at the end. -/
theorem encodeBytes_append_of_kept {keep : UInt8 → Bool} {cs : List Char}
    (hkept : ∀ c ∈ cs, encodeBytes keep (String.utf8EncodeChar c) = [c]) (before : List Char) :
    encodeBytes keep (Text.utf8 (String.ofList (before ++ cs))) =
      encodeBytes keep (Text.utf8 (String.ofList before)) ++ cs := by
  have hcs : encodeBytes keep (cs.flatMap String.utf8EncodeChar) = cs := by
    rw [encodeBytes, List.flatMap_assoc]
    exact (List.flatMap_congr hkept).trans (List.flatMap_singleton' cs)
  calc encodeBytes keep (Text.utf8 (String.ofList (before ++ cs)))
      = encodeBytes keep (Text.utf8 (String.ofList before) ++ Text.utf8 (String.ofList cs)) := by
        rw [String.ofList_append, Text.utf8_append]
    _ = encodeBytes keep (Text.utf8 (String.ofList before)) ++
          encodeBytes keep (Text.utf8 (String.ofList cs)) := List.flatMap_append
    _ = encodeBytes keep (Text.utf8 (String.ofList before)) ++ cs := by
        rw [Text.utf8.eq_def (String.ofList cs), String.toList_ofList, hcs]

namespace Escaped

variable {cs : List Char}

/-- An escaped text has plain characters and percent signs only. -/
theorem plain_or_percent (h : Escaped cs) : ∀ c ∈ cs, isPlain c = true ∨ c = '%' := by
  induction h with
  | nil => exact fun _ hc => absurd hc List.not_mem_nil
  | plain hc _ ih => exact List.forall_mem_cons.mpr ⟨.inl hc, ih⟩
  | escape b _ ih =>
      obtain ⟨⟨hhigh, -⟩, hlow, -⟩ := escape_digits b
      refine List.forall_mem_append.mpr ⟨?_, ih⟩
      intro c hc
      rcases List.mem_cons.mp hc with rfl | hc
      · exact .inr rfl
      rcases List.mem_cons.mp hc with rfl | hc
      · exact .inl hhigh
      · rw [List.mem_singleton.mp hc]
        exact .inl hlow

/-- No other character stands in such a text. -/
theorem not_mem (h : Escaped cs) {c : Char} (hplain : isPlain c = false) (hpercent : c ≠ '%') :
    c ∉ cs := by
  intro hc
  rcases h.plain_or_percent c hc with hc | hc
  · exact Bool.false_ne_true (hplain.symm.trans hc)
  · exact hpercent hc

/-- The characters of an escaped text are visible ones of ASCII. -/
theorem visible (h : Escaped cs) {c : Char} (hc : c ∈ cs) : 0x20 < c.toNat ∧ c.toNat < 0x7F := by
  rcases h.plain_or_percent c hc with hc | rfl
  · exact toNat_of_isPlain hc
  · decide

/-- An encoding that keeps the plain characters and the percent sign keeps such a text. -/
theorem kept {keep : UInt8 → Bool}
    (hkeep : ∀ n < 0x7F, (isPlain (Char.ofNat n) = true ∨ Char.ofNat n = '%') →
      encodeBytes keep (String.utf8EncodeChar (Char.ofNat n)) = [Char.ofNat n])
    (h : Escaped cs) : ∀ c ∈ cs, encodeBytes keep (String.utf8EncodeChar c) = [c] := by
  intro c hc
  have hn := hkeep c.toNat (h.visible hc).2
  rw [Char.ofNat_toNat] at hn
  exact hn (h.plain_or_percent c hc)

/-- Such a text is a path as it stands. -/
theorem encodePath_eq_self (h : Escaped cs) : encodePath cs = cs :=
  encodeBytes_append_of_kept (h.kept (by decide +kernel)) []

/-- A query keeps such a text at its end, behind a slash. -/
theorem encodeQuery_append (h : Escaped cs) (before : List Char) :
    encodeQuery (before ++ '/' :: cs) = encodeQuery before ++ '/' :: cs :=
  encodeBytes_append_of_kept
    (List.forall_mem_cons.mpr ⟨by decide +kernel, h.kept (by decide +kernel)⟩) before

end Escaped

/-! ## Points -/

private theorem eq_or_capital {c d : Char} (h : c.toLower = d) :
    c = d ∨ 65 ≤ c.toNat ∧ c.toNat + 32 = d.toNat := by
  delta Char.toLower at h
  split at h
  case isFalse => exact .inl h
  case isTrue hc =>
      -- The capital letters are 65 to 90, and the small ones stand 32 behind them.
      have hlow : 65 ≤ c.toNat := UInt32.le_iff_toNat_le.mp hc.1
      have hhigh : c.toNat ≤ 90 := UInt32.le_iff_toNat_le.mp hc.2
      have hsum : (c.toNat + 32) % 4294967296 = d.toNat := by rw [← h]; rfl
      exact .inr ⟨hlow, by omega⟩

private theorem eq_of_toLower_eq {c d : Char} (h : c.toLower = d) (hd : d.toNat < 97) : c = d := by
  obtain heq | ⟨hlow, hsum⟩ := eq_or_capital h
  · exact heq
  · omega

private theorem decode_point {segment after : List Char}
    (h : segment.map Char.toLower = '.' :: after ∨
      segment.map Char.toLower = '%' :: '2' :: 'e' :: after) :
    ∃ rest, rest.map Char.toLower = after ∧ decode segment = 46 :: decode rest := by
  -- the byte of a point is 46, which is 0x2e
  rcases h with h | h
  · obtain ⟨c, rest, rfl, hc, hrest⟩ := List.map_eq_cons_iff.mp h
    refine ⟨rest, hrest, ?_⟩
    rw [eq_of_toLower_eq hc (by decide), decode_cons_of_ne (by decide)]
    rfl
  · obtain ⟨c, tail, rfl, hc, htail⟩ := List.map_eq_cons_iff.mp h
    obtain ⟨two, tail, rfl, htwo, htail⟩ := List.map_eq_cons_iff.mp htail
    obtain ⟨e, rest, rfl, he, hrest⟩ := List.map_eq_cons_iff.mp htail
    refine ⟨rest, hrest, ?_⟩
    have hhigh : Text.hexValue? '2' = some 2 := rfl
    have hlow : Text.hexValue? e = some 14 := by
      obtain rfl | ⟨-, hsum⟩ := eq_or_capital he
      · rfl
      · have hcapital : e = 'E' := Char.toNat_inj.mp (Nat.add_right_cancel hsum)
        rw [hcapital]
        rfl
    rw [eq_of_toLower_eq hc (by decide), eq_of_toLower_eq htwo (by decide)]
    simp only [decode, hhigh, hlow]
    rfl

/-- A segment that means its own directory is decoded to a point. -/
theorem decode_of_isDot {segment : List Char} (h : Url.isDot segment = true) :
    decode segment = Text.utf8 "." := by
  simp only [Url.isDot, List.contains_iff_mem, List.mem_cons, List.not_mem_nil, or_false] at h
  obtain ⟨rest, hrest, heq⟩ := decode_point (h.imp String.ofList_injective String.ofList_injective)
  rw [heq, List.map_eq_nil_iff.mp hrest]
  rfl

/-- A segment that means the directory above is decoded to two points. -/
theorem decode_of_isDoubleDot {segment : List Char} (h : Url.isDoubleDot segment = true) :
    decode segment = Text.utf8 ".." := by
  simp only [Url.isDoubleDot, List.contains_iff_mem, List.mem_cons, List.not_mem_nil, or_false] at h
  have hpoints : ∃ after : List Char, (after = ['.'] ∨ after = ['%', '2', 'e']) ∧
      (segment.map Char.toLower = '.' :: after ∨
        segment.map Char.toLower = '%' :: '2' :: 'e' :: after) := by
    rcases h with h | h | h | h
    · exact ⟨_, .inl rfl, .inl (String.ofList_injective h)⟩
    · exact ⟨_, .inr rfl, .inl (String.ofList_injective h)⟩
    · exact ⟨_, .inl rfl, .inr (String.ofList_injective h)⟩
    · exact ⟨_, .inr rfl, .inr (String.ofList_injective h)⟩
  obtain ⟨after, hafter, hfirst⟩ := hpoints
  obtain ⟨rest, hrest, hdecode⟩ := decode_point hfirst
  obtain ⟨rest', hrest', hdecode'⟩ := decode_point (hafter.imp hrest.trans hrest.trans)
  rw [hdecode, hdecode', List.map_eq_nil_iff.mp hrest']
  rfl

/-- **Only the name of one point is encoded to a segment that means its own directory.** -/
theorem isDot_encodeName (name : String) :
    Url.isDot (encodeName name).toList = true ↔ name = "." := by
  constructor
  · intro h
    have hbytes := decode_of_isDot h
    rw [decode_encodeName] at hbytes
    exact Text.utf8_injective hbytes
  · rintro rfl
    rfl

/-- **Only the name of two points is encoded to a segment that means the directory above.** -/
theorem isDoubleDot_encodeName (name : String) :
    Url.isDoubleDot (encodeName name).toList = true ↔ name = ".." := by
  constructor
  · intro h
    have hbytes := decode_of_isDoubleDot h
    rw [decode_encodeName] at hbytes
    exact Text.utf8_injective hbytes
  · rintro rfl
    rfl

end Percent

end TrafficConfig
