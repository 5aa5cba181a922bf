import Mathlib.Data.List.Forall2
import TrafficConfig.Api.Explanation
import TrafficConfig.Proofs.Outlines

/-!
# What explains an error

The body of an answer explains an error in one of two ways:

* it is an object in which a name and a text of the error stand exactly once, as strings. Of its
  other members the syntax alone counts, further information apart;
* it is an array of the name, the text and further information, which may be missing.

**`Explains`** says this with the grammar of documents. The main result is
**`RemoteFault.ofText?_eq_some_iff`**: the fault that is read is the one that the text explains.
-/

namespace TrafficConfig.RemoteFault

open Json.Outline

/-! ## Explanations -/

/-- A literal denotes a string. -/
def Denotes (literal : List Char) (s : String) : Prop :=
  Json.read? none (String.ofList literal) = some (.string s)

/-- A member that occurs once, as it is written behind its name. -/
structure Once (members : List (String × List Char)) (name : String) (value : List Char) : Prop
    where
  written : (name, value) ∈ members
  count : (members.map Prod.fst).count name = 1

/-- What a document tells about an error; null tells nothing. -/
inductive Tells : Json → Option Json → Prop
  | nothing : Tells .null none
  | itself {j : Json} (h : j ≠ .null) : Tells j (some j)

/-- Further information in the members of an object. -/
inductive Informs (members : List (String × List Char)) : Option Json → Prop
  | missing (h : "error_info" ∉ members.map Prod.fst) : Informs members none
  | given {value : List Char} {j : Json} {info : Option Json}
      (h : Once members "error_info" value)
      (hread : Json.read? (some (Value.nestingLimit - 1)) (String.ofList value) = some j)
      (htells : Tells j info) : Informs members info

/-- A text explains an error. -/
inductive Explains (text : String) : RemoteFault → Prop
  /-- An object with the name and the text of the error among its members. -/
  | object {before piece after : List Char} {elements : List Element}
      {members : List (String × List Char)} {idLiteral textLiteral : List Char}
      {fault : RemoteFault} (hbefore : Blank before) (hafter : Blank after)
      (htext : text.toList = before ++ '\x7b' :: (piece ++ after))
      (hpiece : Lists .curly elements piece)
      (hkeys : List.Forall₂ (fun e m => Denotes e.key m.1 ∧ e.value = m.2) elements members)
      (hid : Once members "error_id" idLiteral) (hidRead : Denotes idLiteral fault.id)
      (hmessage : Once members "error_text" textLiteral)
      (hmessageRead : Denotes textLiteral fault.text) (hinfo : Informs members fault.info) :
      Explains text fault
  /-- An array of both. -/
  | pair {before rest : List Char} {id message : String} (hbefore : Blank before)
      (htext : text.toList = before ++ '[' :: rest)
      (hread : Json.read? (some Value.nestingLimit) text =
        some (.array [.string id, .string message])) :
      Explains text ⟨id, message, none⟩
  /-- An array of both and further information. -/
  | triple {before rest : List Char} {id message : String} {j : Json} {info : Option Json}
      (hbefore : Blank before) (htext : text.toList = before ++ '[' :: rest)
      (hread : Json.read? (some Value.nestingLimit) text =
        some (.array [.string id, .string message, j])) (htells : Tells j info) :
      Explains text ⟨id, message, info⟩

/-! ## Members -/

/-- A literal is read as the string that it denotes. -/
theorem string?_eq_some_iff {literal : List Char} {s : String} :
    string? literal = some s ↔ Denotes literal s := by
  rw [string?, Denotes, Option.bind_eq_some_iff]
  constructor
  · rintro ⟨j, hread, hstring⟩
    cases j with
    | string t =>
        obtain rfl := Option.some.inj hstring
        exact hread
    | _ => exact nomatch hstring
  · intro hread
    exact ⟨_, hread, rfl⟩

/-- The keys are read one by one, and the values stay as they are written. -/
theorem named?_eq_some_iff {elements : List Element} {members : List (String × List Char)} :
    named? elements = some members ↔
      List.Forall₂ (fun e m => Denotes e.key m.1 ∧ e.value = m.2) elements members := by
  induction elements generalizing members with
  | nil =>
      rw [List.forall₂_nil_left_iff]
      exact ⟨fun h => (Option.some.inj h).symm, fun h => congrArg some h.symm⟩
  | cons e elements ih =>
      rw [named?, Option.bind_eq_some_iff, List.forall₂_cons_left_iff]
      constructor
      · rintro ⟨name, hname, hrest⟩
        obtain ⟨others, hothers, rfl⟩ := Option.map_eq_some_iff.mp hrest
        exact ⟨_, others, ⟨string?_eq_some_iff.mp hname, rfl⟩, ih.mp hothers, rfl⟩
      · rintro ⟨⟨name, value⟩, others, ⟨hname, rfl⟩, hothers, rfl⟩
        refine ⟨name, string?_eq_some_iff.mpr hname, ?_⟩
        rw [ih.mpr hothers]
        rfl

private theorem length_valuesOf (members : List (String × List Char)) (name : String) :
    (valuesOf members name).length = (members.map Prod.fst).count name := by
  rw [valuesOf, List.length_map, List.count_eq_countP, List.countP_map,
    List.countP_eq_length_filter]
  refine congrArg (fun p => (members.filter p).length) (funext fun m => ?_)
  exact (beq_eq_decide m.1 name).symm

private theorem mem_valuesOf {members : List (String × List Char)} {name : String}
    {value : List Char} : value ∈ valuesOf members name ↔ (name, value) ∈ members := by
  rw [valuesOf, List.mem_map]
  constructor
  · rintro ⟨⟨_, _⟩, hmem, rfl⟩
    obtain ⟨hwritten, hname⟩ := List.mem_filter.mp hmem
    obtain rfl : _ = name := of_decide_eq_true hname
    exact hwritten
  · intro hmem
    exact ⟨(name, value), List.mem_filter.mpr ⟨hmem, decide_eq_true rfl⟩, rfl⟩

/-- A member that occurs once has the only value of its name. -/
theorem valuesOf_eq_singleton_iff {members : List (String × List Char)} {name : String}
    {value : List Char} : valuesOf members name = [value] ↔ Once members name value := by
  constructor
  · intro h
    refine ⟨mem_valuesOf.mp (by rw [h]; exact List.mem_singleton_self value), ?_⟩
    rw [← length_valuesOf, h]
    rfl
  · rintro ⟨hwritten, hcount⟩
    obtain ⟨only, honly⟩ := List.length_eq_one_iff.mp ((length_valuesOf members name).trans hcount)
    have hmem := mem_valuesOf.mpr hwritten
    rw [honly] at hmem ⊢
    rw [List.mem_singleton.mp hmem]

/-- A name without a member has no value. -/
theorem valuesOf_eq_nil_iff {members : List (String × List Char)} {name : String} :
    valuesOf members name = [] ↔ name ∉ members.map Prod.fst := by
  rw [← List.length_eq_zero_iff, length_valuesOf, List.count_eq_zero]

/-- A document is further information unless it is null. -/
theorem infoOf_eq_iff {j : Json} {info : Option Json} : infoOf (some j) = info ↔ Tells j info := by
  constructor
  · rintro rfl
    cases j with
    | null => exact .nothing
    | _ => exact .itself (by simp)
  · intro h
    cases h with
    | nothing => rfl
    | itself hnull =>
        cases j with
        | null => exact absurd rfl hnull
        | _ => rfl

/-- Further information is what the members inform of. -/
theorem info?_eq_some_iff {members : List (String × List Char)} {info : Option Json} :
    info? (valuesOf members "error_info") = some info ↔ Informs members info := by
  constructor
  · intro h
    cases hvalues : valuesOf members "error_info" with
    | nil =>
        rw [hvalues] at h
        obtain rfl := Option.some.inj h
        exact .missing (valuesOf_eq_nil_iff.mp hvalues)
    | cons value others =>
        rw [hvalues] at h
        cases others with
        | nil =>
            obtain ⟨j, hread, hinfo⟩ := Option.map_eq_some_iff.mp h
            exact .given (valuesOf_eq_singleton_iff.mp hvalues) hread (infoOf_eq_iff.mp hinfo)
        | cons _ _ => exact nomatch h
  · intro h
    cases h with
    | missing hmissing =>
        rw [valuesOf_eq_nil_iff.mpr hmissing]
        rfl
    | given honce hread htells =>
        rw [valuesOf_eq_singleton_iff.mpr honce, info?, hread, Option.map_some,
          infoOf_eq_iff.mpr htells]

/-- A fault is read from members that hold its name and its text once, as strings. -/
theorem ofMembers?_eq_some_iff {members : List (String × List Char)} {fault : RemoteFault} :
    ofMembers? members = some fault ↔
      (∃ id, Once members "error_id" id ∧ Denotes id fault.id) ∧
      (∃ message, Once members "error_text" message ∧ Denotes message fault.text) ∧
      Informs members fault.info := by
  constructor
  · intro h
    rw [ofMembers?] at h
    split at h
    · next idLiteral textLiteral hid hmessage =>
        obtain ⟨id, hidRead, h⟩ := Option.bind_eq_some_iff.mp h
        obtain ⟨message, hmessageRead, h⟩ := Option.bind_eq_some_iff.mp h
        obtain ⟨info, hinfo, rfl⟩ := Option.map_eq_some_iff.mp h
        refine ⟨⟨idLiteral, ?_, ?_⟩, ⟨textLiteral, ?_, ?_⟩, info?_eq_some_iff.mp hinfo⟩
        · exact valuesOf_eq_singleton_iff.mp hid
        · exact string?_eq_some_iff.mp hidRead
        · exact valuesOf_eq_singleton_iff.mp hmessage
        · exact string?_eq_some_iff.mp hmessageRead
    · exact nomatch h
  · rintro ⟨⟨id, hid, hidRead⟩, ⟨message, hmessage, hmessageRead⟩, hinfo⟩
    rw [ofMembers?, valuesOf_eq_singleton_iff.mpr hid, valuesOf_eq_singleton_iff.mpr hmessage]
    show ((string? id).bind fun id => (string? message).bind fun text =>
      (info? (valuesOf members "error_info")).map fun info => ⟨id, text, info⟩) = some fault
    rw [string?_eq_some_iff.mpr hidRead, string?_eq_some_iff.mpr hmessageRead,
      info?_eq_some_iff.mpr hinfo]
    rfl

/-! ## Texts -/

private theorem pastBlanks_eq_cons_iff {cs rest : List Char} {c : Char}
    (hc : Json.Reader.isSpace c = false) :
    pastBlanks cs = c :: rest ↔ ∃ before, Blank before ∧ cs = before ++ c :: rest := by
  constructor
  · intro h
    obtain ⟨before, hbefore, heq⟩ := exists_blank cs
    exact ⟨before, hbefore, by rwa [h] at heq⟩
  · rintro ⟨before, hbefore, rfl⟩
    exact pastBlanks_append hbefore hc rest

/-- **The fault that is read from a text is the one that the text explains**: no other text is
    taken for an explanation, and no explanation is missed. -/
theorem ofText?_eq_some_iff {text : String} {fault : RemoteFault} :
    ofText? text = some fault ↔ Explains text fault := by
  constructor
  · intro h
    rw [ofText?] at h
    split at h
    · exact nomatch h
    next c rest hfirst =>
    split at h
    · next hbrace =>
        obtain ⟨members, hnamed, hmembers⟩ := Option.bind_eq_some_iff.mp h
        obtain ⟨elements, helements, hkeys⟩ := Option.bind_eq_some_iff.mp hnamed
        obtain ⟨piece, after, hpiece, hafter, rfl⟩ := members?_eq_some_iff.mp helements
        rw [hbrace] at hfirst
        obtain ⟨before, hbefore, htext⟩ := (pastBlanks_eq_cons_iff rfl).mp hfirst
        obtain ⟨⟨_, hid, hidRead⟩, ⟨_, hmessage, hmessageRead⟩, hinfo⟩ :=
          ofMembers?_eq_some_iff.mp hmembers
        exact .object hbefore hafter htext hpiece (named?_eq_some_iff.mp hkeys) hid hidRead
          hmessage hmessageRead hinfo
    split at h
    · next hbracket =>
        rw [hbracket] at hfirst
        obtain ⟨before, hbefore, htext⟩ := (pastBlanks_eq_cons_iff rfl).mp hfirst
        split at h
        · next items hread =>
            match items, hread, h with
            | [.string id, .string message], hread, h =>
                obtain rfl := Option.some.inj h
                exact .pair hbefore htext hread
            | [.string id, .string message, j], hread, h =>
                obtain rfl := Option.some.inj h
                exact .triple hbefore htext hread (infoOf_eq_iff.mp rfl)
        · exact nomatch h
    · exact nomatch h
  · intro h
    cases h with
    | object hbefore hafter htext hpiece hkeys hid hidRead hmessage hmessageRead hinfo =>
        have hfirst := (pastBlanks_eq_cons_iff rfl).mpr ⟨_, hbefore, htext⟩
        have hmembers := ofMembers?_eq_some_iff.mpr
          ⟨⟨_, hid, hidRead⟩, ⟨_, hmessage, hmessageRead⟩, hinfo⟩
        have helements := members?_eq_some_iff.mpr ⟨_, _, hpiece, hafter, rfl⟩
        rw [ofText?, hfirst]
        show ((members? _).bind named?).bind ofMembers? = some fault
        rw [helements, Option.bind_some, named?_eq_some_iff.mpr hkeys, Option.bind_some, hmembers]
    | pair hbefore htext hread =>
        have hfirst := (pastBlanks_eq_cons_iff rfl).mpr ⟨_, hbefore, htext⟩
        simp only [ofText?, hfirst, hread]
        rfl
    | triple hbefore htext hread htells =>
        have hfirst := (pastBlanks_eq_cons_iff rfl).mpr ⟨_, hbefore, htext⟩
        simp only [ofText?, hfirst, hread]
        rw [← infoOf_eq_iff.mpr htells]
        rfl

/-- A text explains one fault only. -/
theorem Explains.unique {text : String} {fault fault' : RemoteFault} (h : Explains text fault)
    (h' : Explains text fault') : fault = fault' :=
  Option.some.inj ((ofText?_eq_some_iff.mpr h).symm.trans (ofText?_eq_some_iff.mpr h'))

end TrafficConfig.RemoteFault
