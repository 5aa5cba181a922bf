import TrafficConfig.Client
import TrafficConfig.Proofs.Directories

/-!
# Addresses of objects

The URL of an object ends in its name, as one segment below the collection:

* **`Client.objectUrl_eq`**, **`Percent.names_encodeName`** — the segment is made of plain
  characters and escapes, and is decoded to the name;
* **`Client.objectUrl_injective`** — different objects have different URLs;
* **`Client.target_below_collection`** — a request goes to what its collection locates and from
  there to the name, `.` and `..` apart: no other name leaves its collection;
* **`Client.calls_address_objects`** — all this for the clients that are made.

A name of two points does leave the directory: see **`Client.parent_addressed`**.
-/

namespace TrafficConfig

/-- A segment that means an object by its name. -/
structure Percent.Names (segment name : String) : Prop where
  /-- Nothing in the segment separates anything. -/
  escaped : Percent.Escaped segment.toList
  decoded : Text.ofUtf8? (Percent.decode segment.toList) = some name
  isDot_iff : Url.isDot segment.toList = true ↔ name = "."
  isDoubleDot_iff : Url.isDoubleDot segment.toList = true ↔ name = ".."

/-- An encoded name names the object. -/
theorem Percent.names_encodeName (name : String) :
    Percent.Names (Percent.encodeName name) name where
  escaped := Percent.escaped_encodeName name
  decoded := Percent.ofUtf8?_decode_encodeName name
  isDot_iff := Percent.isDot_encodeName name
  isDoubleDot_iff := Percent.isDoubleDot_encodeName name

/-- The name of an object stands for itself, unless it is a dot segment. -/
theorem Url.stands_encodeName {name : String} (hdot : name ≠ ".") (hdouble : name ≠ "..") :
    Url.Stands (Percent.encodeName name).toList where
  escaped := Percent.escaped_encodeName name
  not_dot := Bool.eq_false_iff.mpr fun h => hdot ((Percent.isDot_encodeName name).mp h)
  not_doubleDot := Bool.eq_false_iff.mpr fun h =>
    hdouble ((Percent.isDoubleDot_encodeName name).mp h)

/-! ## Slashes around a collection -/

/-- A path without slashes at its ends. -/
def IsTrimmed (path : String) : Prop :=
  path.toList.head? ≠ some '/' ∧ path.toList.getLast? ≠ some '/'

instance (path : String) : Decidable (IsTrimmed path) := inferInstanceAs (Decidable (_ ∧ _))

/-- Only slashes are dropped. -/
theorem mem_dropSlashes_iff {c : Char} (hc : c ≠ '/') (cs : List Char) :
    c ∈ dropSlashes cs ↔ c ∈ cs := by
  rw [dropSlashes, List.mem_reverse, Url.mem_dropWhile_iff (decide_eq_false hc), List.mem_reverse]

private theorem dropWhile_slash {cs : List Char} (h : cs.head? ≠ some '/') :
    cs.dropWhile (· = '/') = cs := by
  cases cs with
  | nil => rfl
  | cons c cs => exact List.dropWhile_cons_of_neg (by simpa using h)

/-- The characters of a collection's path, as they stand in a URL. -/
def collectionPath (collection : String) : List Char :=
  dropSlashes (collection.toList.dropWhile (· = '/'))

/-- A collection without slashes at its ends stands as it is in an address. -/
theorem collectionPath_of_isTrimmed {collection : String} (h : IsTrimmed collection) :
    String.ofList (collectionPath collection) = collection := by
  have hback : collection.toList.reverse.head? ≠ some '/' := by
    rw [List.head?_reverse]
    exact h.2
  rw [collectionPath, dropWhile_slash h.1, dropSlashes, dropWhile_slash hback,
    List.reverse_reverse, String.ofList_toList]

namespace Client

/-! ## URLs -/

/-- The address of an object: the root, the collection and the encoded name. -/
theorem toList_objectUrl (c : Client) (a : Address) :
    (c.objectUrl a).toList = c.root.toList ++ '/' :: collectionPath a.collection ++
      '/' :: (Percent.encodeName a.name).toList := by
  show (c.root ++ "/" ++ String.ofList (collectionPath a.collection) ++ "/" ++ _).toList = _
  simp only [String.toList_append, String.toList_ofList, List.append_assoc]
  rfl

/-- The name of an object is the last segment of its URL. -/
theorem objectUrl_eq (c : Client) (a : Address) (h : IsTrimmed a.collection) :
    c.objectUrl a = c.root ++ "/" ++ a.collection ++ "/" ++ Percent.encodeName a.name := by
  show c.root ++ "/" ++ String.ofList (collectionPath a.collection) ++ "/" ++ _ = _
  rw [collectionPath_of_isTrimmed h]

private theorem eq_of_last_slash {before before' after after' : List Char}
    (hafter : '/' ∉ after) (hafter' : '/' ∉ after')
    (h : before ++ '/' :: after = before' ++ '/' :: after') :
    before = before' ∧ after = after' := by
  have hspan (before : List Char) {after : List Char} (hafter : '/' ∉ after) :
      (before ++ '/' :: after).reverse.span (fun c => c ≠ '/') =
        (after.reverse, '/' :: before.reverse) := by
    have hall : ∀ c ∈ after.reverse, decide (c ≠ '/') = true :=
      fun c hc => decide_eq_true (ne_of_mem_of_not_mem (List.mem_reverse.mp hc) hafter)
    rw [List.reverse_append, List.reverse_cons, List.append_assoc, List.singleton_append,
      Url.span_cut hall rfl]
  have hparts := hspan before hafter
  rw [h, hspan before' hafter'] at hparts
  obtain ⟨hlast, hfront⟩ := Prod.mk.inj hparts
  exact ⟨(List.reverse_inj.mp (List.cons.inj hfront).2).symm, (List.reverse_inj.mp hlast).symm⟩

/-- **Different objects have different URLs.** -/
theorem objectUrl_injective (c : Client) {a b : Address} (ha : IsTrimmed a.collection)
    (hb : IsTrimmed b.collection) (h : c.objectUrl a = c.objectUrl b) : a = b := by
  have hslash (name : String) : '/' ∉ (Percent.encodeName name).toList :=
    (Percent.escaped_encodeName name).not_mem rfl (by decide)
  have hchars := congrArg String.toList h
  rw [toList_objectUrl, toList_objectUrl] at hchars
  obtain ⟨hfront, hsegment⟩ := eq_of_last_slash (hslash a.name) (hslash b.name) hchars
  have hpath : collectionPath a.collection = collectionPath b.collection :=
    (List.cons.inj (List.append_cancel_left hfront)).2
  have hcollection : a.collection = b.collection := by
    rw [← collectionPath_of_isTrimmed ha, hpath, collectionPath_of_isTrimmed hb]
  have hname : a.name = b.name := Percent.encodeName_injective (String.toList_inj.mp hsegment)
  cases a
  cases b
  exact congrArg₂ Address.mk hcollection hname

/-! ## Requests -/

/-- What a request for a location asks for. -/
def targetOf : Except UrlFault Location → Except ApiError String
  | .ok (.web target) => .ok target
  | .ok (.other scheme) => .error (.request ("no requests to " ++ scheme))
  | .error fault => .error (.request fault.message)

/-- The target of a request comes from the address of the object and nothing else. -/
theorem map_target_request (c : Client) (call : Call) :
    (c.request call).map Request.target = targetOf (Location.parse (c.objectUrl call.address)) := by
  rw [request]
  split
  next h => rw [h]; rfl
  next h => rw [h]; rfl
  next h => rw [h]; rfl

/-- From what a location asks for, one goes on to what is asked for below it. -/
theorem targetOf_map_below (base : Except UrlFault Location) (way rest : List Char) :
    targetOf (base.map (Location.below (way ++ rest))) =
      (targetOf (base.map (Location.below way))).map fun target =>
        target ++ String.ofList rest := by
  match base with
  | .ok (.web target) =>
      show Except.ok (target ++ String.ofList (way ++ rest)) = _
      rw [String.ofList_append, ← String.append_assoc]
      rfl
  | .ok (.other _) => rfl
  | .error _ => rfl

/-- The root lies below the address of a server. -/
theorem exists_root_of_of {server username password version : String} {retries timeout : Nat}
    {c : Client} (hc : Client.of server username password version retries timeout = .ok c) :
    ∃ front after, c.root.toList = front ++ '/' :: 'a' :: after := by
  rw [Client.of] at hc
  split at hc
  case h_1 => exact nomatch hc
  case h_2 => exact nomatch hc
  case h_3 =>
      rw [← Except.ok.inj hc]
      refine ⟨dropSlashes server.toList,
        "pi/tm/".toList ++ (version.toList ++ "/config/active".toList), ?_⟩
      simp only [String.toList_append, String.toList_ofList, List.append_assoc]
      rfl

/-- **A request goes to what its collection locates**, and from there to the name. The URL of the
collection is that of the empty name. A fragment in the address of the server or in the path of
the collection hides the name. -/
theorem target_below_collection {c : Client} {front after : List Char}
    (hroot : c.root.toList = front ++ '/' :: 'a' :: after) (call : Call)
    (hdot : call.address.name ≠ ".") (hdouble : call.address.name ≠ "..") :
    (c.request call).map Request.target =
      (c.request (.get ⟨call.address.collection, ""⟩)).map fun listing => listing.target ++
        if '#' ∈ (c.root ++ call.address.collection).toList then ""
        else Percent.encodeName call.address.name := by
  generalize hcollection : call.address.collection = collection
  obtain ⟨base, hbase⟩ := Location.exists_parse_below (x := 'a') rfl (by decide) front
    (after ++ '/' :: collectionPath collection)
  have hplace : front ++ '/' :: 'a' :: (after ++ '/' :: collectionPath collection) =
      c.root.toList ++ '/' :: collectionPath collection := by
    rw [hroot, List.append_assoc, List.cons_append, List.cons_append]
  have hmark : '#' ∈ c.root.toList ++ '/' :: collectionPath collection ↔
      '#' ∈ (c.root ++ collection).toList := by
    rw [String.toList_append, List.mem_append, List.mem_append, List.mem_cons,
      or_iff_right (show ¬ '#' = '/' by decide), collectionPath, mem_dropSlashes_iff (by decide),
      Url.mem_dropWhile_iff rfl]
  rw [hplace] at hbase
  have htarget (call : Call) (hcollection : call.address.collection = collection)
      (hdot : call.address.name ≠ ".") (hdouble : call.address.name ≠ "..") :
      (c.request call).map Request.target = targetOf (base.map (Location.below
        (if '#' ∈ (c.root ++ collection).toList then []
          else '/' :: (Percent.encodeName call.address.name).toList))) := by
    have hlocated := hbase _ (Url.stands_encodeName hdot hdouble)
    rw [← hcollection, ← toList_objectUrl, String.ofList_toList, hcollection] at hlocated
    rw [map_target_request, hlocated]
    simp only [hmark]
  have hlisting := htarget (.get ⟨collection, ""⟩) rfl
    (show "" ≠ "." by decide) (show "" ≠ ".." by decide)
  have hmap (response : Except ApiError Request) (rest : String) :
      response.map (fun listing => listing.target ++ rest) =
        (response.map Request.target).map fun target => target ++ rest := by
    cases response <;> rfl
  rw [htarget call hcollection hdot hdouble, hmap, hlisting]
  by_cases hhidden : '#' ∈ (c.root ++ collection).toList
  · rw [if_pos hhidden, if_pos hhidden, if_pos hhidden]
    exact targetOf_map_below base [] []
  · rw [if_neg hhidden, if_neg hhidden, if_neg hhidden]
    have hbelow := targetOf_map_below base ['/'] (Percent.encodeName call.address.name).toList
    rw [String.ofList_toList] at hbelow
    exact hbelow

/-- **Calls address the objects that they name.** -/
theorem calls_address_objects {server username password version : String} {retries timeout : Nat}
    {c : Client} (hc : Client.of server username password version retries timeout = .ok c) :
    (∀ a : Address, IsTrimmed a.collection → ∃ segment : String,
      c.objectUrl a = c.root ++ "/" ++ a.collection ++ "/" ++ segment ∧
        Percent.Names segment a.name) ∧
    (∀ a b : Address, IsTrimmed a.collection → IsTrimmed b.collection →
      c.objectUrl a = c.objectUrl b → a = b) ∧
    (∀ call : Call, call.address.name ≠ "." → call.address.name ≠ ".." →
      (c.request call).map Request.target =
        (c.request (.get ⟨call.address.collection, ""⟩)).map fun listing => listing.target ++
          if '#' ∈ (c.root ++ call.address.collection).toList then ""
          else Percent.encodeName call.address.name) := by
  obtain ⟨front, after, hroot⟩ := exists_root_of_of hc
  refine ⟨?_, ?_, ?_⟩
  · intro a ha
    exact ⟨Percent.encodeName a.name, c.objectUrl_eq a ha, Percent.names_encodeName a.name⟩
  · intro a b ha hb h
    exact c.objectUrl_injective ha hb h
  · intro call hdot hdouble
    exact target_below_collection hroot call hdot hdouble

/-- A name may hold slashes, blanks and points, and its capital letters count. -/
theorem named_objects_addressed :
    ∃ c : Client, Client.of "http://h" "admin" "secret" "3.8" 3 30 = .ok c ∧
      (∃ segment : String,
        c.objectUrl ⟨"ssl/server_keys", "../a b"⟩ =
          c.root ++ "/" ++ "ssl/server_keys" ++ "/" ++ segment ∧
        Percent.Names segment "../a b") ∧
      c.objectUrl ⟨"rules", "a"⟩ ≠ c.objectUrl ⟨"rules", "A"⟩ ∧
      (c.request (.delete ⟨"rules", "../a b"⟩)).map Request.target =
        .ok ("/api/tm/3.8/config/active/rules/" ++ Percent.encodeName "../a b") := by
  obtain ⟨c, hc⟩ : ∃ c, Client.of "http://h" "admin" "secret" "3.8" 3 30 = .ok c := ⟨_, rfl⟩
  obtain ⟨hurl, hdistinct, htarget⟩ := calls_address_objects hc
  refine ⟨c, hc, hurl ⟨"ssl/server_keys", "../a b"⟩ (by decide), ?_, ?_⟩
  · intro hsame
    have haddress := hdistinct _ _ (by decide) (by decide) hsame
    exact absurd (congrArg Address.name haddress) (by decide)
  · rw [htarget (.delete ⟨"rules", "../a b"⟩) (by decide) (by decide), ← Except.ok.inj hc]
    rfl

/-- A name of two points is not escaped, so that a request to delete this object addresses the
root of the configuration. -/
theorem parent_addressed :
    ∃ c : Client, Client.of "http://h" "admin" "secret" "3.8" 3 30 = .ok c ∧
      IsTrimmed "rules" ∧
      c.objectUrl ⟨"rules", ".."⟩ = c.root ++ "/" ++ "rules" ++ "/" ++ ".." ∧
      Url.isDoubleDot "..".toList = true ∧
      c.request (.delete ⟨"rules", ".."⟩) = .ok {
        method := .delete, target := "/api/tm/3.8/config/active/",
        authorization := c.authorization, accept := "*/*", contentType := none, body := "" } :=
  ⟨_, rfl, by decide, rfl, rfl, rfl⟩

end Client

end TrafficConfig
