import TrafficConfig.Proofs.History
import TrafficConfig.Resource.Manager

/-!
# Demands

What a manager is asked to do is a **`Demand`**, and it answers with a **`Reply`**. A
demand says by itself which object it is about, what it writes and whether it can be
carried out at all:

* **`Demand.Refused`** — a plan in error, no name, or nothing that could be sent for it;
* **`Demand.SendsNothing`** — an update that has nothing to write;
* **`Demand.Sends`** — the call that writes;
* **`Looked`** — what an answer to a look at an object brings.

The calls of a demand with its reply are one **`Course`** of a few
(**`Manager.course`**), whatever the server answers. What a course is does not depend on how
the operation is put together, so every property of demands is shown by cases on it.
-/

namespace TrafficConfig

open Value

/-- What a manager is asked to do. -/
inductive Demand where
  | create (planned : Value)
  | read (current : Value)
  | update (prior planned : Value) (changes : ChangeSet)
  | delete (prior : Value)

/-- A state, where there is one, and the reports that came with it. -/
structure Reply where
  state? : Option Value
  reports : List Diagnostic

/-- The operation for a demand; a deleted object leaves no state. -/
def Manager.handle (m : Manager) : Demand → Operation Reply
  | .create planned => (fun done => ⟨some done.state, done.reports⟩) <$> m.create planned
  | .read current => (fun done => ⟨done.state?, done.reports⟩) <$> m.read current
  | .update prior planned changes =>
      (fun done => ⟨some done.state, done.reports⟩) <$> m.update prior planned changes
  | .delete prior => (fun reports => ⟨none, reports⟩) <$> m.delete prior

/-- The name of an object is not empty, and stands in a map. -/
theorem objectName_cases {v : Value} {name : String} (h : objectName v = some name) :
    name.isEmpty = false ∧ ∃ entries, v = .map entries := by
  rw [objectName] at h
  obtain ⟨hfollow, hname⟩ := Option.filter_eq_some_iff.mp h
  refine ⟨by simpa using hname, ?_⟩
  cases v with
  | map entries => exact ⟨entries, rfl⟩
  | _ => exact nomatch hfollow

namespace Resource

/-- A plan with the defaults of the schema. -/
def filled (r : Resource) (planned : Value) : Value := (r.schema.prepare planned).1

/-- Only a map has a name when its defaults are filled in. -/
theorem exists_filled {r : Resource} {planned : Value} {name : String}
    (h : objectName (r.filled planned) = some name) :
    ∃ root, planned = .map root ∧
      r.filled planned = .map (r.schema.block.applyDefaults root) := by
  obtain ⟨-, entries, hentries⟩ := objectName_cases h
  cases planned with
  | map root => exact ⟨root, rfl, rfl⟩
  | _ => exact nomatch hentries

/-- Preparing a plan reports an error. -/
def Rejects (r : Resource) (planned : Value) : Prop :=
  Diagnostic.anyError (r.schema.prepare planned).2 = true

/-- The call that looks at an object. -/
def look (r : Resource) (name : String) : Call :=
  match r.content with
  | .document _ => .get (r.address name)
  | .text _ => .getText (r.address name)

/-- A call makes an object as planned: its payload, or its text, is that of the plan. -/
def Makes (r : Resource) (name : String) (plan : Value) (c : Call) : Prop :=
  match r.content with
  | .document sections =>
      ∃ payload, createPayload plan sections = .ok payload ∧
        c = .create (r.address name) payload
  | .text form =>
      ∃ body, form.encode (getOrNull plan.root form.attributeName) = .ok body ∧
        c = .putText (r.address name) body

/-- A call changes an object as planned: its payload is what the changes leave of the plan,
    or its text is that of the plan. -/
def Changes (r : Resource) (name : String) (plan : Value) (changes : ChangeSet) (c : Call) :
    Prop :=
  match r.content with
  | .document sections =>
      ∃ payload, updatePayload plan sections changes = .ok (some payload) ∧
        c = .update (r.address name) payload
  | .text _ => r.Makes name plan c

/-- The payload or the text of a plan cannot be built. -/
def Unmakeable (r : Resource) (plan : Value) : Prop :=
  match r.content with
  | .document sections => ∃ e, createPayload plan sections = .error e
  | .text form => ∃ e, form.encode (getOrNull plan.root form.attributeName) = .error e

/-- The payload or the text of changes cannot be built. -/
def Unchangeable (r : Resource) (plan : Value) (changes : ChangeSet) : Prop :=
  match r.content with
  | .document sections => ∃ e, updatePayload plan sections changes = .error e
  | .text _ => r.Unmakeable plan

/-- Changes leave the text of an object alone. -/
def TextUnchanged (r : Resource) (changes : ChangeSet) : Prop :=
  match r.content with
  | .document _ => False
  | .text form => changes.hasChange form.attributeName = false

/-- There is nothing to write for changes. -/
def NothingToSend (r : Resource) (plan : Value) (changes : ChangeSet) : Prop :=
  match r.content with
  | .document sections => updatePayload plan sections changes = .ok none
  | .text form => changes.hasChange form.attributeName = false

end Resource

namespace Demand

variable (r : Resource)

/-- The name of the object that a demand is about. An update goes by the name that the
    object has, and by the planned one only when it has none. -/
def name? : Demand → Option String
  | .create planned => objectName (r.filled planned)
  | .read state | .delete state => objectName state
  | .update prior planned _ => (objectName prior).or (objectName (r.filled planned))

/-- A demand cannot be carried out. An update that leaves the text of an object alone does
    not need a name. -/
def Refused : Demand → Prop
  | .create planned =>
      r.Rejects planned ∨ objectName (r.filled planned) = none ∨
        r.Unmakeable (r.filled planned)
  | .read state | .delete state => objectName state = none
  | .update prior planned changes =>
      r.Rejects planned ∨ ¬ r.TextUnchanged changes ∧
        ((objectName prior).or (objectName (r.filled planned)) = none ∨
          r.Unchangeable (r.filled planned) changes)

/-- There is nothing to write for a demand. -/
def SendsNothing : Demand → Prop
  | .update _ planned changes => r.NothingToSend (r.filled planned) changes
  | _ => False

/-- A call writes what a demand asks for. -/
def Sends (name : String) : Demand → Call → Prop
  | .create planned, c => r.Makes name (r.filled planned) c
  | .update _ planned changes, c => r.Changes name (r.filled planned) changes c
  | _, _ => False

/-- The state that stays when a demand fails before its write is accepted. -/
def kept : Demand → Option Value
  | .create planned => some (r.filled planned)
  | .read current => some current
  | .update prior _ _ => some prior
  | .delete _ => none

/-- The state over which a demand brings what is fetched. -/
def under : Demand → Value
  | .create planned | .update _ planned _ => r.filled planned
  | .read current | .delete current => current

end Demand

/-! ## Looking at an object -/

/-- What an answered look at an object brings over a prior state. -/
inductive Looked (r : Resource) (name : String) (prior : Value) : Answered → Fetched → Prop
  | document {sections : List Section} {document : Json} {state : Value}
      (hc : r.content = .document sections)
      (hstate : stateOfDocument sections name document prior = .ok state) :
      Looked r name prior ⟨.get (r.address name), .ok document⟩ (.found state)
  | unreadable {sections : List Section} {document : Json} {e : ConfigError}
      (hc : r.content = .document sections)
      (herror : stateOfDocument sections name document prior = .error e) :
      Looked r name prior ⟨.get (r.address name), .ok document⟩
        (.failed (r.failure "read" name e.message))
  | text {form : TextForm} {body : String} (hc : r.content = .text form) :
      Looked r name prior ⟨.getText (r.address name), .ok body⟩
        (.found (form.stateOf name body prior))
  | missing {reason : ApiError} (hgone : reason.isNotFound = true) :
      Looked r name prior ⟨r.look name, .error reason⟩ (.gone reason)
  | failing {reason : ApiError} (hgone : reason.isNotFound = false) :
      Looked r name prior ⟨r.look name, .error reason⟩
        (.failed (r.failure "read" name reason.message))

/-- A look is a look at the object. -/
theorem Looked.call_eq {r : Resource} {name : String} {prior : Value} {a : Answered}
    {x : Fetched} (h : Looked r name prior a x) : a.call = r.look name := by
  cases h with
  | document hc | unreadable hc | text hc => simp only [Resource.look, hc]
  | missing | failing => rfl

namespace Resource

variable {σ : Type} (r : Resource) (server : Server σ)

private theorem looked_of_error (name : String) (prior : Value) (reason : ApiError) :
    Looked r name prior ⟨r.look name, .error reason⟩ (r.unfetched name reason) := by
  unfold unfetched
  cases hgone : reason.isNotFound with
  | true => exact .missing hgone
  | false => exact .failing hgone

/-- **Fetching an object is one look at it**, for documents and for texts. -/
theorem fetch_looks (name : String) (prior : Value) (s : σ) :
    ∃ look, (r.fetch name prior).history server s = [look] ∧
      Looked r name prior look ((r.fetch name prior).run server s).1 := by
  cases hc : r.content with
  | document sections =>
      refine ⟨_, history_fetch hc name prior s, ?_⟩
      rw [run_fetch hc]
      have hlook : Call.get (r.address name) = r.look name := by simp only [look, hc]
      cases hanswer : (server s (.get (r.address name))).1 with
      | error reason =>
          simp only [lookedAt]
          rw [hlook]
          exact r.looked_of_error name prior reason
      | ok document =>
          simp only [lookedAt]
          cases hstate : stateOfDocument sections name document prior with
          | error e => exact .unreadable hc hstate
          | ok state => exact .document hc hstate
  | text form =>
      have hlook : Call.getText (r.address name) = r.look name := by simp only [look, hc]
      simp only [fetch, hc, Operation.run_call, Operation.history_call]
      refine ⟨⟨.getText (r.address name), (server s (.getText (r.address name))).1⟩, ?_, ?_⟩
      · cases (server s (.getText (r.address name))).1 <;> rfl
      · cases (server s (.getText (r.address name))).1 with
        | error reason =>
            show Looked r name prior _ (r.unfetched name reason)
            rw [hlook]
            exact r.looked_of_error name prior reason
        | ok body => exact .text hc

end Resource

/-! ## Courses -/

/-- How a demand goes: the calls that are made for it, with their answers, and what is
    replied. -/
inductive Course (r : Resource) (demand : Demand) : List Answered → Reply → Prop
  | refused {reports : List Diagnostic} (hrefused : demand.Refused r)
      (herror : Diagnostic.anyError reports = true) :
      Course r demand [] ⟨demand.kept r, reports⟩
  | idle {reports : List Diagnostic} (hrefused : ¬ demand.Refused r)
      (hidle : demand.SendsNothing r) (herror : Diagnostic.anyError reports = false) :
      Course r demand [] ⟨some (demand.under r), reports⟩
  /-- The write is not accepted. -/
  | unwritten {name : String} {write : Call} {reason : ApiError}
      {reports : List Diagnostic} (hrefused : ¬ demand.Refused r)
      (hidle : ¬ demand.SendsNothing r) (hname : demand.name? r = some name)
      (hwrite : demand.Sends r name write) (herror : Diagnostic.anyError reports = true) :
      Course r demand [⟨write, .error reason⟩] ⟨demand.kept r, reports⟩
  | written {name : String} {write : Call} {result : write.Result} {look : Answered}
      {fetched : Fetched} {reports : List Diagnostic} (hrefused : ¬ demand.Refused r)
      (hidle : ¬ demand.SendsNothing r) (hname : demand.name? r = some name)
      (hwrite : demand.Sends r name write) (herror : Diagnostic.anyError reports = false)
      (hlooked : Looked r name (demand.under r) look fetched) :
      Course r demand [⟨write, .ok result⟩, look]
        ⟨some (r.settled name (demand.under r) reports fetched).state,
          (r.settled name (demand.under r) reports fetched).reports⟩
  | looked {current : Value} {name : String} {look : Answered} {fetched : Fetched}
      (hread : demand = .read current) (hname : objectName current = some name)
      (hlooked : Looked r name current look fetched) :
      Course r demand [look]
        ⟨(Resource.refreshed current fetched).state?,
          (Resource.refreshed current fetched).reports⟩
  | deleted {prior : Value} {name : String}
      {answer : (Call.delete (r.address name)).Answer} {reports : List Diagnostic}
      (hdelete : demand = .delete prior) (hname : objectName prior = some name)
      (herror : Diagnostic.anyError reports = true ↔
        ∃ reason, answer = .error reason ∧ reason.isNotFound = false) :
      Course r demand [⟨.delete (r.address name), answer⟩] ⟨none, reports⟩

/-- A demand without errors was not refused. -/
theorem Course.not_refused {r : Resource} {demand : Demand} {calls : List Answered}
    {reply : Reply} (h : Course r demand calls reply)
    (hok : Diagnostic.anyError reply.reports = false) : ¬ demand.Refused r := by
  cases h with
  | refused hrefused herror => exact nomatch herror.symm.trans hok
  | idle hrefused | unwritten hrefused | written hrefused => exact hrefused
  | looked hread hname | deleted hread hname =>
      subst hread
      exact fun hnone => nomatch hname.symm.trans hnone

namespace Resource

variable {σ : Type} {r : Resource} {server : Server σ} {s : σ}

private theorem course_write {demand : Demand} {action name : String} {write : Call}
    {reports : List Diagnostic} {refused : Value} (hrefused : ¬ demand.Refused r)
    (hidle : ¬ demand.SendsNothing r) (hname : demand.name? r = some name)
    (hwrite : demand.Sends r name write) (herror : Diagnostic.anyError reports = false)
    (hkept : demand.kept r = some refused) (server : Server σ) (s : σ) :
    let op := r.write action name write (demand.under r) refused reports
    Course r demand (op.history server s)
      ⟨some (op.run server s).1.state, (op.run server s).1.reports⟩ := by
  intro op
  rw [history_write, run_write]
  cases hanswer : (server s write).1 with
  | error reason =>
      simp only [refusal?]
      rw [← hkept]
      exact .unwritten hrefused hidle hname hwrite (anyError_append rfl _)
  | ok result =>
      simp only [refusal?]
      obtain ⟨look, hhistory, hlooked⟩ :=
        r.fetch_looks server name (demand.under r) (server s write).2
      rw [hhistory]
      exact .written hrefused hidle hname hwrite herror hlooked

/-- Either the call that makes an object is built, or there is none. -/
theorem creation_cases (r : Resource) (name : String) (plan : Value) :
    (∃ report, r.creation name plan = .error report ∧ report.isError = true ∧
      r.Unmakeable plan) ∨
      ∃ c, r.creation name plan = .ok c ∧ r.Makes name plan c ∧ ¬ r.Unmakeable plan := by
  unfold creation Makes Unmakeable
  cases hc : r.content with
  | document sections =>
      simp only
      cases hpayload : createPayload plan sections with
      | error e => exact .inl ⟨_, rfl, rfl, e, rfl⟩
      | ok payload => exact .inr ⟨_, rfl, ⟨payload, rfl, rfl⟩, fun ⟨_, he⟩ => nomatch he⟩
  | text form =>
      simp only
      cases hbody : form.encode (getOrNull plan.root form.attributeName) with
      | error e => exact .inl ⟨_, rfl, rfl, e, rfl⟩
      | ok body => exact .inr ⟨_, rfl, ⟨body, rfl, rfl⟩, fun ⟨_, he⟩ => nomatch he⟩

/-- Either the call that changes an object is built, or none is needed, or there is none. -/
theorem revision_cases (r : Resource) (name : String) (plan : Value) (changes : ChangeSet)
    (htouched : ¬ r.TextUnchanged changes) :
    (∃ report, r.revision name plan changes = .error report ∧ report.isError = true ∧
      r.Unchangeable plan changes) ∨
      ¬ r.Unchangeable plan changes ∧
        (r.revision name plan changes = .ok none ∧ r.NothingToSend plan changes ∨
          ∃ c, r.revision name plan changes = .ok (some c) ∧ r.Changes name plan changes c ∧
            ¬ r.NothingToSend plan changes) := by
  cases hc : r.content with
  | document sections =>
      simp only [revision, Changes, Unchangeable, NothingToSend, hc]
      cases hpayload : updatePayload plan sections changes with
      | error e => exact .inl ⟨_, rfl, rfl, e, rfl⟩
      | ok payload? =>
          refine .inr ⟨by rintro ⟨-, ⟨⟩⟩, ?_⟩
          cases payload? with
          | none => exact .inl ⟨rfl, rfl⟩
          | some payload => exact .inr ⟨_, rfl, ⟨payload, rfl, rfl⟩, by rintro ⟨⟩⟩
  | text form =>
      have hidle : ¬ r.NothingToSend plan changes := by
        simpa only [NothingToSend, TextUnchanged, hc] using htouched
      simp only [revision, Changes, Unchangeable, hc]
      obtain ⟨report, hcreation, herror, hbad⟩ | ⟨c, hcreation, hmakes, hgood⟩ :=
        r.creation_cases name plan
      · exact .inl ⟨report, by rw [hcreation]; rfl, herror, hbad⟩
      · exact .inr ⟨hgood, .inr ⟨c, by rw [hcreation]; rfl, hmakes, hidle⟩⟩

/-- What the code checks of a text resource is whether its text is unchanged. -/
theorem untouchedBy_iff (r : Resource) (changes : ChangeSet) :
    r.untouchedBy changes = true ↔ r.TextUnchanged changes := by
  unfold untouchedBy TextUnchanged
  cases r.content <;> simp

/-- Text that is left alone is not sent. -/
theorem TextUnchanged.nothingToSend {changes : ChangeSet} (h : r.TextUnchanged changes)
    (plan : Value) : r.NothingToSend plan changes := by
  unfold TextUnchanged at h
  unfold NothingToSend
  cases hc : r.content with
  | document sections => exact (hc ▸ h).elim
  | text form => simpa only [hc] using h

private theorem anyError_eq_false {planned : Value} (h : ¬ r.Rejects planned) :
    Diagnostic.anyError (r.schema.prepare planned).2 = false :=
  Bool.not_eq_true _ ▸ h

/-- A create takes its course against every server. -/
theorem course_create (planned : Value) (server : Server σ) (s : σ) :
    Course r (.create planned) ((r.create planned).history server s)
      ⟨some ((r.create planned).run server s).1.state,
        ((r.create planned).run server s).1.reports⟩ := by
  unfold create
  simp only
  by_cases hrejected : Diagnostic.anyError (r.schema.prepare planned).2 = true
  · rw [if_pos hrejected]
    exact .refused (.inl hrejected) hrejected
  · rw [if_neg hrejected]
    cases hname : objectName (r.schema.prepare planned).1 with
    | none => exact .refused (.inr (.inl hname)) (anyError_append rfl _)
    | some name =>
        obtain ⟨report, hcall, herror, hbad⟩ | ⟨c, hcall, hmakes, hgood⟩ :=
          r.creation_cases name (r.schema.prepare planned).1
        · simp only [hcall]
          exact .refused (.inr (.inr hbad)) (anyError_append herror _)
        · simp only [hcall]
          have hrefused : ¬ (Demand.create planned).Refused r := by
            rintro (h | h | h)
            · exact hrejected h
            · exact nomatch hname.symm.trans h
            · exact hgood h
          exact course_write hrefused id hname hmakes (anyError_eq_false hrejected) rfl
            server s

/-- An update takes its course against every server. -/
theorem course_update (prior planned : Value) (changes : ChangeSet) (server : Server σ)
    (s : σ) :
    Course r (.update prior planned changes)
      ((r.update prior planned changes).history server s)
      ⟨some ((r.update prior planned changes).run server s).1.state,
        ((r.update prior planned changes).run server s).1.reports⟩ := by
  unfold update
  simp only
  by_cases hrejected : Diagnostic.anyError (r.schema.prepare planned).2 = true
  · rw [if_pos hrejected]
    exact .refused (.inl hrejected) hrejected
  · rw [if_neg hrejected]
    by_cases huntouched : r.untouchedBy changes = true
    · rw [if_pos huntouched]
      rw [untouchedBy_iff] at huntouched
      have hrefused : ¬ (Demand.update prior planned changes).Refused r := by
        rintro (h | h)
        · exact hrejected h
        · exact h.1 huntouched
      exact .idle hrefused (huntouched.nothingToSend _) (anyError_eq_false hrejected)
    · rw [if_neg huntouched]
      rw [untouchedBy_iff] at huntouched
      cases hname : (objectName prior).or (objectName (r.schema.prepare planned).1) with
      | none =>
          exact .refused (.inr ⟨huntouched, .inl hname⟩) (anyError_append rfl _)
      | some name =>
          have hrefused (hgood : ¬ r.Unchangeable (r.filled planned) changes) :
              ¬ (Demand.update prior planned changes).Refused r := by
            rintro (h | ⟨-, h | h⟩)
            · exact hrejected h
            · exact nomatch hname.symm.trans h
            · exact hgood h
          obtain ⟨report, hcall, herror, hbad⟩ |
              ⟨hgood, ⟨hcall, hidle⟩ | ⟨c, hcall, hchanges, hbusy⟩⟩ :=
            r.revision_cases name (r.schema.prepare planned).1 changes huntouched
          · simp only [hcall]
            exact .refused (.inr ⟨huntouched, .inr hbad⟩) (anyError_append herror _)
          · simp only [hcall]
            exact .idle (hrefused hgood) hidle (anyError_eq_false hrejected)
          · simp only [hcall]
            exact course_write (hrefused hgood) hbusy hname hchanges
              (anyError_eq_false hrejected) rfl server s

/-- A read takes its course against every server. -/
theorem course_read (current : Value) (server : Server σ) (s : σ) :
    Course r (.read current) ((r.read current).history server s)
      ⟨((r.read current).run server s).1.state?,
        ((r.read current).run server s).1.reports⟩ := by
  cases hname : objectName current with
  | none =>
      unfold read
      rw [hname]
      exact .refused hname rfl
  | some name =>
      obtain ⟨hnone, -⟩ | ⟨name', hname', hread⟩ := r.read_cases current
      · exact nomatch hname.symm.trans hnone
      · obtain rfl := Option.some.inj (hname'.symm.trans hname)
        obtain ⟨look, hhistory, hlooked⟩ := r.fetch_looks server name' current s
        rw [hread, Operation.history_map, Operation.run_map, hhistory]
        exact .looked rfl hname' hlooked

/-- A delete takes its course against every server. -/
theorem course_delete (prior : Value) (server : Server σ) (s : σ) :
    Course r (.delete prior) ((r.delete prior).history server s)
      ⟨none, ((r.delete prior).run server s).1⟩ := by
  unfold delete
  cases hname : objectName prior with
  | none => exact .refused hname rfl
  | some name =>
      simp only [Operation.run_call, Operation.history_call]
      cases (server s (.delete (r.address name))).1 with
      | ok removed =>
          refine .deleted rfl hname ⟨by rintro ⟨⟩, ?_⟩
          rintro ⟨reason, ⟨⟩, -⟩
      | error reason =>
          refine .deleted rfl hname ?_
          show Diagnostic.anyError (if _ then _ else _) = true ↔ _
          cases hgone : reason.isNotFound with
          | true =>
              refine ⟨by rintro ⟨⟩, ?_⟩
              rintro ⟨other, h, hother⟩
              obtain rfl := Except.error.inj h
              exact Bool.noConfusion (hgone.symm.trans hother)
          | false => exact ⟨fun _ => ⟨reason, rfl, hgone⟩, fun _ => rfl⟩

end Resource

namespace Manager

variable {σ : Type}

/-- A manager that is not connected calls nothing. -/
theorem history_of_not_connected {m : Manager} (hm : m.connected = false)
    (demand : Demand) (server : Server σ) (s : σ) :
    (m.handle demand).history server s = [] := by
  cases demand <;>
    simp only [handle, create, read, update, delete, hm, Operation.history_map] <;> rfl

/-- **Every demand to a connected manager takes one of the courses**, whatever the server
    answers. -/
theorem course {m : Manager} (hm : m.connected = true) (demand : Demand)
    (server : Server σ) (s : σ) :
    Course m.resource demand ((m.handle demand).history server s)
      ((m.handle demand).run server s).1 := by
  cases demand with
  | create planned =>
      rw [handle, Operation.history_map, Operation.run_map, create, if_pos hm]
      exact Resource.course_create planned server s
  | read current =>
      rw [handle, Operation.history_map, Operation.run_map, read, if_pos hm]
      exact Resource.course_read current server s
  | update prior planned changes =>
      rw [handle, Operation.history_map, Operation.run_map, update, if_pos hm]
      exact Resource.course_update prior planned changes server s
  | delete prior =>
      rw [handle, Operation.history_map, Operation.run_map, delete, if_pos hm]
      exact Resource.course_delete prior server s

end Manager

end TrafficConfig
