import TrafficConfig.Proofs.Demands
import TrafficConfig.Catalog.Dns

/-!
# What a demand is answered with

Whatever a server answers to the calls of a demand, errors are reported and the state is the
right one:

* **`Course.error_iff`** — an error is reported if and only if the demand was refused, a
  call failed without that being forgiven, or a document that was fetched cannot be read;
* **`Course.state_of_read`** — a read loses the state if and only if the object is gone, and
  keeps it in every other failure;
* **`Course.state_of_unmade`**, **`state_of_unchanged`** — until its write is accepted, a
  create answers with the plan, and an update with the prior state, or with the plan when
  there is nothing to write;
* **`Course.state_of_written`** — after that, the state is what was read back, or the plan
  when nothing could be.

**`Faithful`** puts these together, and **`reply_of_demand`** states it of every connected
manager.
-/

namespace TrafficConfig

/-! ## Answers to calls -/

/-- Calls that write. -/
def Call.isWrite : Call → Bool
  | .create _ _ | .update _ _ | .putText _ _ => true
  | .get _ | .delete _ | .getText _ => false

/-- A call was answered with an error. -/
def Answered.Failed (a : Answered) : Prop := ∃ reason, Resource.refusal? a.answer = some reason

/-- A call was answered with the error that there is no such object. -/
def Answered.NotFound (a : Answered) : Prop :=
  ∃ reason, Resource.refusal? a.answer = some reason ∧ reason.isNotFound = true

/-- A write was accepted. -/
def WriteAccepted (calls : List Answered) : Prop :=
  ∃ a ∈ calls, a.call.isWrite = true ∧ ¬ a.Failed

/-- A document was fetched that cannot be read over a prior state. -/
def Resource.CannotRead (r : Resource) (name : String) (prior : Value) (a : Answered) : Prop :=
  ∃ sections document e, r.content = .document sections ∧
    a = ⟨.get (r.address name), .ok document⟩ ∧
      stateOfDocument sections name document prior = .error e

/-- A failed call that a demand puts up with: an object that is to be read or deleted may be
    gone. -/
def Demand.Forgives : Demand → Answered → Prop
  | .read _, a | .delete _, a => a.NotFound
  | .create _, _ | .update _ _ _, _ => False

@[simp] theorem Answered.failed_error {c : Call} (reason : ApiError) :
    Answered.Failed ⟨c, .error reason⟩ := ⟨reason, rfl⟩

@[simp] theorem Answered.not_failed_ok {c : Call} (result : c.Result) :
    ¬ Answered.Failed ⟨c, .ok result⟩ := fun ⟨_, h⟩ => nomatch h

@[simp] theorem Answered.notFound_error {c : Call} (reason : ApiError) :
    Answered.NotFound ⟨c, .error reason⟩ ↔ reason.isNotFound = true := by
  constructor
  · rintro ⟨other, h, hgone⟩
    obtain rfl := Option.some.inj h
    exact hgone
  · exact fun hgone => ⟨reason, rfl, hgone⟩

@[simp] theorem Answered.not_notFound_ok {c : Call} (result : c.Result) :
    ¬ Answered.NotFound ⟨c, .ok result⟩ := fun ⟨_, h, _⟩ => nomatch h

/-! ## Looks -/

section Looks

variable {r : Resource} {name : String} {prior : Value} {a : Answered} {fetched : Fetched}

/-- A look is no write. -/
theorem Resource.look_not_isWrite (r : Resource) (name : String) :
    (r.look name).isWrite = false := by
  unfold look
  cases r.content <;> rfl

/-- What cannot be read was looked at. -/
theorem Resource.CannotRead.call_eq (h : r.CannotRead name prior a) :
    a.call = .get (r.address name) := by
  obtain ⟨_, _, _, -, rfl, -⟩ := h
  rfl

/-- **A look brings no state if and only if it failed or what it fetched cannot be read.** -/
theorem Looked.failed_or_cannotRead_iff (h : Looked r name prior a fetched) :
    a.Failed ∨ r.CannotRead name prior a ↔ ∀ state, fetched ≠ .found state := by
  cases h with
  | @document sections document state hc hstate =>
      refine ⟨?_, fun hnone => absurd rfl (hnone state)⟩
      rintro (hfailed | ⟨sections', document', e, hc', ha, herror⟩)
      · exact absurd hfailed (Answered.not_failed_ok _)
      · cases ha
        obtain rfl := Content.document.inj (hc'.symm.trans hc)
        exact nomatch hstate.symm.trans herror
  | @unreadable sections document e hc herror =>
      exact ⟨fun _ _ h => (nomatch h), fun _ => .inr ⟨sections, document, e, hc, rfl, herror⟩⟩
  | @text form body hc =>
      refine ⟨?_, fun hnone => absurd rfl (hnone _)⟩
      rintro (hfailed | hunreadable)
      · exact absurd hfailed (Answered.not_failed_ok _)
      · exact nomatch hunreadable.call_eq
  | missing | failing =>
      exact ⟨fun _ _ h => (nomatch h), fun _ => .inl (Answered.failed_error _)⟩

/-- An object is gone if and only if the look says so. -/
theorem Looked.notFound_iff (h : Looked r name prior a fetched) :
    a.NotFound ↔ ∃ reason, fetched = .gone reason := by
  cases h with
  | document | unreadable | text =>
      refine ⟨fun h => absurd h (Answered.not_notFound_ok _), ?_⟩
      rintro ⟨reason, h⟩
      exact nomatch h
  | missing hgone =>
      exact ⟨fun _ => ⟨_, rfl⟩, fun _ => (Answered.notFound_error _).mpr hgone⟩
  | failing hgone =>
      refine ⟨fun h => (nomatch hgone.symm.trans ((Answered.notFound_error _).mp h)), ?_⟩
      rintro ⟨reason, h⟩
      exact nomatch h

/-- A failed look fails the read, unless the object is gone. -/
theorem Looked.failed_iff (h : Looked r name prior a fetched) :
    (a.Failed ∧ ¬ a.NotFound) ∨ r.CannotRead name prior a ↔
      ∃ report, fetched = .failed report := by
  have hbrings := h.failed_or_cannotRead_iff
  have hgone := h.notFound_iff
  cases fetched with
  | found state =>
      have hnone := mt hbrings.mp (fun h => h state rfl)
      rw [not_or] at hnone
      refine ⟨?_, fun ⟨_, h⟩ => nomatch h⟩
      rintro (⟨hfailed, -⟩ | hunreadable)
      · exact absurd hfailed hnone.1
      · exact absurd hunreadable hnone.2
  | gone reason =>
      have hmissing : a.NotFound := hgone.mpr ⟨reason, rfl⟩
      refine ⟨?_, fun ⟨_, h⟩ => nomatch h⟩
      rintro (⟨-, hnot⟩ | ⟨_, _, _, -, rfl, -⟩)
      · exact absurd hmissing hnot
      · exact absurd hmissing (Answered.not_notFound_ok _)
  | failed report =>
      refine ⟨fun _ => ⟨report, rfl⟩, fun _ => ?_⟩
      have hnot : ¬ a.NotFound := fun h => by
        obtain ⟨_, h⟩ := hgone.mp h
        exact nomatch h
      obtain hfailed | hunreadable := hbrings.mpr (fun _ h => nomatch h)
      · exact .inl ⟨hfailed, hnot⟩
      · exact .inr hunreadable

/-- A look that fails is reported as an error. -/
theorem Looked.isError {report : Diagnostic} (h : Looked r name prior a (.failed report)) :
    report.isError = true := by
  cases h <;> rfl

end Looks

/-! ## Writes -/

section Writes

variable {r : Resource} {name : String} {demand : Demand} {write : Call}

/-- The call that makes an object is a write. -/
theorem Resource.Makes.isWrite {plan : Value} (h : r.Makes name plan write) :
    write.isWrite = true := by
  unfold Makes at h
  split at h <;> obtain ⟨_, -, rfl⟩ := h <;> rfl

/-- The call that changes an object is a write. -/
theorem Resource.Changes.isWrite {plan : Value} {changes : ChangeSet}
    (h : r.Changes name plan changes write) : write.isWrite = true := by
  unfold Changes at h
  split at h
  · obtain ⟨_, -, rfl⟩ := h
    rfl
  · exact h.isWrite

/-- What a demand sends is a write. -/
theorem Demand.Sends.isWrite (h : demand.Sends r name write) : write.isWrite = true := by
  cases demand with
  | create planned => exact Resource.Makes.isWrite h
  | update prior planned changes => exact Resource.Changes.isWrite h
  | read | delete => exact h.elim

/-- A demand that writes puts up with no failure. -/
theorem Demand.Sends.not_forgives (h : demand.Sends r name write) (a : Answered) :
    ¬ demand.Forgives a := by
  cases demand with
  | create | update => exact id
  | read | delete => exact h.elim

/-- The write is no look. -/
theorem not_looked_of_isWrite {prior : Value} {a : Answered} {fetched : Fetched}
    (hwrite : a.call.isWrite = true) : ¬ Looked r name prior a fetched := by
  intro h
  rw [h.call_eq, r.look_not_isWrite] at hwrite
  exact nomatch hwrite

/-- No write is a look that cannot be read. -/
theorem not_cannotRead_of_isWrite {prior : Value} {a : Answered}
    (hwrite : a.call.isWrite = true) : ¬ r.CannotRead name prior a := by
  intro h
  rw [h.call_eq] at hwrite
  exact nomatch hwrite

end Writes

/-! ## Courses -/

section Courses

variable {r : Resource} {name : String} {look : Answered} {fetched : Fetched}

/-- What is read back after a write is reported as an error unless it is a state. -/
theorem Looked.anyError_settled {plan : Value} {reports : List Diagnostic}
    (h : Looked r name plan look fetched) (herror : Diagnostic.anyError reports = false) :
    Diagnostic.anyError (r.settled name plan reports fetched).reports = true ↔
      ∀ state, fetched ≠ .found state := by
  cases fetched with
  | found state => simp [Resource.settled, herror]
  | gone reason =>
      have hlost : (r.lost name reason).isError = true := by
        unfold Resource.lost
        cases r.content <;> rfl
      simp [Resource.settled, Diagnostic.anyError, hlost]
  | failed report => simp [Resource.settled, Diagnostic.anyError, h.isError]

/-- A read reports what failed, and nothing when the object is gone. -/
theorem Looked.anyError_refreshed {current : Value}
    (h : Looked r name current look fetched) :
    Diagnostic.anyError (Resource.refreshed current fetched).reports = true ↔
      ∃ report, fetched = .failed report := by
  cases fetched with
  | failed report => simp [Resource.refreshed, Diagnostic.anyError, h.isError]
  | found | gone => simp [Resource.refreshed, Diagnostic.anyError]

variable {demand : Demand} {calls : List Answered} {reply : Reply}

/-- **An error is reported if and only if something went wrong**: the demand was refused, a
    call failed and was not forgiven, or a fetched document cannot be read. -/
theorem Course.error_iff (h : Course r demand calls reply) :
    Diagnostic.anyError reply.reports = true ↔
      demand.Refused r ∨ (∃ a ∈ calls, a.Failed ∧ ¬ demand.Forgives a) ∨
        ∃ name, demand.name? r = some name ∧
          ∃ a ∈ calls, r.CannotRead name (demand.under r) a := by
  cases h with
  | refused hrefused herror => exact ⟨fun _ => .inl hrefused, fun _ => herror⟩
  | idle hrefused hidle herror => simp [hrefused, herror]
  | @unwritten name write reason reports hrefused hidle hname hwrite herror =>
      exact ⟨fun _ => .inr (.inl ⟨_, List.mem_cons_self, Answered.failed_error reason,
        hwrite.not_forgives _⟩), fun _ => herror⟩
  | @written name write result look fetched reports hrefused hidle hname hwrite herror
      hlooked =>
      have hlook := hwrite.not_forgives look
      have hread : ¬ r.CannotRead name (demand.under r) ⟨write, .ok result⟩ :=
        not_cannotRead_of_isWrite hwrite.isWrite
      rw [hlooked.anyError_settled herror, ← hlooked.failed_or_cannotRead_iff]
      simp [hrefused, hname, hlook, hread]
  | @looked current name look fetched hread hname hlooked =>
      subst hread
      have hrefused : ¬ (Demand.read current).Refused r := fun h => nomatch hname.symm.trans h
      rw [hlooked.anyError_refreshed, ← hlooked.failed_iff]
      simp [hrefused, Demand.name?, hname, Demand.Forgives, Demand.under]
  | @deleted prior name answer reports hdelete hname herror =>
      subst hdelete
      have hrefused : ¬ (Demand.delete prior).Refused r := fun h => nomatch hname.symm.trans h
      have hread : ¬ r.CannotRead name ((Demand.delete prior).under r)
          ⟨.delete (r.address name), answer⟩ := fun h => nomatch h.call_eq
      rw [herror]
      cases answer with
      | ok removed =>
          have hfailed := Answered.not_failed_ok (c := .delete (r.address name)) removed
          simp [hrefused, Demand.name?, hname, hread, hfailed]
      | error reason =>
          have hfailed := Answered.failed_error (c := .delete (r.address name)) reason
          have hgone := Answered.notFound_error (c := .delete (r.address name)) reason
          simp [hrefused, Demand.name?, hname, hread, Demand.Forgives, hfailed, hgone]

/-- **A read loses the state if and only if the object is gone**, keeps it in every other
    failure, and has what was fetched otherwise. -/
theorem Course.state_of_read {current : Value} (h : Course r (.read current) calls reply) :
    (reply.state? = none ↔ ∃ a ∈ calls, a.NotFound) ∧
      (Diagnostic.anyError reply.reports = true → reply.state? = some current) ∧
        (Diagnostic.anyError reply.reports = false → ∀ state, reply.state? = some state →
          ∃ name, objectName current = some name ∧
            ∃ a ∈ calls, Looked r name current a (.found state)) := by
  cases h with
  | refused hrefused herror =>
      simp [Demand.kept, herror]
  | idle hrefused hidle => exact hidle.elim
  | unwritten hrefused hidle hname hwrite => exact hwrite.elim
  | written hrefused hidle hname hwrite => exact hwrite.elim
  | @looked _ name look fetched hread hname hlooked =>
      cases hread
      have herror := hlooked.anyError_refreshed
      have hgone := hlooked.notFound_iff
      simp only [List.mem_singleton, exists_eq_left]
      rw [hgone, herror]
      cases fetched with
      | found state =>
          refine ⟨by simp [Resource.refreshed], by simp, fun _ state' hstate => ?_⟩
          obtain rfl := Option.some.inj hstate
          exact ⟨name, hname, hlooked⟩
      | gone reason => simp [Resource.refreshed]
      | failed report =>
          refine ⟨by simp [Resource.refreshed], fun _ => rfl, fun hnone => ?_⟩
          exact absurd (herror.mpr ⟨report, rfl⟩) (Bool.not_eq_true _ ▸ hnone)
  | deleted hdelete => exact nomatch hdelete

/-- Until its write is accepted, a create answers with the plan. -/
theorem Course.state_of_unmade {planned : Value}
    (h : Course r (.create planned) calls reply) (hwritten : ¬ WriteAccepted calls) :
    reply.state? = some (r.filled planned) := by
  cases h with
  | refused | idle | unwritten => rfl
  | written hrefused hidle hname hwrite =>
      exact absurd ⟨_, List.mem_cons_self, hwrite.isWrite, Answered.not_failed_ok _⟩ hwritten
  | looked hread => exact nomatch hread
  | deleted hdelete => exact nomatch hdelete

/-- Until its write is accepted, an update answers with the prior state, or with the plan
    when there is nothing to write. -/
theorem Course.state_of_unchanged {prior planned : Value} {changes : ChangeSet}
    (h : Course r (.update prior planned changes) calls reply)
    (hwritten : ¬ WriteAccepted calls) :
    let idle := ¬ (Demand.update prior planned changes).Refused r ∧
      r.NothingToSend (r.filled planned) changes
    (idle → reply.state? = some (r.filled planned)) ∧ (¬ idle → reply.state? = some prior) := by
  cases h with
  | refused hrefused => exact ⟨fun h => absurd hrefused h.1, fun _ => rfl⟩
  | idle hrefused hidle => exact ⟨fun _ => rfl, fun h => absurd ⟨hrefused, hidle⟩ h⟩
  | unwritten hrefused hidle => exact ⟨fun h => absurd h.2 hidle, fun _ => rfl⟩
  | written hrefused hidle hname hwrite =>
      exact absurd ⟨_, List.mem_cons_self, hwrite.isWrite, Answered.not_failed_ok _⟩ hwritten
  | looked hread => exact nomatch hread
  | deleted hdelete => exact nomatch hdelete

/-- **After an accepted write the state is what was read back**, or the plan when nothing
    could be. -/
theorem Course.state_of_written (h : Course r demand calls reply)
    (hwritten : WriteAccepted calls) :
    ∃ name, demand.name? r = some name ∧
      ((∃ state, ∃ a ∈ calls, Looked r name (demand.under r) a (.found state) ∧
          reply.state? = some state) ∨
        (∀ a ∈ calls, ∀ state, ¬ Looked r name (demand.under r) a (.found state)) ∧
          reply.state? = some (demand.under r)) := by
  cases h with
  | refused | idle =>
      obtain ⟨a, ha, -⟩ := hwritten
      exact nomatch ha
  | unwritten =>
      obtain ⟨a, ha, -, haccepted⟩ := hwritten
      obtain rfl := List.mem_singleton.mp ha
      exact absurd (Answered.failed_error _) haccepted
  | @written name write result look fetched reports hrefused hidle hname hwrite herror
      hlooked =>
      refine ⟨name, hname, ?_⟩
      cases fetched with
      | found state =>
          exact .inl ⟨state, look, List.mem_cons_of_mem _ List.mem_cons_self, hlooked, rfl⟩
      | gone | failed =>
          refine .inr ⟨fun a ha state hfound => ?_, rfl⟩
          obtain rfl | ha := List.mem_cons.mp ha
          · exact not_looked_of_isWrite hwrite.isWrite hfound
          · obtain rfl := List.mem_singleton.mp ha
            have hbad := hlooked.failed_or_cannotRead_iff.mpr (fun _ h => nomatch h)
            exact hfound.failed_or_cannotRead_iff.mp hbad state rfl
  | @looked current name look fetched hread hname hlooked =>
      obtain ⟨a, ha, hwrite, -⟩ := hwritten
      obtain rfl := List.mem_singleton.mp ha
      exact absurd hlooked (not_looked_of_isWrite hwrite)
  | deleted =>
      obtain ⟨a, ha, hwrite, -⟩ := hwritten
      obtain rfl := List.mem_singleton.mp ha
      exact nomatch hwrite

end Courses

/-! ## Faithful replies -/

/-- A reply says what happened in the calls of a demand. -/
structure Faithful (r : Resource) (demand : Demand) (calls : List Answered) (reply : Reply) :
    Prop where
  /-- An error is reported if and only if something went wrong. -/
  error_iff : Diagnostic.anyError reply.reports = true ↔
    demand.Refused r ∨ (∃ a ∈ calls, a.Failed ∧ ¬ demand.Forgives a) ∨
      ∃ name, demand.name? r = some name ∧
        ∃ a ∈ calls, r.CannotRead name (demand.under r) a
  /-- A read loses the state of an object that is gone, and that only. -/
  read : ∀ current, demand = .read current →
    (reply.state? = none ↔ ∃ a ∈ calls, a.NotFound) ∧
      (Diagnostic.anyError reply.reports = true → reply.state? = some current) ∧
        (Diagnostic.anyError reply.reports = false → ∀ state, reply.state? = some state →
          ∃ name, objectName current = some name ∧
            ∃ a ∈ calls, Looked r name current a (.found state))
  /-- A create answers with the plan until its write is accepted. -/
  unmade : ∀ planned, demand = .create planned → ¬ WriteAccepted calls →
    reply.state? = some (r.filled planned)
  /-- An update that had nothing to write answers with the plan, and every other with the
      prior state, until its write is accepted. -/
  unchanged : ∀ prior planned changes, demand = .update prior planned changes →
    ¬ WriteAccepted calls →
      let idle := ¬ demand.Refused r ∧ r.NothingToSend (r.filled planned) changes
      (idle → reply.state? = some (r.filled planned)) ∧
        (¬ idle → reply.state? = some prior)
  /-- After an accepted write the state is what was read back, or else the plan. -/
  written : WriteAccepted calls → ∃ name, demand.name? r = some name ∧
    ((∃ state, ∃ a ∈ calls, Looked r name (demand.under r) a (.found state) ∧
        reply.state? = some state) ∨
      (∀ a ∈ calls, ∀ state, ¬ Looked r name (demand.under r) a (.found state)) ∧
        reply.state? = some (demand.under r))

/-- **A demand that takes its course is answered faithfully.** -/
theorem Course.faithful {r : Resource} {demand : Demand} {calls : List Answered}
    {reply : Reply} (h : Course r demand calls reply) : Faithful r demand calls reply where
  error_iff := h.error_iff
  read := fun _ hread => Course.state_of_read (hread ▸ h)
  unmade := fun _ hcreate => Course.state_of_unmade (hcreate ▸ h)
  unchanged := fun _ _ _ hupdate => by
    subst hupdate
    exact h.state_of_unchanged
  written := h.state_of_written

/-- **Every reply of a connected manager is faithful**, whatever the server answers. -/
theorem reply_of_demand {σ : Type} {m : Manager} (hm : m.connected = true) (demand : Demand)
    (server : Server σ) (s : σ) :
    Faithful m.resource demand ((m.handle demand).history server s)
      ((m.handle demand).run server s).1 :=
  (m.course hm demand server s).faithful

/-- A zone that is not there is lost to a read, without an error. -/
theorem reply_to_read_of_missing :
    let m : Manager := ⟨Catalog.dnsZone, true⟩
    let demand := Demand.read (.map [("name", .string "a.example")])
    let reply := ((m.handle demand).run Store.serve Store.empty).1
    m.connected = true ∧ reply.state? = none ∧
      Diagnostic.anyError reply.reports = false := by
  intro m demand reply
  have hfaithful := reply_of_demand (m := m) rfl demand Store.serve Store.empty
  have hgone : reply.state? = none :=
    (hfaithful.read _ rfl).1.mpr ⟨_, List.mem_cons_self, _, rfl, rfl⟩
  refine ⟨rfl, hgone, Bool.not_eq_true _ ▸ fun herror => ?_⟩
  exact nomatch hgone.symm.trans ((hfaithful.read _ rfl).2.1 herror)

end TrafficConfig
