import TrafficConfig.Api.Store
import TrafficConfig.Proofs.History
import TrafficConfig.Proofs.Layout
import TrafficConfig.Proofs.Refresh

/-!
# Applying plans converges

An object is made, and then changed and read in any order, on a store that may let any
call fail:

* **`Keeps`** — the store keeps a state: the state is well-formed and saturated, and the
  stored document mirrors it;
* **`create_outcome`**, **`update_outcome`**, **`read_outcome`** — an operation that takes
  effect brings the plan with its defaults, any other one leaves the state, and the store
  keeps the state in every case. A read that is answered brings the state again;
* **`Session.run_keeps`** — so the store keeps the last state throughout a run, and
  **`applying_converges`** puts it all together.
-/

namespace TrafficConfig

open Value ChangeSet

/-! ## Calls to a store -/

/-- A create or an update that was accepted. -/
def Answered.writes : Answered → Bool
  | ⟨.create _ _, .ok _⟩ => true
  | ⟨.update _ _, .ok _⟩ => true
  | _ => false

/-- Some write was accepted. -/
def Accepted (history : List Answered) : Prop := ∃ a ∈ history, a.writes = true

/-- A plan takes effect: its write is accepted, or nothing is called and nothing is
    wrong. -/
def TakesEffect (server : FaultyStore) (op : Operation Applied) : Prop :=
  Accepted (op.history FaultyStore.serve server) ∨
    (op.history FaultyStore.serve server = [] ∧
      Diagnostic.anyError (op.run FaultyStore.serve server).1.reports = false)

section Calls

variable {server : FaultyStore} {a : Address}

private theorem serve_cases (server : FaultyStore) (c : Call) :
    (∃ reason, (FaultyStore.serve server c).1 = .error reason ∧
      (FaultyStore.serve server c).2.store = server.store) ∨
      ((FaultyStore.serve server c).1 = (server.store.serve c).1 ∧
        (FaultyStore.serve server c).2.store = (server.store.serve c).2) := by
  rw [FaultyStore.serve]
  cases server.faults.head?.join with
  | some e => exact .inl ⟨e, rfl, rfl⟩
  | none => exact .inr ⟨rfl, rfl⟩

private theorem store_create {payload : Json}
    (h : Resource.refusal? (FaultyStore.serve server (.create a payload)).1 = none) :
    (FaultyStore.serve server (.create a payload)).2.store.document? a =
      some (mergeDocument emptyDocument payload) := by
  rcases serve_cases server (.create a payload) with ⟨reason, herror, -⟩ | ⟨-, hstore⟩
  · rw [herror] at h
    exact nomatch h
  · rw [hstore]
    exact Store.document?_putDocument _ _ _

private theorem store_update {document : Json}
    (hdocument : server.store.document? a = some document) (payload : Json) :
    ((∃ reason,
        Resource.refusal? (FaultyStore.serve server (.update a payload)).1 = some reason) ∧
        (FaultyStore.serve server (.update a payload)).2.store = server.store) ∨
      (Resource.refusal? (FaultyStore.serve server (.update a payload)).1 = none ∧
        (FaultyStore.serve server (.update a payload)).2.store.document? a =
          some (mergeDocument document payload)) := by
  rcases serve_cases server (.update a payload)
      with ⟨reason, herror, hstore⟩ | ⟨hanswer, hstore⟩
  · left
    rw [herror]
    exact ⟨⟨reason, rfl⟩, hstore⟩
  · right
    have hserve : server.store.serve (.update a payload) =
        (.ok (mergeDocument document payload),
          server.store.putDocument a (mergeDocument document payload)) := by
      rw [Store.serve, hdocument]
    rw [hanswer, hstore, hserve]
    exact ⟨rfl, Store.document?_putDocument _ _ _⟩

private theorem store_get {document : Json}
    (hdocument : server.store.document? a = some document) :
    (FaultyStore.serve server (.get a)).2.store = server.store ∧
      ((∃ reason, (FaultyStore.serve server (.get a)).1 = .error reason) ∨
        (FaultyStore.serve server (.get a)).1 = .ok document) := by
  have hserve : server.store.serve (.get a) = (.ok document, server.store) := by
    rw [Store.serve, hdocument]
  rcases serve_cases server (.get a) with ⟨reason, herror, hstore⟩ | ⟨hanswer, hstore⟩
  · exact ⟨hstore, .inl ⟨reason, herror⟩⟩
  · rw [hserve] at hanswer hstore
    exact ⟨hstore, .inr hanswer⟩

end Calls

/-! ## The state that a store keeps -/

/-- A store keeps a state of an object: the state is well-formed, has all defaults, and is
    what the document says. -/
structure Keeps (r : Resource) (sections : List Section) (name : String) (store : Store)
    (root : Assoc Value) : Prop where
  wellFormed : WellFormed sections name root
  saturated : r.schema.block.Saturated root
  mirrored : ∃ document, store.document? (r.address name) = some document ∧
    Mirrors sections document root

section Outcomes

variable {r : Resource} {sections : List Section} {name : String}
  {root planned : Assoc Value} {server : FaultyStore} {store : Store}

/-- A store keeps all states that are equal. -/
theorem Keeps.of_sameEntries (h : Keeps r sections name store root) {rs : Assoc Value}
    (hrs : NaNFree (.map rs)) (hs : sameEntries equals rs root = true) :
    Keeps r sections name store rs where
  wellFormed := h.wellFormed.of_sameEntries hrs hs
  saturated := h.saturated.of_sameEntries hrs h.wellFormed.plain.nanFree hs
  mirrored := by
    obtain ⟨document, hdocument, hmirrors⟩ := h.mirrored
    exact ⟨document, hdocument, hmirrors.of_sameEntries h.wellFormed.plain.nanFree hrs hs⟩

/-- Whether a store keeps an object depends on the document of the object alone. -/
theorem Keeps.of_document? (h : Keeps r sections name store root) {store' : Store}
    (hstore : store'.document? (r.address name) = store.document? (r.address name)) :
    Keeps r sections name store' root where
  wellFormed := h.wellFormed
  saturated := h.saturated
  mirrored := hstore ▸ h.mirrored

/-- A plain root has the same entries as itself. -/
theorem sameEntries_refl (h : Plain (.map root)) : sameEntries equals root root = true :=
  equals_congruence.sameEntries.refl (everywhere_map.mp h.nanFree).2

variable (hc : r.content = .document sections) (hreg : Regular sections)
  (hagrees : r.schema.block.agrees (sections.flatMap Section.rootFields) = true)

include hreg in
/-- A look at an object whose state the store keeps brings the state again, unless the
    look fails. -/
theorem lookedAt_of_keeps (h : Keeps r sections name server.store root) :
    (FaultyStore.serve server (.get (r.address name))).2.store = server.store ∧
      ((∃ reason, (FaultyStore.serve server (.get (r.address name))).1 = .error reason) ∨
        ∃ state, r.lookedAt sections name (.map root)
          (FaultyStore.serve server (.get (r.address name))).1 = .found (.map state) ∧
          sameEntries equals state root = true ∧
            Keeps r sections name server.store state) := by
  obtain ⟨document, hdocument, hmirrors⟩ := h.mirrored
  obtain ⟨hstore, herror | hanswer⟩ := store_get hdocument
  · exact ⟨hstore, .inl herror⟩
  · refine ⟨hstore, .inr ?_⟩
    obtain ⟨state, hstate, hs, hnan⟩ := exists_stateOfDocument hreg h.wellFormed hmirrors
    refine ⟨state, ?_, hs, h.of_sameEntries hnan hs⟩
    rw [hanswer, Resource.lookedAt, hstate]

include hc hreg in
/-- After a write that was accepted, the state equals the plan, whatever comes of reading
    it back. -/
theorem settled_of_keeps (h : Keeps r sections name server.store root)
    (reports : List Diagnostic) :
    ∃ after, (r.settled name (.map root) reports
      ((r.fetch name (.map root)).run FaultyStore.serve server).1).state = .map after ∧
      sameEntries equals after root = true ∧
        Keeps r sections name
          ((r.fetch name (.map root)).run FaultyStore.serve server).2.store after := by
  rw [Resource.run_fetch hc]
  obtain ⟨hstore, ⟨reason, herror⟩ | ⟨state, hstate, hs, hkeeps⟩⟩ :=
    lookedAt_of_keeps hreg h
  · have hkept := h.of_document? (congrArg (fun s => s.document? (r.address name)) hstore)
    refine ⟨root, ?_, sameEntries_refl h.wellFormed.plain, hkept⟩
    rw [herror]
    show (r.settled name (.map root) reports (r.unfetched name reason)).state = _
    rw [Resource.unfetched]
    split <;> rfl
  · refine ⟨state, ?_, hs,
      hkeeps.of_document? (congrArg (fun s => s.document? (r.address name)) hstore)⟩
    rw [hstate]
    rfl

/-- A write is accepted when it is not refused. -/
theorem accepted_write_iff {action : String} {c : Call}
    (hwrites : ∀ answer, Answered.writes ⟨c, answer⟩ = (Resource.refusal? answer).isNone)
    {plan refused : Value} {reports : List Diagnostic} :
    Accepted ((r.write action name c plan refused reports).history
      FaultyStore.serve server) ↔
      Resource.refusal? (FaultyStore.serve server c).1 = none := by
  rw [Resource.history_write]
  constructor
  · rintro ⟨a, ha, hwrite⟩
    rcases List.mem_cons.mp ha with rfl | ha
    · rw [hwrites, Option.isNone_iff_eq_none] at hwrite
      exact hwrite
    · cases hrefusal : Resource.refusal? (FaultyStore.serve server c).1 with
      | none => rfl
      | some reason =>
          rw [hrefusal] at ha
          exact nomatch ha
  · intro hnone
    refine ⟨_, List.mem_cons_self, ?_⟩
    rw [hwrites, hnone]
    rfl

/-! ## Outcomes -/

/-- What comes of an update of an object whose state a store keeps. -/
inductive Outcome (r : Resource) (sections : List Section) (name : String)
    (server : FaultyStore) (root planned : Assoc Value) (op : Operation Applied) :
    Prop where
  /-- The plan takes effect, and the state is the plan with its defaults. -/
  | applied (after : Assoc Value) (effect : TakesEffect server op)
      (state : (op.run FaultyStore.serve server).1.state = .map after)
      (equal : sameEntries equals after (r.schema.block.applyDefaults planned) = true)
      (kept : Keeps r sections name (op.run FaultyStore.serve server).2.store after)
  /-- The plan takes no effect, and the state stays. -/
  | unchanged (noEffect : ¬TakesEffect server op)
      (state : (op.run FaultyStore.serve server).1.state = .map root)
      (kept : Keeps r sections name (op.run FaultyStore.serve server).2.store root)

include hc hreg hagrees in
/-- **A create that is accepted brings the plan with its defaults**, and the store keeps
    it. -/
theorem create_outcome (hplan : WellFormed sections name planned)
    (h : Accepted ((r.create (.map planned)).history FaultyStore.serve server)) :
    ∃ after, ((r.create (.map planned)).run FaultyStore.serve server).1.state = .map after ∧
      sameEntries equals after (r.schema.block.applyDefaults planned) = true ∧
        Keeps r sections name
          ((r.create (.map planned)).run FaultyStore.serve server).2.store after := by
  have hwf := hplan.applyDefaults hagrees
  obtain ⟨reports, -, hdone⟩ | ⟨name', payload, hname, hpayload, hwrite⟩ :=
    Resource.create_cases hc (.map planned)
  · -- what ends at once has made no call
    rw [hdone] at h
    obtain ⟨a, ha, -⟩ := h
    exact nomatch ha
  · obtain ⟨rfl, -⟩ : name = name' ∧ _ :=
      Option.filter_eq_some_iff.mp (hwf.objectName_eq.symm.trans hname) |>.imp_left
      (fun hsome => Option.some.inj hsome)
    rw [hwrite] at h ⊢
    have haccepted := (accepted_write_iff (fun answer => by cases answer <;> rfl)).mp h
    rw [Resource.run_write, haccepted]
    refine settled_of_keeps hc hreg ⟨hwf, saturated_applyDefaults hagrees planned, _,
      store_create haccepted, ?_⟩ _
    exact .create hreg hwf.plain hpayload

include hc hreg in
private theorem outcome_write (h : Keeps r sections name server.store root)
    (hwf : WellFormed sections name (r.schema.block.applyDefaults planned))
    (hsaturated : r.schema.block.Saturated (r.schema.block.applyDefaults planned))
    {document payload : Json}
    (hdocument : server.store.document? (r.address name) = some document)
    (hmirrors : Mirrors sections (mergeDocument document payload)
      (r.schema.block.applyDefaults planned))
    (reports : List Diagnostic) :
    Outcome r sections name server root planned
      (r.write "update" name (.update (r.address name) payload)
      (.map (r.schema.block.applyDefaults planned)) (.map root) reports) := by
  have hwrites : ∀ answer, Answered.writes ⟨.update (r.address name) payload, answer⟩ =
      (Resource.refusal? answer).isNone := by
    intro answer
    cases answer <;> rfl
  rcases store_update hdocument payload with ⟨⟨reason, hrefused⟩, hstore⟩
      | ⟨haccepted, hstore⟩
  · -- a write that is refused is not accepted, and it was called
    refine .unchanged ?_ ?_ ?_
    · rintro (haccepted | ⟨hnone, -⟩)
      · rw [accepted_write_iff hwrites, hrefused] at haccepted
        exact nomatch haccepted
      · rw [Resource.history_write] at hnone
        exact nomatch hnone
    · rw [Resource.run_write, hrefused]
    · rw [Resource.run_write, hrefused]
      exact h.of_document? (congrArg (fun s => s.document? (r.address name)) hstore)
  · have hkeeps : Keeps r sections name
        (FaultyStore.serve server (.update (r.address name) payload)).2.store
        (r.schema.block.applyDefaults planned) := ⟨hwf, hsaturated, _, hstore, hmirrors⟩
    obtain ⟨after, hstate, hs, hkept⟩ := settled_of_keeps hc hreg hkeeps reports
    refine .applied after (.inl ((accepted_write_iff hwrites).mpr haccepted)) ?_ hs ?_
    · rw [Resource.run_write, haccepted]
      exact hstate
    · rw [Resource.run_write, haccepted]
      exact hkept

include hc hreg hagrees in
/-- **An update that takes effect brings the plan with its defaults, any other one leaves
    the state.** The store keeps what is brought. -/
theorem update_outcome (h : Keeps r sections name server.store root)
    (hplan : WellFormed sections name planned) :
    Outcome r sections name server root planned
      (r.update (.map root) (.map planned) (between (.map root) (.map planned))) := by
  have hwf := hplan.applyDefaults hagrees
  have hsaturated := saturated_applyDefaults hagrees planned
  obtain ⟨document, hdocument, hmirrors⟩ := h.mirrored
  -- the change set is taken from the plan without its defaults
  have hchanges : ∀ q, (between (.map root) (.map planned)).hasChange q = false →
      Unchanged (getOrNull root q)
        (getOrNull (r.schema.block.applyDefaults planned) q) := by
    intro q hq
    have hknown : getOrNull (Value.map planned).root q ≠ .unknown :=
      (hplan.plain.getOrNull q).unknownFree.here
    have hunchanged : Unchanged (getOrNull root q) (getOrNull planned q) :=
      unchanged_of_not_hasChange hknown hq
    exact unchanged_applyDefaults hagrees h.wellFormed.plain hplan.plain h.saturated
      h.wellFormed.fits hunchanged
  -- whatever the update sends, the document mirrors the plan afterwards
  have hmirrors' : ∀ payload,
      updatePayload (.map (r.schema.block.applyDefaults planned)) sections
      (between (.map root) (.map planned)) = .ok payload →
        Mirrors sections ((payload.map (mergeDocument document)).getD document)
          (r.schema.block.applyDefaults planned) :=
    fun _ hpayload => hmirrors.update hreg h.wellFormed.plain.nanFree hwf.plain hchanges hpayload
  obtain ⟨reports, herror, hdone⟩
      | ⟨name', hname, hvalid, ⟨hpayload, hdone⟩ | ⟨payload, hpayload, hwrite⟩⟩ :=
    Resource.update_cases hc (.map root) (.map planned) (between (.map root) (.map planned))
  · rw [hdone]
    refine .unchanged ?_ rfl h
    rintro (⟨a, ha, -⟩ | ⟨-, hnone⟩)
    · exact nomatch ha
    · exact Bool.noConfusion (herror.symm.trans hnone)
  · rw [hdone]
    exact .applied _ (.inr ⟨rfl, hvalid⟩) rfl (sameEntries_refl hwf.plain)
      ⟨hwf, hsaturated, document, hdocument, hmirrors' none hpayload⟩
  · have hname' : name = name' := by
      have hplanName : objectName (r.schema.prepare (.map planned)).1 = _ :=
        hwf.objectName_eq
      rw [h.wellFormed.objectName_eq, hplanName, Option.or_self] at hname
      exact Option.some.inj (Option.filter_eq_some_iff.mp hname).1
    subst hname'
    rw [hwrite]
    exact outcome_write hc hreg h hwf hsaturated hdocument
      (hmirrors' (some payload) hpayload) _

include hc hreg in
/-- **A read that is answered brings the state again**, and the store keeps what is
    brought. -/
theorem read_outcome (h : Keeps r sections name server.store root) :
    ((r.read (.map root)).run FaultyStore.serve server).2.store = server.store ∧
      (((∀ a document, ⟨.get a, .ok document⟩ ∉ (r.read (.map root)).history
        FaultyStore.serve server) ∧
          ((r.read (.map root)).run FaultyStore.serve server).1.state?.getD
            (.map root) = .map root) ∨
        ∃ state, ((r.read (.map root)).run FaultyStore.serve server).1 =
          ⟨some (.map state), []⟩ ∧
          sameEntries equals state root = true ∧
            Keeps r sections name server.store state) := by
  obtain ⟨-, reports, hdone⟩ | ⟨name', hname, hread⟩ :=
    Resource.read_cases (r := r) (.map root)
  · rw [hdone]
    exact ⟨rfl, .inl ⟨fun _ _ ha => (nomatch ha), rfl⟩⟩
  · have hname' : name = name' := by
      rw [h.wellFormed.objectName_eq] at hname
      exact Option.some.inj (Option.filter_eq_some_iff.mp hname).1
    subst hname'
    rw [hread, Operation.run_map, Operation.history_map, Resource.run_fetch hc,
      Resource.history_fetch hc]
    obtain ⟨hstore, ⟨reason, herror⟩ | ⟨state, hstate, hs, hkept⟩⟩ :=
      lookedAt_of_keeps hreg h
    · refine ⟨hstore, .inl ⟨?_, ?_⟩⟩
      · intro a document ha
        rw [List.mem_singleton] at ha
        obtain ⟨hcall, hanswer⟩ := Answered.mk.inj ha
        obtain rfl := Call.get.inj hcall
        rw [herror] at hanswer
        exact nomatch eq_of_heq hanswer
      · rw [herror]
        show (Resource.refreshed (.map root) (r.unfetched name reason)).state?.getD
          (.map root) = .map root
        rw [Resource.unfetched]
        split <;> rfl
    · refine ⟨hstore, .inr ⟨state, ?_, hs, hkept⟩⟩
      rw [hstate]
      rfl

end Outcomes

/-! ## Runs -/

/-- What is done to an object after it was made. -/
inductive Event where
  | update (planned : Assoc Value)
  | read

/-- A store, and the last state of an object on it. -/
structure Session where
  server : FaultyStore
  state : Value

namespace Session

/-- An object is made. -/
def start (r : Resource) (server : FaultyStore) (planned : Assoc Value) : Session :=
  let outcome := (r.create (.map planned)).run FaultyStore.serve server
  ⟨outcome.2, outcome.1.state⟩

/-- An update to a plan, by the change set between the last state and the plan. -/
def updateTo (x : Session) (r : Resource) (planned : Assoc Value) : Operation Applied :=
  r.update x.state (.map planned) (between x.state (.map planned))

/-- One event. The last state stays when a read brings none. -/
def step (r : Resource) (x : Session) : Event → Session
  | .update planned =>
    let outcome := (x.updateTo r planned).run FaultyStore.serve x.server
    ⟨outcome.2, outcome.1.state⟩
  | .read =>
    let outcome := (r.read x.state).run FaultyStore.serve x.server
    ⟨outcome.2, outcome.1.state?.getD x.state⟩

/-- Events, one after the other. -/
def run (r : Resource) (x : Session) (events : List Event) : Session :=
  events.foldl (step r) x

/-- The store keeps the last state. -/
def Kept (r : Resource) (sections : List Section) (name : String) (x : Session) : Prop :=
  ∃ root, x.state = .map root ∧ Keeps r sections name x.server.store root

section Kept

variable {r : Resource} {sections : List Section} {name : String} {x : Session}
  (hc : r.content = .document sections) (hreg : Regular sections)
  (hagrees : r.schema.block.agrees (sections.flatMap Section.rootFields) = true)

include hc hreg hagrees in
/-- The store keeps the last state through one event. -/
theorem step_keeps (h : x.Kept r sections name) {event : Event}
    (hevent : ∀ planned, event = .update planned → WellFormed sections name planned) :
    (x.step r event).Kept r sections name := by
  obtain ⟨server, state⟩ := x
  obtain ⟨root, rfl, hkeeps⟩ := h
  cases event with
  | update planned =>
      cases update_outcome hc hreg hagrees hkeeps (hevent planned rfl) with
      | applied after effect state equal kept => exact ⟨after, state, kept⟩
      | unchanged noEffect state kept => exact ⟨root, state, kept⟩
  | read =>
      obtain ⟨hstore, ⟨-, hstate⟩ | ⟨after, hread, -, kept⟩⟩ := read_outcome hc hreg hkeeps
      · exact ⟨root, hstate,
          hkeeps.of_document? (congrArg (fun s => s.document? (r.address name)) hstore)⟩
      · refine ⟨after, ?_,
          kept.of_document? (congrArg (fun s => s.document? (r.address name)) hstore)⟩
        show (((r.read (.map root)).run FaultyStore.serve server).1.state?.getD
          (.map root)) = .map after
        rw [hread]
        rfl

include hc hreg hagrees in
/-- **The store keeps the last state throughout a run.** -/
theorem run_keeps (h : x.Kept r sections name) {events : List Event}
    (hevents : ∀ planned, .update planned ∈ events → WellFormed sections name planned) :
    (x.run r events).Kept r sections name := by
  induction events generalizing x with
  | nil => exact h
  | cons event rest ih =>
      have hstep : (x.step r event).Kept r sections name := by
        refine step_keeps hc hreg hagrees h ?_
        intro planned hevent
        exact hevents planned (hevent ▸ List.mem_cons_self)
      refine ih hstep ?_
      intro planned hmem
      exact hevents planned (List.mem_cons_of_mem event hmem)

end Kept

end Session

/-- **Applying plans converges.** An object of the catalog that is a document was made by
    a create that the store accepted, and was updated and read any number of times since
    then; any call may have failed. The create brought its plan with all defaults. An
    update brings its plan with all defaults when it is accepted or needs no write, and
    leaves the last state otherwise; and a read that is answered brings a state that
    equals the last one. -/
theorem applying_converges {r : Resource} (hr : r ∈ Catalog.resources)
    {sections : List Section} (hc : r.content = .document sections) {name : String}
    {first : Assoc Value} (hfirst : WellFormed sections name first) {server : FaultyStore}
    (haccepted : Accepted ((r.create (.map first)).history FaultyStore.serve server))
    {events : List Event}
    (hevents : ∀ planned, .update planned ∈ events → WellFormed sections name planned) :
    let start := Session.start r server first
    let x := start.run r events
    start.state.equals (.map (r.schema.block.applyDefaults first)) = true ∧
      (∀ planned, WellFormed sections name planned →
        let applied := ((x.updateTo r planned).run FaultyStore.serve x.server).1
        (TakesEffect x.server (x.updateTo r planned) →
            applied.state.equals (.map (r.schema.block.applyDefaults planned)) = true) ∧
          (¬TakesEffect x.server (x.updateTo r planned) → applied.state = x.state)) ∧
      ∀ address document,
        ⟨.get address, .ok document⟩ ∈ (r.read x.state).history FaultyStore.serve x.server →
        ∃ state, ((r.read x.state).run FaultyStore.serve x.server).1 = ⟨some state, []⟩ ∧
          state.equals x.state = true := by
  intro start x
  have hreg := Catalog.regular hr hc
  have hagrees := Catalog.agrees hr hc
  obtain ⟨after, hstate, hs, hkept⟩ := create_outcome hc hreg hagrees hfirst haccepted
  have hx : x.Kept r sections name :=
    Session.run_keeps hc hreg hagrees ⟨after, hstate, hkept⟩ hevents
  obtain ⟨root, hroot, hkeeps⟩ := hx
  refine ⟨?_, ?_, ?_⟩
  · show ((r.create (.map first)).run FaultyStore.serve server).1.state.equals _ = true
    rw [hstate, equals_map]
    exact hs
  · intro planned hplanned
    have houtcome := update_outcome hc hreg hagrees hkeeps hplanned
    rw [Session.updateTo]
    rw [hroot]
    cases houtcome with
    | applied after effect state equal kept =>
        refine ⟨?_, fun hnot => absurd effect hnot⟩
        intro _
        rw [state, equals_map]
        exact equal
    | unchanged noEffect state kept =>
        exact ⟨fun heffect => absurd heffect noEffect, fun _ => state⟩
  · intro address document hanswered
    rw [hroot] at hanswered ⊢
    obtain ⟨-, ⟨hnone, -⟩ | ⟨state, hread, hsame, -⟩⟩ := read_outcome hc hreg hkeeps
    · exact absurd hanswered (hnone address document)
    · refine ⟨.map state, hread, ?_⟩
      rw [equals_map]
      exact hsame

section Zone

open Catalog

private def zone (origin : String) : Assoc Value :=
  [("name", .string "zone"), ("origin", .string origin), ("zone_file", .string "records")]

private theorem wellFormed_zone {origin : String} (h : Plain (.map (zone origin))) :
    WellFormed [Dns.basic] "zone" (zone origin) where
  plain := h
  named := rfl
  fits := by
    have hstring : ("string" : String) ≠ "list" ∧ "string" ≠ "set" := by decide
    exact ⟨hstring, hstring, trivial⟩
  blocks := by simp [Dns.basic, Section.topLevel]

/-- The look at a new zone fails. -/
private def unsteady : FaultyStore := ⟨.empty, [none, some .unavailable], []⟩

/-- A zone is made, but cannot be read back; then it is moved to another origin, and a
    read brings the state again. -/
theorem zone_converges :
    let x := (Session.start dnsZone unsteady (zone "a.example")).run dnsZone
        [.update (zone "b.example")]
    ∃ state, ((dnsZone.read x.state).run FaultyStore.serve x.server).1 = ⟨some state, []⟩ ∧
      state.equals x.state = true := by
  intro x
  have haccepted : Accepted
      ((dnsZone.create (.map (zone "a.example"))).history FaultyStore.serve unsteady) :=
    ⟨_, List.mem_cons_self, rfl⟩
  have hevents : ∀ planned, Event.update planned ∈ [Event.update (zone "b.example")] →
      WellFormed [Dns.basic] "zone" planned := by
    intro planned hmem
    obtain rfl := Event.update.inj (List.mem_singleton.mp hmem)
    exact wellFormed_zone (by decide)
  have hfirst : WellFormed [Dns.basic] "zone" (zone "a.example") :=
    wellFormed_zone (by decide)
  have hread := (applying_converges (r := dnsZone) (by simp [resources]) rfl hfirst
      haccepted hevents).2.2
  exact hread (dnsZone.address "zone")
    (propertiesDocument [("basic", .object [("origin", .string "b.example"),
    ("zone_file", .string "records")])]) List.mem_cons_self

end Zone

end TrafficConfig
