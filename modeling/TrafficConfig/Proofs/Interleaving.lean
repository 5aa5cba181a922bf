import TrafficConfig.Catalog
import TrafficConfig.Proofs.Apart
import TrafficConfig.Proofs.Calls

/-!
# Operations on a shared server

Two operations share a server, and their calls come in any order:

* **`Operation.Interleaved`** — whichever of them is not done may make the next call;
* **`Operation.inTurn`** — one of them after the other;
* **`Operation.Apart`** — none of them calls about an object of the other. Every call keeps
  it so (**`Apart.left`**, **`Apart.right`**);
* **`Operation.Passes`** — a call about another object may come before an operation as well
  as after it (**`passes_of_apart`**).

So every interleaving of operations that are apart ends as if they had run in turn
(**`Interleaved.eq_inTurn`**). Demands on different objects are apart, since every call of a
demand is about its own object (**`Manager.address_of_called`**).
-/

namespace TrafficConfig

namespace Operation

section Shared

variable {σ α β κ : Type} {server : Server σ} {part : σ → Address → κ}

/-- Two operations share a server until both are done: what they bring, and what the server
    holds then. -/
inductive Interleaved (server : Server σ) :
    σ → Operation α → Operation β → α → β → σ → Prop
  | done (s : σ) (a : α) (b : β) : Interleaved server s (.done a) (.done b) a b s
  /-- The first one makes its next call. -/
  | left {s t : σ} {c : Call} {next : c.Answer → Operation α} {q : Operation β} {a : α} {b : β}
      (h : Interleaved server (server s c).2 (next (server s c).1) q a b t) :
      Interleaved server s (.call c next) q a b t
  /-- The second one makes its next call. -/
  | right {s t : σ} {c : Call} {p : Operation α} {next : c.Answer → Operation β} {a : α}
      {b : β} (h : Interleaved server (server s c).2 p (next (server s c).1) a b t) :
      Interleaved server s p (.call c next) a b t

/-- One operation after the other: what they bring, and what the server holds then. -/
def inTurn (server : Server σ) (s : σ) (p : Operation α) (q : Operation β) : α × β × σ :=
  let (a, s') := p.run server s
  let (b, t) := q.run server s'
  (a, b, t)

/-- Who is called first does not matter for what an interleaving is. -/
theorem Interleaved.symm {s t : σ} {p : Operation α} {q : Operation β} {a : α} {b : β}
    (h : Interleaved server s p q a b t) : Interleaved server s q p b a t := by
  induction h with
  | done s a b => exact .done s b a
  | left h ih => exact .right ih
  | right h ih => exact .left ih

/-- To run in turn is one way to share a server. -/
theorem interleaved_inTurn (server : Server σ) (s : σ) (p : Operation α)
    (q : Operation β) :
    Interleaved server s p q (inTurn server s p q).1 (inTurn server s p q).2.1
      (inTurn server s p q).2.2 := by
  induction p generalizing s with
  | call c next ih => exact .left (ih _ _)
  | done a =>
      induction q generalizing s with
      | call c next ih => exact .right (ih _ _)
      | done b => exact .done s a b

/-! ## Calls about other objects -/

/-- A call may come before an operation as well as after it. -/
structure Passes (server : Server σ) (s : σ) (c : Call) (p : Operation α) : Prop where
  answer : (server (p.run server s).2 c).1 = (server s c).1
  result : (p.run server (server s c).2).1 = (p.run server s).1
  state : (p.run server (server s c).2).2 = (server (p.run server s).2 c).2
  history : p.history server (server s c).2 = p.history server s

/-- **A call may come before an operation as well as after it** if all that the operation
    calls about are other objects. -/
theorem passes_of_apart (hsplits : server.Splits part) {c : Call} {p : Operation α} {s : σ}
    (hother : ∀ x ∈ p.history server s, x.call.address ≠ c.address) :
    Passes server s c p := by
  induction p generalizing s with
  | done a => exact ⟨rfl, rfl, rfl, rfl⟩
  | call d next ih =>
      rw [history_call, List.forall_mem_cons] at hother
      obtain ⟨hhead, hrest⟩ := hother
      -- the call changes places with the first one of the operation
      have hanswer : (server (server s c).2 d).1 = (server s d).1 :=
        hsplits.answer_after s hhead
      have hstate : (server (server s c).2 d).2 = (server (server s d).2 c).2 :=
        hsplits.state_comm s hhead.symm
      have hpasses := ih (server s d).1 hrest
      constructor
      · rw [run_call, hpasses.answer]
        exact hsplits.answer_after s hhead.symm
      · rw [run_call, run_call, hanswer, hstate]
        exact hpasses.result
      · rw [run_call, run_call, hanswer, hstate]
        exact hpasses.state
      · rw [history_call, history_call, hanswer, hstate, hpasses.history]

/-- No call of one operation is about an object that the other one calls about. -/
def Apart (server : Server σ) (s : σ) (p : Operation α) (q : Operation β) : Prop :=
  ∀ x ∈ p.history server s, ∀ y ∈ q.history server s, x.call.address ≠ y.call.address

/-- Being apart is mutual. -/
theorem Apart.symm {s : σ} {p : Operation α} {q : Operation β}
    (h : Apart server s p q) : Apart server s q p :=
  fun y hy x hx => (h x hx y hy).symm

/-- The next call of the first operation passes the second one. -/
theorem Apart.passes (hsplits : server.Splits part) {s : σ} {c : Call}
    {next : c.Answer → Operation α} {q : Operation β}
    (h : Apart server s (.call c next) q) : Passes server s c q := by
  apply passes_of_apart hsplits
  intro y hy
  exact (h ⟨c, (server s c).1⟩ List.mem_cons_self y hy).symm

/-- A call of the first operation keeps operations apart. -/
theorem Apart.left (hsplits : server.Splits part) {s : σ} {c : Call}
    {next : c.Answer → Operation α} {q : Operation β}
    (h : Apart server s (.call c next) q) :
    Apart server (server s c).2 (next (server s c).1) q := by
  intro x hx y hy
  rw [(h.passes hsplits).history] at hy
  exact h x (List.mem_cons_of_mem _ hx) y hy

/-- A call of the second operation keeps operations apart. -/
theorem Apart.right (hsplits : server.Splits part) {s : σ} {c : Call} {p : Operation α}
    {next : c.Answer → Operation β} (h : Apart server s p (.call c next)) :
    Apart server (server s c).2 p (next (server s c).1) :=
  (h.symm.left hsplits).symm

/-- A call that passes the first operation may as well come before both. -/
theorem Passes.inTurn_eq {s : σ} {c : Call} {p : Operation α}
    {next : c.Answer → Operation β} (h : Passes server s c p) :
    inTurn server s p (.call c next) =
      inTurn server (server s c).2 p (next (server s c).1) := by
  simp only [inTurn, run_call]
  rw [h.answer, h.result, h.state]

/-- **Operations that are apart end as if they had run in turn**, however their calls are
    interleaved. -/
theorem Interleaved.eq_inTurn (hsplits : server.Splits part) {s t : σ} {p : Operation α}
    {q : Operation β} {a : α} {b : β} (h : Interleaved server s p q a b t)
    (hapart : Apart server s p q) : inTurn server s p q = (a, b, t) := by
  induction h with
  | done s a b => rfl
  | left h ih => exact ih (hapart.left hsplits)
  | right h ih =>
      rw [(hapart.symm.passes hsplits).inTurn_eq]
      exact ih (hapart.right hsplits)

end Shared

end Operation

/-! ## Demands -/

/-- Every call of a demand is about the object with its name. -/
theorem Manager.address_of_called {σ : Type} (m : Manager) (demand : Demand)
    (server : Server σ) (s : σ) :
    ∀ x ∈ (m.handle demand).history server s, ∃ name,
      demand.name? m.resource = some name ∧ x.call.address = m.resource.address name := by
  intro x hx
  cases hm : m.connected with
  | false =>
      rw [history_of_not_connected hm] at hx
      exact nomatch hx
  | true =>
      obtain ⟨-, hnone⟩ | ⟨-, name, hname, hperforms⟩ := (m.course hm demand server s).calls
      · rw [hnone] at hx
        exact nomatch hx
      · exact ⟨name, hname, hperforms.address_eq x hx⟩

/-- The names that two demands have do not stand for the same object. A demand without a
    name has no object at all. -/
def OnDifferentObjects (m₁ m₂ : Manager) (d₁ d₂ : Demand) : Prop :=
  ∀ n₁ n₂, d₁.name? m₁.resource = some n₁ → d₂.name? m₂.resource = some n₂ →
    m₁.resource.address n₁ ≠ m₂.resource.address n₂

open Operation

/-- Demands on different objects are apart, whatever the server. -/
theorem OnDifferentObjects.apart {σ : Type} {m₁ m₂ : Manager} {d₁ d₂ : Demand}
    (h : OnDifferentObjects m₁ m₂ d₁ d₂) (server : Server σ) (s : σ) :
    Apart server s (m₁.handle d₁) (m₂.handle d₂) := by
  intro x hx y hy
  obtain ⟨n₁, hn₁, hxaddress⟩ := m₁.address_of_called d₁ server s x hx
  obtain ⟨n₂, hn₂, hyaddress⟩ := m₂.address_of_called d₂ server s y hy
  rw [hxaddress, hyaddress]
  exact h n₁ n₂ hn₁ hn₂

/-- **Demands on different objects do not interfere.** Two demands, to managers of any
    resource types, share a store in which calls may fail. However their calls are
    interleaved, both replies and all that the store keeps are the same as when one demand is
    met after the other, whichever of them comes first. -/
theorem interleaved_demands {m₁ m₂ : Manager} {d₁ d₂ : Demand}
    (hdifferent : OnDifferentObjects m₁ m₂ d₁ d₂) {s t : FailingStore} {a b : Reply}
    (h : Interleaved FailingStore.serve s (m₁.handle d₁) (m₂.handle d₂) a b t) :
    inTurn FailingStore.serve s (m₁.handle d₁) (m₂.handle d₂) = (a, b, t) ∧
      inTurn FailingStore.serve s (m₂.handle d₂) (m₁.handle d₁) = (b, a, t) := by
  have hapart : Apart FailingStore.serve s (m₁.handle d₁) (m₂.handle d₂) :=
    hdifferent.apart FailingStore.serve s
  constructor
  · exact h.eq_inTurn FailingStore.splits hapart
  · exact h.symm.eq_inTurn FailingStore.splits hapart.symm

section ZoneAndRule

open Catalog

private def zones : Manager := ⟨dnsZone, true⟩

private def rules : Manager := ⟨rule, true⟩

/-- A zone to be made, with the name of a rule. -/
private def madeZone : Demand := .create (.map [
  ("name", .string "a"), ("origin", .string "a.example"), ("zone_file", .string "a.db")])

private def droppedRule : Demand := .delete (.map [("name", .string "a")])

/-- A store with the rule, which loses the second call about the zone. -/
private def shaky : FailingStore where
  store := Store.empty.putText (rule.address "a") "log.info();"
  faults a := if a = dnsZone.address "a" then [none, some .unavailable] else []

/-- A rule is dropped between the write of a zone and the failing look at it. -/
theorem rule_dropped_beside_zone :
    OnDifferentObjects zones rules madeZone droppedRule ∧
      ∃ a b t, Interleaved FailingStore.serve shaky (zones.handle madeZone)
          (rules.handle droppedRule) a b t ∧
        a.reports.length = 1 ∧ b.reports.length = 0 ∧
          inTurn FailingStore.serve shaky (zones.handle madeZone)
            (rules.handle droppedRule) = (a, b, t) ∧
          inTurn FailingStore.serve shaky (rules.handle droppedRule)
            (zones.handle madeZone) = (b, a, t) := by
  have hdifferent : OnDifferentObjects zones rules madeZone droppedRule := by
    intro n₁ n₂ _ _ heq
    have hcollection : dnsZone.collection = rule.collection :=
      congrArg Address.collection heq
    exact absurd hcollection (by decide)
  obtain ⟨a, b, t, h, hzone, hrule⟩ : ∃ a b t,
      Interleaved FailingStore.serve shaky (zones.handle madeZone)
        (rules.handle droppedRule) a b t ∧ a.reports.length = 1 ∧ b.reports.length = 0 :=
    ⟨_, _, _, .left (.right (.left (.done _ _ _))), rfl, rfl⟩
  exact ⟨hdifferent, a, b, t, h, hzone, hrule, interleaved_demands hdifferent h⟩

end ZoneAndRule

end TrafficConfig
