import TrafficConfig.Proofs.Demands
import TrafficConfig.Proofs.Documents
import TrafficConfig.Proofs.Texts

/-!
# Rules that are read as they were declared

A rule is declared as a list of lines, stored as one text, and read back as the lines of that
text:

* **`Server.KeepsTexts`** — a server gives back every text as it was put. A store does
  (**`Store.keepsTexts`**);
* **`Resource.run_create_of_keepsTexts`** — on such a server, a plan that can be written is
  answered with what its own text is read as;
* **`rule_restored_iff`** — so a rule can always be created, and it is restored if and only
  if its lines are those that a text gives back.
-/

namespace TrafficConfig

open Value

variable {σ : Type} {server : Server σ}

/-- A server takes every text, and gives it back as it was put. -/
def Server.KeepsTexts (server : Server σ) : Prop :=
  ∀ (s : σ) (a : Address) (body : String), (server s (.putText a body)).1 = .ok () ∧
    (server (server s (.putText a body)).2 (.getText a)).1 = .ok body

/-- The store keeps the texts that are put. -/
theorem Store.keepsTexts : Server.KeepsTexts Store.serve := fun store a body =>
  ⟨rfl, congrArg Prod.fst (store.serve_getText_putText a body)⟩

/-- **A valid plan that can be written as a text** is answered with what this text is read
    as, without reports. -/
theorem Resource.run_create_of_keepsTexts {r : Resource} {form : TextForm}
    (hc : r.content = .text form) (hserver : server.KeepsTexts) {planned plan : Value}
    (hprepared : r.schema.prepare planned = (plan, [])) {name body : String}
    (hname : objectName plan = some name)
    (hbody : form.encode (getOrNull plan.root form.attributeName) = .ok body) (s : σ) :
    ((r.create planned).run server s).1 = ⟨form.stateOf name body plan, []⟩ := by
  have hwrite : r.create planned =
      r.write "create" name (.putText (r.address name) body) plan plan [] := by
    unfold create
    rw [hprepared]
    simp only [hname, creation, hc, hbody]
    rfl
  obtain ⟨hput, hget⟩ := hserver s (r.address name) body
  rw [hwrite, run_write, hput]
  show r.settled name _ _ ((r.fetch name plan).run server _).1 = _
  simp only [fetch, hc, Operation.run_call, hget]
  rfl

namespace Catalog

/-- A rule with a name, declared as a list of lines. -/
def ruleOf (name : String) (ls : List String) : Value :=
  .map [("name", .string name), ("rule", .list (ls.map .string))]

/-- Every rule is valid, and nothing is filled in. -/
theorem prepare_ruleOf (name : String) (ls : List String) :
    rule.schema.prepare (ruleOf name ls) = (ruleOf name ls, []) := by
  have hlines : AttributeType.strings.accepts (.list (ls.map .string)) = true := by
    rw [AttributeType.strings, AttributeType.accepts, List.all_map, List.all_eq_true]
    exact fun _ _ => rfl
  -- the name is a text without conditions, and so is every line
  have hrule : (texts "rule" "The TrafficScript source, one element per line").require.validate []
      (ruleOf name ls).root = [] := if_pos hlines
  refine Prod.ext rfl ?_
  show ([] ++ ((texts "rule" "The TrafficScript source, one element per line").require.validate []
    (ruleOf name ls).root ++ [])) ++ [] = []
  rw [hrule]
  rfl

/-- **A rule can be created from any lines, and is restored from some**: on a server that
    gives texts back as they were put, a rule with a name is created without reports, and the
    state holds the lines that were declared if and only if none of them has a line feed,
    none before the last one ends with a carriage return, and the last one is not empty. -/
theorem rule_restored_iff (hserver : server.KeepsTexts) {name : String} (hname : name ≠ "")
    (ls : List String) (s : σ) :
    ∃ restored, ((rule.create (ruleOf name ls)).run server s).1 = ⟨ruleOf name restored, []⟩ ∧
      (restored = ls ↔ Text.Legible ls) := by
  have hnamed : objectName (ruleOf name ls) = some name := by
    show Option.filter _ (some name) = some name
    rw [Option.filter_some, if_pos]
    simpa using hname
  have hencode : ruleText.encode (.list (ls.map .string)) = .ok (Text.unlines ls) := by
    show (Value.toStrings (.list (ls.map .string))).map Text.unlines = _
    rw [toStrings_of_elements rfl]
    rfl
  refine ⟨Text.lines (Text.unlines ls), ?_, Text.lines_unlines_iff⟩
  exact Resource.run_create_of_keepsTexts rfl hserver (prepare_ruleOf name ls) hnamed hencode s

/-- A rule whose lines end with carriage returns. -/
private def returned : List String := ["http.redirect( url );\r", "break;\r"]

/-- It is created, and comes back without the first carriage return. -/
theorem rule_loses_return : "r" ≠ "" ∧ Server.KeepsTexts Store.serve ∧
    ∃ restored, ((rule.create (ruleOf "r" returned)).run Store.serve .empty).1 =
      ⟨ruleOf "r" restored, []⟩ ∧ restored ≠ returned := by
  have hname : "r" ≠ "" := by decide
  obtain ⟨restored, hrun, hiff⟩ := rule_restored_iff Store.keepsTexts hname returned .empty
  refine ⟨hname, Store.keepsTexts, restored, hrun, fun hsame => ?_⟩
  exact (hiff.mp hsame).ends "http.redirect( url );\r" List.mem_cons_self (by decide)

end Catalog

end TrafficConfig
