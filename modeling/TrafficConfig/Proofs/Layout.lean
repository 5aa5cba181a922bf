import TrafficConfig.Catalog
import TrafficConfig.Proofs.Defaults

/-!
# The layout of the catalog

What the tables of fields of the catalog have in common:

* **`Catalog.documents`** — the resource types that have documents, with their sections;
* **`Catalog.regular`** — names and remote names tell sections and fields apart, the keys of
  tables are sent, blocks are replaced as a whole, and no table is only read;
* **`Catalog.agrees`** — the defaults of a schema go to fields of its sections;
* **`Catalog.agrees_text`** — the types that have texts have no defaults.
-/

namespace TrafficConfig.Catalog

open ChangeSet

/-- The resource types that have documents, each with its sections. -/
def documents : List (Resource × List Section) := [
  (dnsZone, [Dns.basic]), (loadBalancing, LoadBalancing.sections),
    (sslClientKey, [SslKey.basic]),
  (sslServerKey, [SslKey.basic]), (trafficManager, TrafficManager.sections),
    (virtualServer, VirtualServer.sections)]

/-- Every document resource is listed with its sections. -/
theorem mem_documents {r : Resource} (hr : r ∈ resources) {sections : List Section}
    (hc : r.content = .document sections) : (r, sections) ∈ documents := by
  simp only [resources, List.mem_cons, List.not_mem_nil, or_false] at hr
  rcases hr with rfl | rfl | rfl | rfl | rfl | rfl | rfl | rfl
  -- rules and zone files are texts
  case inr.inl => exact nomatch hc
  case inr.inr.inr.inl => exact nomatch hc
  all_goals
    obtain rfl := Content.document.inj hc
    simp [documents]

/-- The sections of every document resource are regular. -/
theorem regular {r : Resource} (hr : r ∈ resources) {sections : List Section}
    (hc : r.content = .document sections) : Regular sections := by
  have hall : ∀ e ∈ documents, Regular e.2 := by decide +kernel
  exact hall _ (mem_documents hr hc)

/-- The schema of every document resource agrees with its sections. -/
theorem agrees {r : Resource} (hr : r ∈ resources) {sections : List Section}
    (hc : r.content = .document sections) :
    r.schema.block.agrees (sections.flatMap Section.rootFields) = true := by
  have hall : ∀ e ∈ documents,
      e.1.schema.block.agrees (e.2.flatMap Section.rootFields) = true := by decide +kernel
  exact hall _ (mem_documents hr hc)

/-- A text has no defaults, and its attribute has no point in its name. -/
theorem agrees_text {r : Resource} (hr : r ∈ resources) {form : TextForm}
    (hc : r.content = .text form) :
    r.schema.block.agrees [] = true ∧ Dotless form.attributeName := by
  simp only [resources, List.mem_cons, List.not_mem_nil, or_false] at hr
  rcases hr with rfl | rfl | rfl | rfl | rfl | rfl | rfl | rfl
  case inr.inl | inr.inr.inr.inl =>
    obtain rfl := Content.text.inj hc
    decide +kernel
  all_goals exact nomatch hc

end TrafficConfig.Catalog
