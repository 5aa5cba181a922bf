import TrafficConfig.Catalog.Attributes
import TrafficConfig.Resource
import TrafficConfig.Section.Scalar
import TrafficConfig.Text.Lines

/-!
# Rules

A rule is a text, declared as the list of its lines.
-/

namespace TrafficConfig

namespace Catalog

/-- Lines in place of a text. -/
def ruleText : TextForm where
  attributeName := "rule"
  encode v := v.toStrings.map Text.unlines
  decode body := .list ((Text.lines body).map .string)

def rule : Resource where
  typeName := "vtm_rule"
  collection := "rules"
  schema := firstSchema "Manages a TrafficScript rule" [
    identity "Name of the rule",
    texts "rule" "The TrafficScript source, one element per line" |>.require] []
  content := .text ruleText

end Catalog

end TrafficConfig
