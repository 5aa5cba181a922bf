import TrafficConfig.Catalog.Dns
import TrafficConfig.Catalog.LoadBalancing
import TrafficConfig.Catalog.Rule
import TrafficConfig.Catalog.SslKey
import TrafficConfig.Catalog.TrafficManager
import TrafficConfig.Catalog.VirtualServer

/-!
# The catalog

All resource types.
-/

namespace TrafficConfig

namespace Catalog

/-- Every resource type, in the order of their names. -/
def resources : List Resource := [
  dnsZone, dnsZoneFile, loadBalancing, rule, sslClientKey, sslServerKey, trafficManager,
  virtualServer]

/-- The resource type with a name. -/
def resource? (typeName : String) : Option Resource := resources.find? (·.typeName = typeName)

end Catalog

end TrafficConfig
