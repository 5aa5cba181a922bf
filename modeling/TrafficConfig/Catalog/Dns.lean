import TrafficConfig.Catalog.Attributes
import TrafficConfig.Resource

/-!
# DNS zones

A zone of the built-in DNS server is a document that names a zone file. The zone file is a text,
kept character by character.
-/

namespace TrafficConfig

namespace Catalog

namespace Dns

/-- The section of a zone. -/
def basic : Section := .topLevel "basic" [.string "origin", .string "zone_file"]

/-- The text of a zone file is the value of one attribute. -/
def zoneText : TextForm where
  attributeName := "dns_zone_config"
  encode
    | .string s => .ok s
    | other => .error (.typeMismatch "string" other.kindName)
  decode := .string

end Dns

def dnsZone : Resource where
  typeName := "vtm_dns_zone"
  collection := "dns_server/zones"
  schema := firstSchema "Manages a zone of the built-in DNS server" [
    identity "Name of the DNS zone",
    text "origin" "The domain origin of this zone" |>.require,
    text "zone_file" "The zone file holding the records of this zone" |>.require] []
  content := .document [Dns.basic]

def dnsZoneFile : Resource where
  typeName := "vtm_dns_zone_file"
  collection := "dns_server/zone_files"
  schema := firstSchema "Manages a DNS zone file served by the built-in DNS server" [
    identity "Name of the zone file",
    text "dns_zone_config" "Zone file contents in BIND format" |>.require] []
  content := .text Dns.zoneText

end Catalog

end TrafficConfig
