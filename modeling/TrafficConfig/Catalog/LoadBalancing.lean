import TrafficConfig.Catalog.Attributes
import TrafficConfig.Resource

/-!
# Global load balancing

A service that answers DNS queries by the state of several locations. Its attributes are spread
over two sections, both at the top level; the rows of its tables have no order.
-/

namespace TrafficConfig

namespace Catalog

namespace LoadBalancing

/-- Settings by location. -/
def locationSettings : Table := .unorderedBy "location" [
  .string "location", .int "weight", (Field.list "ip_addresses").named "ips", .list "monitors"]

/-- Keys by domain. -/
def domainKeys : Table := .unorderedBy "domain" [.string "domain", .list "ssl_keys"]

/-- The service itself. -/
def basic : Section := .topLevel "basic" [
  .string "algorithm", .bool "all_monitors_needed", .bool "auto_recovery",
  .bool "chained_auto_failback", .list "chained_location_order", .bool "disable_on_failure",
  (Field.table "dns_sec_keys" domainKeys).named "dnssec_keys", .set "domains", .bool "enabled",
  .int "geo_effect", .set "last_resort_response", .set "location_draining",
  .table "location_settings" locationSettings, .bool "return_ips_on_fail", .list "rules",
  .int "ttl"]

/-- Logging of the service. -/
def log : Section := .topLevel "log" [
  (Field.bool "logging_enabled").named "enabled", (Field.string "log_file_name").named "filename",
  (Field.string "log_format").named "format"]

/-- The sections of a document. -/
def sections : List Section := [basic, log]

def algorithms : List String :=
  ["chained", "geo", "hybrid", "load", "round_robin", "weighted_random"]

def schema : Schema :=
  firstSchema "Manages a global load balancing service" [
    identity "Unique name of the GLB",
    text "algorithm" "GLB Algorithm" |>.compute |>.check (.oneOf algorithms
      (some "algorithm must be one of chained, geo, hybrid, load, round_robin or weighted_random")),
    switch "all_monitors_needed"
      "Whether all assigned monitors in a location need to be working" false,
    switch "auto_recovery"
      "Whether the last location to fail will be available once it recovers" false,
    switch "chained_auto_failback" "Whether automatic failback is enabled" false,
    switch "disable_on_failure" "Locations which recover from a failure will be disabled" false,
    switch "enabled" "Whether the GLB service is enabled or not" false,
    switch "return_ips_on_fail"
      "Whether to return all IPs or none during a failure of all locations" false,
    whole "geo_effect" "How important the client's location is when deciding which location to use"
      |>.orWhole 50
      |>.check (.wholeWithin 0 100
        (some "geo_effect must be a whole number between 0 and 100 (percentage)")),
    whole "ttl" "The TTL for the DNS records handled by the GLB service" |>.orWhole (-1),
    texts "chained_location_order"
      "Locations the GLB service operates in and the order in which locations fail",
    texts "rules" "Response rules to be applied to the GLB service",
    textSet "domains" "FQDNs which should be used with this GLB service",
    textSet "last_resort_response" "The response to send when all locations fail",
    textSet "location_draining"
      "Locations which are draining. No requests will be sent to these locations",
    flag "logging_enabled" "Whether or not to log connections to this GLB service",
    text "log_file_name" "File to log to" |>.compute,
    text "log_format" "Format to use in the log file" |>.compute] [
    .many "location_settings" .set "Location specific settings" [
      text "location" "Location which the settings apply to" |>.require,
      whole "weight" "Weight given to this location by the weighted random algorithm"
        |>.check (.wholeWithin 1 100 none),
      texts "ip_addresses" "IP addresses in the location",
      texts "monitors" "Monitors used in the location"] [],
    .many "dns_sec_keys" .set "Maps keys to domains" [
      text "domain" "Domain related to associated keys" |>.require,
      texts "ssl_keys" "Keys for the associated domain"] []]

end LoadBalancing

def loadBalancing : Resource where
  typeName := "vtm_glb"
  collection := "glb_services"
  schema := LoadBalancing.schema
  content := .document LoadBalancing.sections

end Catalog

end TrafficConfig
