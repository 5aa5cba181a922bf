import TrafficConfig.Section

/-!
# The document of a traffic manager

One member of a cluster. Its top-level attributes are one section, several of them under remote
names of their own; every other section has a block and is replaced as a whole.
-/

namespace TrafficConfig

namespace Catalog

namespace TrafficManager

/-- Network cards. -/
def applianceCard : Table := .orderedBy "name" [.string "name", .list "interfaces", .string "label"]

/-- Kernel parameters. -/
def applianceSysctl : Table := .orderedBy "sysctl" [
  .string "sysctl", .string "description", .string "value"]

/-- Networks by interface. -/
def trafficip : Table := .orderedBy "name" [.string "name", .list "networks"]

/-- The top-level attributes. Most of them are sent with every update. -/
def basic : Section := .topLevel "basic" [
  ((Field.string "admin_master_xmlip").named "adminMasterXMLIP").always,
  ((Field.string "admin_slave_xmlip").named "adminSlaveXMLIP").always,
  .table "appliance_card" applianceCard, .table "appliance_sysctl" applianceSysctl,
  ((Field.string "authentication_server_ip").named "authenticationServerIP").always,
  .string "cloud_platform", (Field.string "location").always, (Field.string "nameip").always,
  (Field.int "num_aptimizer_threads").always, (Field.int "num_children").always,
  ((Field.int "number_of_cpus").named "numberOfCPUs").always,
  ((Field.int "rest_server_port").named "restServerPort").always,
  (Field.bool "start_sysd").fetched, .table "trafficip" trafficip,
  ((Field.string "updater_ip").named "updaterIP").always]

/-- Static host names. -/
def hosts : Table := .orderedBy "name" [.string "name", .string "ip_address"]

/-- Network interfaces. -/
def interfaces : Table := .orderedBy "name" [
  .string "name", .bool "autoneg", .string "bmode", .string "bond", .bool "duplex", .int "mtu",
  .string "speed"]

/-- Addresses of interfaces. -/
def ips : Table := .orderedBy "name" [
  .string "name", .string "addr", .bool "isexternal", .string "mask"]

/-- Routes. -/
def routes : Table := .orderedBy "name" [.string "name", .string "gw", .string "if", .string "mask"]

/-- The appliance as a machine. -/
def appliance : Section := .inBlock "appliance" "appliance" [
  .string "gateway_ipv4", .string "gateway_ipv6", (Field.string "hostname").fetched,
  .table "hosts" hosts, .table "if" interfaces, .table "ip" ips, .bool "ipmi_lan_access",
  .string "ipmi_lan_addr", .string "ipmi_lan_gateway", .string "ipmi_lan_ipsrc",
  .string "ipmi_lan_mask", .bool "ipv4_forwarding", .bool "ipv6_forwarding",
  .bool "licence_agreed", .bool "manageazureroutes", .bool "manageec2conf", .bool "manageiptrans",
  .bool "managereturnpath", .bool "managevpcconf", .list "name_servers", .list "ntpservers",
  .table "routes" routes, .list "search_domains", .string "shim_client_id",
  .string "shim_client_key", .bool "shim_enabled", .string "shim_ips",
  .string "shim_load_balance", .string "shim_log_level", .string "shim_mode",
  .string "shim_portal_url", .string "shim_proxy_host", .string "shim_proxy_port",
  .bool "ssh_enabled", .bool "ssh_password_allowed", .int "ssh_port", .string "timezone",
  .list "vlans"]

/-- Discovery of other traffic managers. -/
def autodiscover : Section := .inBlock "autodiscover" "autodiscover" [.string "product_id"]

/-- Administration between traffic managers. -/
def clusterComms : Section := .inBlock "cluster_comms" "cluster_comms" [
  .bool "allow_update", .string "bind_ip", .string "external_ip", .int "port"]

/-- EC2. -/
def ec2 : Section := .inBlock "ec2" "ec2" [
  .string "availability_zone", .string "instanceid", .list "trafficips_public_enis",
  .string "vpcid"]

/-- Routing protocols. -/
def faultTolerance : Section := .inBlock "fault_tolerance" "fault_tolerance" [
  .string "bgp_router_id", .string "ospfv2_ip", .list "ospfv2_neighbor_addrs", .bool "rhi_support"]

/-- Packet filters. -/
def iptables : Section := .inBlock "iptables" "iptables" [.bool "config_enabled"]

/-- IP transparency. -/
def iptrans : Section := .inBlock "iptrans" "iptrans" [
  .int "fwmark", .bool "config_enabled", .bool "iptables_enabled", .int "routing_table"]

/-- Extensions. -/
def java : Section := .inBlock "java" "java" [.int "port"]

/-- Kerberos. -/
def kerberos : Section := .inBlock "kerberos" "kerberos" [
  .string "hostname", .int "num_kpt_threads"]

/-- Licensing requests. -/
def remoteLicensing : Section := .inBlock "remote_licensing" "remote_licensing" [
  .string "email_address", .string "message"]

/-- The API itself. -/
def restApi : Section := .inBlock "rest_api" "rest_api" [
  (Field.list "bind_ips").fetched, .int "port"]

/-- SNMP. -/
def snmp : Section := .inBlock "snmp" "snmp" [
  .list "allow", .string "auth_password", .string "bind_ip", .string "community", .bool "enabled",
  .string "hash_algorithm", .string "port", .string "priv_password", .string "security_level",
  .string "username"]

/-- The sections of a document. -/
def sections : List Section := [
  basic, appliance, autodiscover, clusterComms, ec2, faultTolerance, iptables, iptrans, java,
  kerberos, remoteLicensing, restApi, snmp]

end TrafficManager

end Catalog

end TrafficConfig
