import TrafficConfig.Catalog.Attributes
import TrafficConfig.Catalog.TrafficManager.Sections
import TrafficConfig.Resource

/-!
# Traffic managers

The schema is declared attribute by attribute, since most attributes have a description, a default
or a validator. Attributes and blocks are listed in the order in which they are shown.
-/

namespace TrafficConfig

namespace Catalog

namespace TrafficManager

/-- The machine, its network and its services. -/
def applianceBlock : NestedBlock :=
  .single "appliance" "Appliance specific settings" [
    text "gateway_ipv4" "The default gateway",
    text "gateway_ipv6" "The default IPv6 gateway",
    computed "hostname" .string "Name (hostname.domainname) of the appliance",
    switch "ipmi_lan_access" "Whether IPMI LAN access should be enabled or not" false,
    text "ipmi_lan_addr" "The IP address of the appliance IPMI LAN channel",
    text "ipmi_lan_gateway" "The default gateway of the IPMI LAN channel",
    text "ipmi_lan_ipsrc" "How the IPMI LAN channel gets its address" |>.orText "static"
      |>.check (.oneOf ["dhcp", "static"] (some "ipmi_lan_ipsrc must be one of dhcp or static")),
    text "ipmi_lan_mask" "The IP netmask for the IPMI LAN channel",
    switch "ipv4_forwarding" "Whether or not IPv4 forwarding is enabled" false,
    switch "ipv6_forwarding" "Whether or not IPv6 forwarding is enabled" false,
    switch "licence_agreed" "Whether or not the license agreement has been accepted" false,
    switch "manageazureroutes" "Whether or not the software manages the Azure policy routing" true,
    switch "manageec2conf" "Whether or not the software manages the EC2 config" true,
    switch "manageiptrans" "Whether or not the software manages the IP transparency" true,
    switch "managereturnpath" "Whether or not the software manages return path routing" true,
    switch "managevpcconf" "Whether or not the software manages the EC2-VPC secondary IPs" true,
    texts "name_servers" "The nameservers placed in /etc/resolv.conf",
    texts "ntpservers" "The NTP servers the appliance should use to synchronize its clock"
      |>.compute,
    texts "search_domains" "The search domains placed in /etc/resolv.conf",
    text "shim_client_id" "The client ID provided by the portal for this server",
    text "shim_client_key" "The client key provided by the portal for this server" |>.hide,
    switch "shim_enabled"
      "Enable the Riverbed Cloud SteelHead discovery agent on this appliance" false,
    text "shim_ips" "The IP addresses of the Riverbed Cloud SteelHeads to use",
    text "shim_load_balance"
      "The load balancing method for selecting a Riverbed Cloud SteelHead appliance"
      |>.orText "round_robin"
      |>.check (.oneOf ["priority", "round_robin"]
        (some "shim_load_balance must be one of priority or round_robin")),
    text "shim_log_level" "The minimum severity that the discovery agent will record to its log"
      |>.orText "notice"
      |>.check (.oneOf ["critical", "debug", "info", "notice", "serious", "warning"] none),
    text "shim_mode" "The mode used to discover Riverbed Cloud SteelHeads" |>.orText "portal"
      |>.check (.oneOf ["local", "manual", "portal"]
        (some "shim_mode must be one of local, manual or portal")),
    text "shim_portal_url" "The hostname or IP address of the local portal to use",
    text "shim_proxy_host" "The proxy server used to connect to the portal",
    text "shim_proxy_port" "The port of the proxy server",
    switch "ssh_enabled" "Whether or not the SSH server is enabled on the appliance" true,
    switch "ssh_password_allowed" "Whether or not the SSH server allows password based login" true,
    whole "ssh_port" "The port that the SSH server should listen on" |>.orWhole 22
      |>.check (portNumber "ssh_port"),
    text "timezone" "The timezone the appliance should use" |>.orText "US/Pacific",
    texts "vlans" "The VLANs the software should raise"] [
    .many "hosts" .list "Hostname to static IP address mappings placed in /etc/hosts" [
      text "name" "The name of a host" |>.require,
      text "ip_address" "The static IP address of the host" |>.require] [],
    .many "if" .list "Network interface specific settings" [
      text "name" "A network interface name" |>.require,
      switch "autoneg" "Whether auto-negotiation should be enabled for the interface" true,
      text "bmode" "The trunking mode of the interface" |>.orText "802_3ad"
        |>.check (.oneOf ["802_3ad"] none),
      text "bond" "The trunk of which the interface should be a member"
        |>.check (.matching "^(bond\\d+)?$" "a bond name matching ^(bond\\d+)?$"),
      switch "duplex" "Whether full-duplex should be enabled for the interface" true,
      whole "mtu" "The maximum transmission unit (MTU) of the interface" |>.orWhole 1500
        |>.check (natural "mtu"),
      text "speed" "The speed of the interface" |>.orText "1000"
        |>.check (.oneOf ["10", "100", "1000"] (some "speed must be one of 10, 100 or 1000"))] [],
    .many "ip" .list "Network interfaces and their network settings" [
      text "name" "A network interface name" |>.require,
      text "addr" "The IP address for the interface" |>.require,
      switch "isexternal" "Whether the interface is externally facing" false,
      text "mask" "The IP mask (netmask) for the interface" |>.require] [],
    .many "routes" .list "Destination IP addresses and routing details to reach them" [
      text "name" "A destination IP address" |>.require,
      text "gw" "The gateway IP to configure for the route" |>.require,
      text "if" "The network interface to configure for the route" |>.require,
      text "mask" "The netmask to apply to the IP address" |>.require] []]

/-- Discovery of other traffic managers. -/
def autodiscoverBlock : NestedBlock :=
  .single "autodiscover" "" [
    text "product_id" "Product ID used by traffic managers to discover each other when clustering"
      |>.orText "ZXTM"] []

/-- Administration between traffic managers. -/
def clusterCommsBlock : NestedBlock :=
  .single "cluster_comms" "" [
    switch "allow_update"
      "Whether this instance can send configuration updates to other cluster members" false,
    text "bind_ip" "The IP address to bind to for internal administration" |>.orText "*",
    text "external_ip" "The optional external IP of the traffic manager",
    whole "port" "The port to listen on for internal administration" |>.orWhole 9080
      |>.check (portNumber "port")] []

/-- EC2. -/
def ec2Block : NestedBlock :=
  .single "ec2" "" [
    text "availability_zone" "The availability zone of this EC2 instance",
    text "instanceid" "The EC2 instance ID of this virtual appliance",
    texts "trafficips_public_enis" "MAC addresses of interfaces used to associate elastic IPs",
    text "vpcid" "The ID of the VPC the instance is in"] []

/-- Routing protocols. -/
def faultToleranceBlock : NestedBlock :=
  .single "fault_tolerance" "" [
    text "bgp_router_id" "The BGP router id",
    text "ospfv2_ip" "The permanent IPv4 address used as OSPF router ID",
    texts "ospfv2_neighbor_addrs" "Routers expected to be found as OSPFv2 neighbors",
    switch "rhi_support" "This key does nothing" false] []

/-- Packet filters. -/
def iptablesBlock : NestedBlock :=
  .single "iptables" "" [
    switch "config_enabled" "Whether the traffic manager manages iptables configuration" false] []

/-- IP transparency. -/
def iptransBlock : NestedBlock :=
  .single "iptrans" "" [
    whole "fwmark" "The netfilter forwarding mark for IP transparency rules" |>.orWhole 320
      |>.check (natural "fwmark"),
    switch "config_enabled" "Whether IP transparency may be used via netfilter/iptables" false,
    switch "iptables_enabled" "Whether IP transparency may use the iptables socket extension" false,
    whole "routing_table" "The routing table ID for IP transparency rules" |>.orWhole 320
      |>.check (natural "routing_table")] []

/-- Extensions. -/
def javaBlock : NestedBlock :=
  .single "java" "" [
    whole "port" "The port the Java Extension handler should listen on" |>.orWhole 9060
      |>.check (natural "port")] []

/-- Kerberos. -/
def kerberosBlock : NestedBlock :=
  .single "kerberos" "" [
    text "hostname" "The hostname to use in Kerberos principal names",
    whole "num_kpt_threads" "Worker threads of the Kerberos Protocol Transition helper"
      |>.check (natural "num_kpt_threads")] []

/-- Licensing requests. -/
def remoteLicensingBlock : NestedBlock :=
  .single "remote_licensing" "" [
    text "email_address" "E-mail address sent with a remote licensing request",
    text "message" "Free text sent with a remote licensing request"] []

/-- The API itself. -/
def restApiBlock : NestedBlock :=
  .single "rest_api" "" [
    computed "bind_ips" .strings "IP addresses the REST API listens on",
    whole "port" "The port on which the REST API listens" |>.orWhole 9070
      |>.check (portNumber "port")] []

/-- SNMP. -/
def snmpBlock : NestedBlock :=
  .single "snmp" "" [
    texts "allow" "Addresses allowed to use the SNMP command responder",
    text "auth_password" "The SNMPv3 authentication password" |>.hide,
    text "bind_ip" "The IP address the SNMP service binds to" |>.orText "*",
    text "community" "The community string for SNMPv1 and SNMPv2c" |>.orText "public",
    switch "enabled" "Whether the SNMP command responder is enabled" false,
    text "hash_algorithm" "The hash algorithm for authenticated SNMPv3" |>.orText "md5"
      |>.check (.oneOf ["md5", "sha1"] (some "hash_algorithm must be one of md5 or sha1")),
    text "port" "The port the SNMP command responder listens on" |>.orText "default",
    text "priv_password" "The SNMPv3 privacy password" |>.hide,
    text "security_level" "The security level for SNMPv3 communications" |>.orText "noauthnopriv"
      |>.check (.oneOf ["noauthnopriv", "authnopriv", "authpriv"] none),
    text "username" "The username required for SNMPv3 commands"] []

/-- The tables among the top-level attributes. -/
def tables : List NestedBlock := [
  .many "appliance_card" .list "The network cards of a hardware appliance" [
    text "name" "Network card PCI ID" |>.require,
    texts "interfaces" "The order of the interfaces of a network card",
    text "label" "The label of the installed network card" |>.require
      |>.check (.matching "^[\\w.:@\\-]\x7b1,64\x7d$" "a valid network interface card label")] [],
  .many "appliance_sysctl" .list "Custom kernel parameters applied with the sysctl interface" [
    text "sysctl" "The name of the kernel parameter, e.g. net.ipv4.forward" |>.require,
    text "description" "Optional description for the sysctl",
    text "value" "The value of the kernel parameter"] [],
  .many "trafficip" .list "Network interfaces and the networks they map to" [
    text "name" "A network interface" |>.require,
    texts "networks" "IP/masks to which the network interface maps"] []]

/-- The top-level attributes. -/
def attributes : List Attribute := [
  identity "Name of the traffic manager",
  text "admin_master_xmlip" "The Application Firewall master XML IP" |>.orText "0.0.0.0",
  text "admin_slave_xmlip" "The Application Firewall slave XML IP" |>.orText "0.0.0.0",
  text "authentication_server_ip" "The Application Firewall Authentication Server IP"
    |>.orText "0.0.0.0",
  text "cloud_platform" "Cloud platform where the traffic manager is running",
  text "location" "The location the local traffic manager is in",
  text "nameip" "Replace the traffic manager name with an IP address",
  whole "num_aptimizer_threads" "Worker threads the Web Accelerator process should create"
    |>.check (natural "num_aptimizer_threads"),
  whole "num_children" "The number of worker processes the software will run" |>.orWhole 0
    |>.check (natural "num_children"),
  whole "number_of_cpus" "The number of Application Firewall decider processes to run" |>.orWhole 0
    |>.check (natural "number_of_cpus"),
  whole "rest_server_port" "The Application Firewall REST internal API port" |>.orWhole 0
    |>.check (natural "rest_server_port"),
  computed "start_sysd" .bool "Whether or not to start the sysd process on software installations",
  text "updater_ip" "The Application Firewall Updater IP" |>.orText "0.0.0.0"]

def schema : Schema :=
  firstSchema "Manages a traffic manager of a vTM cluster" attributes (tables ++ [
    applianceBlock, autodiscoverBlock, clusterCommsBlock, ec2Block, faultToleranceBlock,
    iptablesBlock, iptransBlock, javaBlock, kerberosBlock, remoteLicensingBlock, restApiBlock,
    snmpBlock])

end TrafficManager

def trafficManager : Resource where
  typeName := "vtm_traffic_manager"
  collection := "traffic_managers"
  schema := TrafficManager.schema
  content := .document TrafficManager.sections

end Catalog

end TrafficConfig
