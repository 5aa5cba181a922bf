import TrafficConfig.Catalog.Attributes
import TrafficConfig.Section.Declaration
import TrafficConfig.Resource

/-!
# Virtual servers

A virtual server takes traffic on a port. Its top-level attributes are one section; each other
section has a block of its own. The declarations follow from the tables of fields, `remarks` adds
what the tables do not say.
-/

namespace TrafficConfig

namespace Catalog

namespace VirtualServer

/-- The top-level attributes. -/
def basic : Section := .topLevel "basic" [
  .bool "add_cluster_ip", .bool "add_x_forwarded_for", .bool "add_x_forwarded_proto",
  .bool "autodetect_upgrade_headers", .string "bandwidth_class", .bool "close_with_rst",
  .list "completionrules", .int "connect_timeout", .bool "enabled", .string "error_file",
  .bool "expect_starttls", .bool "ftp_force_server_secure", .list "glb_services",
  .bool "listen_on_any", .list "listen_on_hosts", .list "listen_on_traffic_ips", .string "note",
  .string "pool", .int "port", .string "protection_class", .string "protocol",
  .bool "proxy_close", .list "request_rules", .list "response_rules", .string "slm_class",
  .bool "so_nagle", .string "ssl_client_cert_headers", .bool "ssl_decrypt",
  .string "ssl_honor_fallback_scsv", .bool "transparent"]

/-- Web accelerator profiles. -/
def profiles : Table := .orderedBy "name" [.string "name", .list "urls"]

/-- Web acceleration. -/
def aptimizer : Section := .inBlock "aptimizer" "aptimizer" [
  .bool "enabled", .table "profile" profiles]

/-- Connections to clients. -/
def connection : Section := .inBlock "vs_connection" "connection" [
  .bool "keepalive", .int "keepalive_timeout", .int "max_client_buffer", .int "max_server_buffer",
  .int "max_transaction_duration", .string "server_first_banner", .int "timeout"]

/-- Cookies. -/
def cookie : Section := .inBlock "cookie" "cookie" [
  .string "domain", .string "new_domain", .string "path_regex", .string "path_replace",
  .string "secure"]

/-- DNS over the virtual server. -/
def dns : Section := .inBlock "dns" "dns" [
  .bool "edns_client_subnet", .int "edns_udpsize", .int "max_udpsize", .string "rrset_order",
  .bool "verbose", .list "zones"]

/-- FTP. -/
def ftp : Section := .inBlock "ftp" "ftp" [
  .int "data_source_port", .bool "force_client_secure", .int "port_range_high",
  .int "port_range_low", .bool "ssl_data"]

/-- Compression. -/
def gzip : Section := .inBlock "gzip" "gzip" [
  .int "compress_level", .bool "enabled", .string "etag_rewrite", .list "include_mime",
  .int "max_size", .int "min_size", .bool "no_size"]

/-- HTTP/1. -/
def http : Section := .inBlock "http" "http" [
  .string "chunk_overhead_forwarding", .string "location_regex", .string "location_replace",
  .string "location_rewrite", .string "mime_default", .bool "mime_detect"]

/-- HTTP/2. -/
def http2 : Section := .inBlock "http2" "http2" [
  .int "connect_timeout", .int "data_frame_size", .bool "enabled", .int "header_table_size",
  .list "headers_index_blacklist", .bool "headers_index_default", .list "headers_index_whitelist",
  .int "idle_timeout_no_streams", .int "idle_timeout_open_streams", .int "max_concurrent_streams",
  .int "max_frame_size", .int "max_header_padding", .bool "merge_cookie_headers",
  .int "stream_window_size"]

/-- Logging of connections. -/
def log : Section := .inBlock "log" "log" [
  .bool "client_connection_failures", .bool "enabled", .string "format", .bool "save_all",
  .bool "server_connection_failures", .bool "session_persistence_verbose", .bool "ssl_failures"]

/-- The list of recent connections. -/
def recentConnections : Section := .inBlock "recent_connections" "recent_connections" [
  .bool "enabled", .bool "save_all"]

/-- Tracing of requests. -/
def requestTracing : Section := .inBlock "request_tracing" "request_tracing" [
  .bool "enabled", .bool "trace_io"]

/-- RTSP. -/
def rtsp : Section := .inBlock "rtsp" "rtsp" [
  .int "streaming_port_range_high", .int "streaming_port_range_low", .int "streaming_timeout"]

/-- SIP. -/
def sip : Section := .inBlock "sip" "sip" [
  .string "dangerous_requests", .bool "follow_route", .int "max_connection_mem", .string "mode",
  .bool "rewrite_uri", .int "streaming_port_range_high", .int "streaming_port_range_low",
  .int "streaming_timeout", .bool "timeout_messages", .int "transaction_timeout"]

/-- Issuers of which OCSP answers are asked. -/
def ocspIssuers : Table := .orderedBy "issuer" [
  .string "issuer", .bool "aia", .string "nonce", .string "required", .string "responder_cert",
  .string "signer", .string "url"]

/-- Certificates by host. -/
def hostMapping : Table := .orderedBy "host" [
  .string "host", .string "certificate", .list "alt_certificates"]

/-- TLS with clients. -/
def ssl : Section := .inBlock "ssl" "ssl" [
  .bool "add_http_headers", .list "client_cert_cas", .list "elliptic_curves",
  .list "issued_certs_never_expire", .bool "ocsp_enable", .table "ocsp_issuers" ocspIssuers,
  .int "ocsp_max_response_age", .bool "ocsp_stapling", .int "ocsp_time_tolerance",
  .int "ocsp_timeout", .bool "prefer_sslv3", .string "request_client_cert",
  .bool "send_close_alerts", .list "server_cert_alt_certificates", .string "server_cert_default",
  (Field.table "ssl_server_cert_host_mapping" hostMapping).named "server_cert_host_mapping",
  .string "signature_algorithms", .string "ssl_ciphers", .string "ssl_support_ssl2",
  .string "ssl_support_ssl3", .string "ssl_support_tls1", .string "ssl_support_tls1_1",
  .string "ssl_support_tls1_2", .bool "trust_magic"]

/-- Logging to a remote server. -/
def syslog : Section := .inBlock "syslog" "syslog" [
  .bool "enabled", .string "format", .string "ip_end_point", .int "msg_len_limit"]

/-- UDP. -/
def udp : Section := .inBlock "udp" "udp" [
  .bool "end_point_persistence", .bool "port_smp", .int "response_datagrams_expected",
  .int "timeout"]

/-- The cache of answers. -/
def webCache : Section := .inBlock "web_cache" "web_cache" [
  .string "control_out", .bool "enabled", .int "error_page_time", .int "max_time",
  .int "refresh_time"]

/-- The sections of a document. -/
def sections : List Section := [
  basic, aptimizer, connection, cookie, dns, ftp, gzip, http, http2, log, recentConnections,
  requestTracing, rtsp, sip, ssl, syslog, udp, webCache]

/-- The protocols that a virtual server speaks. -/
def protocols : List String := [
  "client_first", "dns", "dns_tcp", "ftp", "http", "https", "imaps", "imapv2", "imapv3", "imapv4",
  "ldap", "ldaps", "pop3", "pop3s", "rtsp", "server_first", "siptcp", "sipudp", "smtp", "ssl",
  "stream", "telnet", "udp", "udpstreaming"]

def sslSupport : List String := ["use_default", "disabled", "enabled"]

def sslSupportMessage : String := "must be one of use_default, disabled or enabled"

/-- Descriptions and validators, by the dotted path of the attribute. -/
def remarks : List (String × (Attribute → Attribute)) := [
  ("port", fun a =>
    (a.describe "The port on which to listen for incoming connections").check (.wholeWithin 1 65535
      (some "port must be a value within 1-65535"))),
  ("pool", fun a => a.describe "The default pool to use for traffic"),
  ("protocol", fun a => (a.describe "The protocol that the virtual server is using").check
    (.oneOf protocols none)),
  ("ssl_client_cert_headers", fun a =>
    a.check (.oneOf ["all", "none", "simple"]
      (some "SSL Client Cert Header must be one of all, none or simple"))),
  ("ssl_honor_fallback_scsv", fun a =>
    a.check (.oneOf ["disabled", "enabled", "use_default"]
      (some "SSL Honor Fallback SCSV must be one of disabled, enabled or use_default"))),
  ("vs_connection.max_client_buffer", fun a =>
    a.check (.wholeWithin 1024 16777216 (some "buffer size must be within 1024-16777216"))),
  ("vs_connection.max_server_buffer", fun a =>
    a.check (.wholeWithin 1024 16777216 (some "buffer size must be within 1024-16777216"))),
  ("cookie.domain", fun a =>
    a.check (.oneOf ["no_rewrite", "set_to_named", "set_to_request"]
      (some "Cookie Domain must be one of no_rewrite, set_to_named or set_to_request"))),
  ("cookie.secure", fun a =>
    a.check (.oneOf ["no_modify", "set_secure", "unset_secure"]
      (some "Cookie Secure must be one of no_modify, set_secure or unset_secure"))),
  ("dns.rrset_order", fun a =>
    a.check (.oneOf ["cyclic", "fixed"] (some "DNS RRSET Order must be one of cyclic or fixed"))),
  ("gzip.compress_level", fun a => a.check (.wholeWithin 1 9
    (some "Compression level must be a value within 1-9"))),
  ("gzip.etag_rewrite", fun a =>
    a.check (.oneOf ["delete", "ignore", "weaken", "wrap"]
      (some "ETag Rewrite must be one of delete, ignore, weaken or wrap"))),
  ("http.chunk_overhead_forwarding", fun a =>
    a.check (.oneOf ["lazy", "eager"]
      (some "Chunk Overhead Forwarding must be one of lazy or eager"))),
  ("http.location_rewrite", fun a =>
    a.check (.oneOf ["always", "if_host_matches", "never"]
      (some "Location Rewrite must be one of always, if_host_matches or never"))),
  ("http2.data_frame_size", fun a =>
    a.check (.wholeWithin 100 16777206
      (some "data_frame_size must be a value within 100-16777206"))),
  ("http2.header_table_size", fun a =>
    a.check (.wholeWithin 4096 1048576
      (some "header_table_size must be a value within 4096-1048576"))),
  ("http2.max_frame_size", fun a =>
    a.check (.wholeWithin 16384 16777215
      (some "max_frame_size must be a value within 16384-16777215"))),
  ("sip.dangerous_requests", fun a =>
    a.check (.oneOf ["forbid", "forward", "node"]
      (some "Dangerous requests action must be one of forbid, forward or node"))),
  ("sip.mode", fun a =>
    a.check (.oneOf ["full_gateway", "route", "sip_gateway"]
      (some "SIP mode must be one of full_gateway, route or sip_gateway"))),
  ("ssl.ocsp_issuers.nonce", fun a =>
    a.check (.oneOf ["off", "on", "strict"] (some "must be one of off, on or strict"))),
  ("ssl.ocsp_issuers.required", fun a =>
    a.check (.oneOf ["none", "optional", "strict"] (some "must be one of none, optional, strict"))),
  ("ssl.request_client_cert", fun a =>
    a.check (.oneOf ["dont_request", "request", "require"]
      (some "SSL Request Client Cert must be one of dont_request, request or require"))),
  ("ssl.ssl_support_ssl2", fun a => a.check (.oneOf sslSupport (some sslSupportMessage))),
  ("ssl.ssl_support_ssl3", fun a => a.check (.oneOf sslSupport (some sslSupportMessage))),
  ("ssl.ssl_support_tls1", fun a => a.check (.oneOf sslSupport (some sslSupportMessage))),
  ("ssl.ssl_support_tls1_1", fun a => a.check (.oneOf sslSupport (some sslSupportMessage))),
  ("ssl.ssl_support_tls1_2", fun a => a.check (.oneOf sslSupport (some sslSupportMessage))),
  ("syslog.msg_len_limit", fun a =>
    a.check (.wholeWithin 480 65535 (some "msg_len_limit must be a value within 480-65535")))]

/-- Add what is said about an attribute. -/
def customize : Customize := fun path a =>
  match remarks.lookup path with
  | some remark => remark a
  | none => a

/-- The schema: the name, the top-level attributes and the blocks of all other sections. -/
def schema : Schema :=
  firstSchema "Manages a vTM virtual server"
    (identity "Name of the virtual server" :: declaredAttributes basic.fields none none customize)
    (declaredBlocks none customize basic.fields ++
      sections.tail.filterMap (·.nestedBlock? customize))

end VirtualServer

def virtualServer : Resource where
  typeName := "vtm_virtual_server"
  collection := "virtual_servers"
  schema := VirtualServer.schema
  content := .document VirtualServer.sections

end Catalog

end TrafficConfig
