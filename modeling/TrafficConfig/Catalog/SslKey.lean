import TrafficConfig.Catalog.Attributes
import TrafficConfig.Resource

/-!
# Key pairs

Keys of clients and keys of servers are declared alike and live in different collections. The
private key is never sent back, so a read keeps the one that is declared.
-/

namespace TrafficConfig

namespace Catalog

namespace SslKey

/-- The section of a key pair. -/
def basic : Section :=
  .topLevel "basic" [.string "note", .string "private", .string "public", .string "request"]

def schema : Schema := firstSchema "Manages an SSL key pair with its certificate" [
  identity "Name of the key pair",
  text "note" "Notes for this certificate",
  text "private" "Private key for certificate" |>.require |>.hide,
  text "public" "Public certificate" |>.require,
  text "request" "Certificate signing request" |>.require] []

end SslKey

def sslClientKey : Resource where
  typeName := "vtm_ssl_client_key"
  collection := "ssl/client_keys"
  schema := SslKey.schema
  content := .document [SslKey.basic]

def sslServerKey : Resource where
  typeName := "vtm_ssl_server_key"
  collection := "ssl/server_keys"
  schema := SslKey.schema
  content := .document [SslKey.basic]

end Catalog

end TrafficConfig
