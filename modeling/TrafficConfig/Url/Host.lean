import TrafficConfig.Text.Lowercase
import TrafficConfig.Text.Visible
import TrafficConfig.Text.Word
import TrafficConfig.Url.Percent
import TrafficConfig.Url.Punycode

/-!
# Hosts

The host of a URL is an address in brackets, a domain, or an IPv4 address: a domain whose last
label is a number has to be one.

* **`isIpv6`**: eight groups of hexadecimal digits, or fewer around a double colon; an IPv4
  address stands for the last two;
* **`isIpv4`**: up to four numbers, decimal, octal or hexadecimal, of which the last one fills the
  bytes that are left;
* **`domain?`** brings a domain into the form in which it is looked up;
* **`checkHost`** and **`checkOpaque`** say what is wrong with a host.
-/

namespace TrafficConfig

/-- Why a text is no URL. -/
inductive UrlFault where
  | relative
  | emptyHost
  | domain
  | hostCharacter
  | port
  | ipv4
  | ipv6
  deriving DecidableEq

/-- The words for a fault. -/
def UrlFault.message : UrlFault → String
  | .relative => "relative URL without a base"
  | .emptyHost => "empty host"
  | .domain => "invalid international domain name"
  | .hostCharacter => "invalid domain character"
  | .port => "invalid port number"
  | .ipv4 => "invalid IPv4 address"
  | .ipv6 => "invalid IPv6 address"

namespace Url

/-! ## Numbers -/

/-- A number of an IPv4 address: after `0x` hexadecimal, after a zero octal, else decimal. -/
def part? (digits : List Char) : Option Nat :=
  match digits with
  | [] => none
  | '0' :: 'x' :: rest => Text.number? 16 rest
  | '0' :: 'X' :: rest => Text.number? 16 rest
  | '0' :: c :: rest => Text.number? 8 (c :: rest)
  | rest => Text.number? 10 rest

/-- The labels of a domain; a point at the end does not count. -/
def labels (domain : List Char) : List (List Char) :=
  let parts := domain.splitOn '.'
  if parts.getLast? = some [] then parts.dropLast else parts

/-- The last label is a number. -/
def endsInNumber (domain : List Char) : Bool :=
  (labels domain).getLast?.any fun label =>
    (!label.isEmpty && label.all Char.isDigit) || (part? label).isSome

/-- The address of up to four numbers. -/
def isIpv4 (domain : List Char) : Bool :=
  match (labels domain).mapM part? with
  | none => false
  | some parts =>
    parts.length ≤ 4 && parts.dropLast.all (· ≤ 255) &&
      parts.getLast?.any (· < 1 <<< (8 * (5 - parts.length)))

/-! ## Addresses in brackets -/

/-- One to four hexadecimal digits. -/
def isGroup (digits : List Char) : Bool :=
  !digits.isEmpty && digits.length ≤ 4 && digits.all fun c => (Text.hexValue? c).isSome

/-- A decimal number of one byte, without leading zeros. -/
def isOctet (digits : List Char) : Bool :=
  !digits.isEmpty && digits.all Char.isDigit && (digits.length = 1 || digits.head? ≠ some '0') &&
    (Text.number? 10 digits).any (· ≤ 255)

/-- Four bytes with points. -/
def isDotted (cs : List Char) : Bool :=
  let parts := cs.splitOn '.'
  parts.length = 4 && parts.all isOctet

/-- How many groups stand between colons; an IPv4 address in the last place stands for two. -/
def groups? (mayBeDotted : Bool) : List (List Char) → Option Nat
  | [] => some 0
  | [last] => if isGroup last then some 1 else if mayBeDotted && isDotted last then some 2 else none
  | first :: rest => if isGroup first then (groups? mayBeDotted rest).map (· + 1) else none

/-- The groups of one side; an empty side has none. -/
def side? (mayBeDotted : Bool) (cs : List Char) : Option Nat :=
  if cs.isEmpty then some 0 else groups? mayBeDotted (cs.splitOn ':')

/-- The text around the first double colon. -/
def splitDouble : List Char → Option (List Char × List Char)
  | [] => none
  | ':' :: ':' :: rest => some ([], rest)
  | c :: rest => (splitDouble rest).map fun (left, right) => (c :: left, right)

def isIpv6 (cs : List Char) : Bool :=
  match splitDouble cs with
  | none => side? true cs = some 8
  | some (left, right) =>
    match side? false left, side? true right with
    | some l, some r => l + r ≤ 7
    | _, _ => false

/-- The content of brackets around a whole host. -/
def bracketed? (host : List Char) : Option (List Char) :=
  if host.getLast? = some ']' then some (host.drop 1).dropLast else none

/-! ## Domains -/

/-- What a character beyond ASCII becomes in a domain: nothing, a character of ASCII, or its lower
case. Characters that cannot be seen are refused. -/
def mapWide? (c : Char) : Option (List Char) :=
  let code := c.toNat
  if code = 0x3002 || code = 0xFF0E || code = 0xFF61 then some ['.']
  else if 0xFF01 ≤ code && code ≤ 0xFF5E then some [(Char.ofNat (code - 0xFEE0)).toLower]
  else if code = 0xAD || code = 0x34F || (0x180B ≤ code && code ≤ 0x180D) || code = 0x180F ||
      code = 0x200B || code = 0x2060 || code = 0x2064 || (0xFE00 ≤ code && code ≤ 0xFE0F) ||
      code = 0xFEFF || (0xE0100 ≤ code && code ≤ 0xE01EF) then some []
  else if code = 0xFFFC || code = 0xFFFD || (0x2FF0 ≤ code && code ≤ 0x2FFF) || code = 0x200C ||
      code = 0x200D then none
  else if Text.isVisible c || Text.isWord c then some [Text.lowerChar c]
  else none

/-- What a character becomes in a domain. -/
def mapDomainChar? (c : Char) : Option (List Char) :=
  if c.toNat < 0x80 then some [c.toLower] else mapWide? c

/-- The characters of ASCII that no domain may hold. -/
def isForbidden (c : Char) : Bool :=
  c.toNat ≤ 0x20 || c.toNat = 0x7F ||
    ['%', '#', '/', ':', '<', '>', '?', '@', '[', '\\', ']', '^', '|'].contains c

/-- A label has no forbidden character, and one that is encoded stands for a text beyond ASCII
that needs no more mapping. -/
def isLabel (label : List Char) : Bool :=
  !label.any isForbidden &&
    match label with
    | 'x' :: 'n' :: '-' :: '-' :: rest =>
      (Punycode.decode? rest).any fun cs =>
        cs.any (0x80 ≤ ·.toNat) && cs.all fun c =>
          mapDomainChar? c = some [c] && c ≠ '.' && !isForbidden c
    | _ => true

/-- The form in which a domain is looked up. -/
def domain? (bytes : List UInt8) : Option (List Char) :=
  (Text.ofUtf8? bytes).bind fun text =>
    (text.toList.mapM mapDomainChar?).bind fun mapped =>
      if (mapped.flatten.splitOn '.').all isLabel then some mapped.flatten else none

/-! ## Hosts -/

/-- What is wrong with the host of a web address. -/
def checkHost (host : List Char) : Except UrlFault Unit :=
  if host.head? = some '[' then
    if (bracketed? host).any isIpv6 then .ok () else .error .ipv6
  else match domain? (Percent.decode host) with
    | none => .error .domain
    | some [] => .error .emptyHost
    | some domain => if endsInNumber domain && !isIpv4 domain then .error .ipv4 else .ok ()

/-- What is wrong with a host of which nothing is known. -/
def checkOpaque (host : List Char) : Except UrlFault Unit :=
  if host.head? = some '[' then
    if (bracketed? host).any isIpv6 then .ok () else .error .ipv6
  else if host.any fun c => ['\x00', '\t', '\n', '\r', ' ', '#', '/', ':', '<', '>', '?', '@', '[',
      '\\', ']', '^', '|'].contains c then .error .hostCharacter
  else .ok ()

end Url

end TrafficConfig
