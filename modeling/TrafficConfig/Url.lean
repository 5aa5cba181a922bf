import TrafficConfig.Url.Host

/-!
# URLs

The address of a server is a URL. Blanks around it and line ends within it do not count. After
`http` and `https` any slashes lead to the authority, also backslashes, and the path that follows
is cleared of dot segments:

* **`Location.parse`** says what a URL locates, or what is wrong with it;
* **`Url.target`** is what a request for it asks the server for.
-/

namespace TrafficConfig

/-- What a URL locates. -/
inductive Location where
  /-- Something on a web server, by what is asked of it. -/
  | web (target : String)
  | other (scheme : String)

namespace Url

def isSlash (c : Char) : Bool := c = '/' || c = '\\'

/-- The characters of a URL: none below the space and no space around it, and neither tabs nor
line ends in it. -/
def significant (text : String) : List Char :=
  let trim (cs : List Char) := cs.dropWhile fun c => c.toNat ≤ 0x20
  (trim (trim text.toList).reverse).reverse.filter fun c => c ≠ '\t' && c ≠ '\n' && c ≠ '\r'

def isSchemeChar (c : Char) : Bool := c.isAlphanum || c = '+' || c = '-' || c = '.'

/-- The scheme, in small letters, and what follows its colon. -/
def scheme? (cs : List Char) : Option (String × List Char) :=
  match cs.span isSchemeChar with
  | (c :: name, ':' :: rest) =>
    if c.isAlpha then some (String.ofList ((c :: name).map Char.toLower), rest) else none
  | _ => none

/-! ## The authority -/

/-- The parts around the last at sign. -/
def splitUser (authority : List Char) : Option (List Char × List Char) :=
  match authority.reverse.span (· ≠ '@') with
  | (host, _ :: user) => some (user.reverse, host.reverse)
  | _ => none

/-- The host, and the port with its colon. Colons inside of brackets belong to the host. -/
def splitPort : Bool → List Char → List Char × List Char
  | _, [] => ([], [])
  | inBrackets, c :: rest =>
    if c = ':' && !inBrackets then ([], c :: rest)
    else
      let (host, port) :=
        splitPort (if c = '[' then true else if c = ']' then false else inBrackets) rest
      (c :: host, port)

/-- What is wrong with a port. In schemes without rules of their own a backslash begins the path
behind it. -/
def checkPort (special : Bool) : List Char → Except UrlFault Unit
  | [] => .ok ()
  | _ :: port =>
    let (digits, rest) := port.span Char.isDigit
    if (Text.number? 10 digits).any (65535 < ·) then .error .port
    else if rest.isEmpty || (!special && rest.head? = some '\\') then .ok ()
    else .error .port

/-- What is wrong with a host and a port, behind a user or not. -/
def checkHostPort (special afterUser : Bool) (hostPort : List Char) : Except UrlFault Unit := do
  let (host, port) := splitPort false hostPort
  if special then
    if host.isEmpty then .error .emptyHost else checkHost host
  else
    checkOpaque host
    if host.isEmpty && (!port.isEmpty || afterUser) then .error .emptyHost else .ok ()
  checkPort special port

/-- What is wrong with an authority, given whether anything follows it. A single colon is no
user. -/
def checkAuthority (special followed : Bool) (authority : List Char) : Except UrlFault Unit :=
  match splitUser authority with
  | none => checkHostPort special false authority
  | some ([], []) => if followed then .error .emptyHost else checkHostPort special false []
  | some (user, hostPort) => checkHostPort special (!user.isEmpty && user ≠ [':']) hostPort

/-- The authority, and what follows it. -/
def splitAuthority (special : Bool) (cs : List Char) : List Char × List Char :=
  cs.span fun c => !(c = '/' || c = '?' || c = '#' || (special && c = '\\'))

/-- What is wrong with the authority at the front. -/
def checkFront (special : Bool) (cs : List Char) : Except UrlFault Unit :=
  let (authority, rest) := splitAuthority special cs
  checkAuthority special (!rest.isEmpty) authority

/-- What is wrong with the host of a file. A drive letter is none. -/
def checkFile : List Char → Except UrlFault Unit
  | a :: b :: rest =>
    if isSlash a && isSlash b then
      let host := rest.takeWhile fun c => !(isSlash c || c = '?' || c = '#')
      match host with
      | [] => .ok ()
      | [c, d] => if c.isAlpha && (d = ':' || d = '|') then .ok () else checkHost host
      | _ => checkHost host
    else .ok ()
  | _ => .ok ()

/-! ## The target -/

/-- A segment that means its own directory. -/
def isDot (segment : List Char) : Bool :=
  [".", "%2e"].contains (String.ofList (segment.map Char.toLower))

/-- A segment that means the directory above. -/
def isDoubleDot (segment : List Char) : Bool :=
  ["..", ".%2e", "%2e.", "%2e%2e"].contains (String.ofList (segment.map Char.toLower))

/-- Segments without dots, before them the earlier ones, the latest first. A dot at the end leaves
an empty segment. -/
def clear (done : List (List Char)) : List (List Char) → List (List Char)
  | [] => done.reverse
  | segment :: rest =>
    if isDoubleDot segment then clear (if rest.isEmpty then [] :: done.drop 1 else done.drop 1) rest
    else if isDot segment then clear (if rest.isEmpty then [] :: done else done) rest
    else clear (segment :: done) rest

/-- The path, from its first slash on. -/
def path (cs : List Char) : List Char :=
  let slashed := cs.map fun c => if c = '\\' then '/' else c
  let segments := (if slashed.head? = some '/' then slashed.drop 1 else slashed).splitOn '/'
  (clear [] (segments.map Percent.encodePath)).flatMap fun segment => '/' :: segment

/-- The query with its mark. -/
def query : List Char → List Char
  | '?' :: cs => '?' :: Percent.encodeQuery (cs.takeWhile (· ≠ '#'))
  | _ => []

/-- What a request asks for, from what follows the authority: path and query, but not the
fragment. -/
def target (cs : List Char) : String :=
  let (before, after) := cs.span fun c => c ≠ '?' && c ≠ '#'
  String.ofList (path before ++ query after)

end Url

/-- What a URL locates. -/
def Location.parse (text : String) : Except UrlFault Location :=
  match Url.scheme? (Url.significant text) with
  | none => .error .relative
  | some (scheme, cs) =>
    if scheme = "file" then do
      Url.checkFile cs
      return .other scheme
    else if ["http", "https", "ws", "wss", "ftp"].contains scheme then do
      let cs := cs.dropWhile Url.isSlash
      Url.checkFront true cs
      return if scheme = "http" || scheme = "https" then
        .web (Url.target (Url.splitAuthority true cs).2)
      else .other scheme
    else match cs with
      | '/' :: '/' :: cs => do
        Url.checkFront false cs
        return .other scheme
      | _ => .ok (.other scheme)

end TrafficConfig
