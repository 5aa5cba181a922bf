import TrafficConfig.Json.Numeral
import TrafficConfig.Text.Hexadecimal

/-!
# Reading JSON texts

A text is read by a machine that is fed one character at a time. Its state holds the arrays and
objects still open and what may come next:

* **`Mode`**: a value, a key, a colon, a separator, or the inside of a literal;
* **`feed`** is one step, `none` when the character cannot stand there;
* **`read?`** feeds a whole text. Of two fields with one key the later one stays. With a limit,
  arrays and objects nested deeper than it are refused.
-/

namespace TrafficConfig

namespace Json.Reader

/-- An open array or object: what was read of it, the latest first, and for an object the key that
awaits its value. -/
inductive Frame where
  | array (done : List Json)
  | object (done : List (String × Json)) (key : String)

/-- The place inside a string literal. -/
inductive Escape where
  /-- Between characters. -/
  | plain
  /-- After a backslash. -/
  | backslash
  /-- Among the four hexadecimal digits of a code unit, after the first unit of a pair or not. -/
  | hex (lead : Option Nat) (count : Nat) (unit : Nat)
  /-- After the first unit of a pair: its backslash, or the `u` behind that. -/
  | pairBackslash (lead : Nat)
  | pairMark (lead : Nat)

/-- What may come next. -/
inductive Mode where
  /-- A value; `first` right after an opening bracket, when the closing one may come too. -/
  | value (first : Bool)
  /-- A key; `first` right after an opening brace, when the closing one may come too. -/
  | key (first : Bool)
  | colon
  /-- A comma or the end of the innermost open array or object. -/
  | separator
  /-- Nothing but blanks: the document is complete. -/
  | done (j : Json)
  /-- A string literal, a word or a numeral; what was read of it, the latest character first. -/
  | literal (isKey : Bool) (read : List Char) (escape : Escape)
  | word (read : List Char)
  | numeral (read : List Char)

/-- The state of the machine. -/
structure State where
  stack : List Frame
  mode : Mode

/-- Hand a complete value to the innermost open array or object. -/
def deliver (stack : List Frame) (j : Json) : State :=
  match stack with
  | [] => ⟨[], .done j⟩
  | .array done :: rest => ⟨.array (j :: done) :: rest, .separator⟩
  | .object done key :: rest => ⟨.object ((key, j) :: done) "" :: rest, .separator⟩

def isSpace (c : Char) : Bool := c = ' ' || c = '\n' || c = '\t' || c = '\r'

/-- The value of a word. -/
def word? (read : List Char) : Option Json :=
  if read = ['l', 'l', 'u', 'n'] then some .null
  else if read = ['e', 'u', 'r', 't'] then some (.bool true)
  else if read = ['e', 's', 'l', 'a', 'f'] then some (.bool false)
  else none

/-- Whether a character can stand in a numeral. -/
def isNumeralChar (c : Char) : Bool :=
  c.isDigit || c = '+' || c = '-' || c = '.' || c = 'e' || c = 'E'

/-- Open an array or an object, unless the limit is reached. -/
def openFrame (limit : Option Nat) (stack : List Frame) (frame : Frame) (mode : Mode) :
    Option State :=
  if limit.all (stack.length < ·) then some ⟨frame :: stack, mode⟩ else none

/-- The first character of a value. -/
def beginValue (limit : Option Nat) (stack : List Frame) (c : Char) : Option State :=
  if c = '"' then some ⟨stack, .literal false [] .plain⟩
  else if c = '[' then openFrame limit stack (.array []) (.value true)
  else if c = '\x7b' then openFrame limit stack (.object [] "") (.key true)
  else if c = '-' || c.isDigit then some ⟨stack, .numeral [c]⟩
  else if c.isAlpha then some ⟨stack, .word [c]⟩
  else none

/-- Close the innermost array or object. -/
def closeFrame (stack : List Frame) (c : Char) : Option State :=
  match stack with
  | .array done :: rest => if c = ']' then some (deliver rest (.array done.reverse)) else none
  | .object done _ :: rest =>
    if c = '\x7d' then some (deliver rest (.object (Assoc.ofEntries done.reverse))) else none
  | [] => none

/-- A character after a complete value. -/
def afterValue (s : State) (c : Char) : Option State :=
  if isSpace c then some s
  else match s.mode with
    | .separator =>
      if c = ',' then
        match s.stack with
        | .array _ :: _ => some ⟨s.stack, .value false⟩
        | .object _ _ :: _ => some ⟨s.stack, .key false⟩
        | [] => none
      else closeFrame s.stack c
    | _ => none

/-- The character that an escape letter stands for. -/
def escaped? (c : Char) : Option Char :=
  if c = '"' || c = '\\' || c = '/' then some c
  else if c = 'b' then some (Char.ofNat 8)
  else if c = 'f' then some (Char.ofNat 12)
  else if c = 'n' then some '\n'
  else if c = 'r' then some '\r'
  else if c = 't' then some '\t'
  else none

/-- Four hexadecimal digits are complete: a character, the first unit of a pair, or the second
one. -/
def closeUnit (read : List Char) (lead : Option Nat) (unit : Nat) : Option (List Char × Escape) :=
  match lead with
  | none =>
    if 0xD800 ≤ unit && unit ≤ 0xDBFF then some (read, .pairBackslash unit)
    else if 0xDC00 ≤ unit && unit ≤ 0xDFFF then none
    else some (Char.ofNat unit :: read, .plain)
  | some high =>
    if 0xDC00 ≤ unit && unit ≤ 0xDFFF then
      some (Char.ofNat (0x10000 + (high - 0xD800) * 0x400 + (unit - 0xDC00)) :: read, .plain)
    else none

/-- A character inside a string literal, the closing quote apart. -/
def feedLiteral (read : List Char) (escape : Escape) (c : Char) : Option (List Char × Escape) :=
  match escape with
  | .plain =>
    if c = '\\' then some (read, .backslash)
    else if c.toNat < 0x20 then none
    else some (c :: read, .plain)
  | .backslash =>
    if c = 'u' then some (read, .hex none 0 0) else (escaped? c).map fun e => (e :: read, .plain)
  | .hex lead count unit =>
    (Text.hexValue? c).bind fun h =>
      if count = 3 then closeUnit read lead (unit * 16 + h)
      else some (read, .hex lead (count + 1) (unit * 16 + h))
  | .pairBackslash lead => if c = '\\' then some (read, .pairMark lead) else none
  | .pairMark lead => if c = 'u' then some (read, .hex (some lead) 0 0) else none

/-- A string literal is complete: a key waits for its colon, any other string is a value. -/
def closeLiteral (stack : List Frame) (isKey : Bool) (read : List Char) : Option State :=
  let s := String.ofList read.reverse
  if isKey then
    match stack with
    | .object done _ :: rest => some ⟨.object done s :: rest, .colon⟩
    | _ => none
  else some (deliver stack (.string s))

/-- One step: the state after a character. -/
def feed (limit : Option Nat) (s : State) (c : Char) : Option State :=
  match s.mode with
  | .value first =>
    if isSpace c then some s
    else if first && c = ']' then closeFrame s.stack c
    else beginValue limit s.stack c
  | .key first =>
    if isSpace c then some s
    else if first && c = '\x7d' then closeFrame s.stack c
    else if c = '"' then some ⟨s.stack, .literal true [] .plain⟩
    else none
  | .colon =>
    if isSpace c then some s else if c = ':' then some ⟨s.stack, .value false⟩ else none
  | .separator => afterValue s c
  | .done _ => afterValue s c
  | .literal isKey read escape =>
    match escape with
    | .plain =>
      if c = '"' then closeLiteral s.stack isKey read
      else (feedLiteral read .plain c).map fun (read, escape) =>
        ⟨s.stack, .literal isKey read escape⟩
    | _ => (feedLiteral read escape c).map fun (read, escape) =>
      ⟨s.stack, .literal isKey read escape⟩
  | .word read =>
    if c.isAlpha then some ⟨s.stack, .word (c :: read)⟩
    else (word? read).bind fun j => afterValue (deliver s.stack j) c
  | .numeral read =>
    if isNumeralChar c then some ⟨s.stack, .numeral (c :: read)⟩
    else (ofNumeral? read.reverse).bind fun j => afterValue (deliver s.stack j) c

/-- Feed a text. -/
def feedAll (limit : Option Nat) (s : State) (cs : List Char) : Option State :=
  cs.foldlM (feed limit) s

/-- The document when the text ends here. -/
def finish (s : State) : Option Json :=
  match s.mode, s.stack with
  | .done j, [] => some j
  | .word read, [] => word? read
  | .numeral read, [] => ofNumeral? read.reverse
  | _, _ => none

end Json.Reader

/-- The document of a text; nothing when the text is none, or nests arrays and objects deeper than
the limit. -/
def Json.read? (limit : Option Nat) (text : String) : Option Json :=
  (Json.Reader.feedAll limit ⟨[], .value false⟩ text.toList).bind Json.Reader.finish

end TrafficConfig
