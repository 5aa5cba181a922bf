import TrafficConfig.Pattern

/-!
# Reading patterns

The text of a pattern is read from left to right with a stack of the groups that are still open.
What cannot be read is reported with the place in the text, the text itself and a mark under that
place.
-/

namespace TrafficConfig

/-- Why a text is no pattern. -/
inductive PatternFault where
  | groupUnclosed
  | groupUnopened
  | repetitionMissing
  | countUnclosed
  | countEmpty
  | countReversed
  | classUnclosed
  | rangeReversed
  | rangeBoundary
  | escapeAtEnd
  | escapeUnknown
  | escapeInClass
  | backreference
  | lookAround
  | flagUnknown
  deriving DecidableEq

/-- The words for a fault. -/
def PatternFault.words : PatternFault → String
  | .groupUnclosed => "unclosed group"
  | .groupUnopened => "unopened group"
  | .repetitionMissing => "repetition operator missing expression"
  | .countUnclosed => "unclosed counted repetition"
  | .countEmpty => "repetition quantifier expects a valid decimal"
  | .countReversed => "invalid repetition count range, the start must be <= the end"
  | .classUnclosed => "unclosed character class"
  | .rangeReversed => "invalid character class range, the start must be <= the end"
  | .rangeBoundary => "invalid range boundary, must be a literal"
  | .escapeAtEnd => "incomplete escape sequence, reached end of pattern prematurely"
  | .escapeUnknown => "unrecognized escape sequence"
  | .escapeInClass => "invalid escape sequence found in character class"
  | .backreference => "backreferences are not supported"
  | .lookAround => "look-around, including look-ahead and look-behind, is not supported"
  | .flagUnknown => "unrecognized flag"

/-- A fault and the characters that it covers, from `first` up to but without `last`. -/
structure PatternError where
  fault : PatternFault
  first : Nat
  last : Nat
  deriving DecidableEq

/-- The report of a fault in a pattern of one line: the pattern, the marks under it, the words. -/
def PatternError.report (e : PatternError) (pattern : String) : String :=
  "regex parse error:\n    " ++ pattern ++ "\n    " ++ String.ofList (List.replicate e.first ' ') ++
    String.ofList (List.replicate (max 1 (e.last - e.first)) '^') ++ "\nerror: " ++ e.fault.words

namespace Pattern.Reader

/-- What an escape stands for: a character, a set of characters, or an anchor. -/
inductive Escaped where
  | char (c : Char)
  | set (s : CharSet)
  | anchor (a : Anchor)

/-- The characters that a backslash makes literal. -/
def punctuation : List Char :=
  ['\\', '.', '+', '*', '?', '(', ')', '|', '[', ']', '\x7b', '\x7d', '^', '$', '#', '&', '-', '~',
    '/', ' ', '!', '"', '%', '\'', ',', ':', ';', '<', '=', '>', '@', Char.ofNat 0x60]

/-- The escape with a letter or a mark. -/
def escape? (c : Char) : Except PatternFault Escaped :=
  if c = 'd' then .ok (.set .digit)
  else if c = 'D' then .ok (.set (.negate .digit))
  else if c = 'w' then .ok (.set .word)
  else if c = 'W' then .ok (.set (.negate .word))
  else if c = 's' then .ok (.set .blank)
  else if c = 'S' then .ok (.set (.negate .blank))
  else if c = 'n' then .ok (.char '\n')
  else if c = 't' then .ok (.char '\t')
  else if c = 'r' then .ok (.char '\r')
  else if c = 'f' then .ok (.char (Char.ofNat 12))
  else if c = 'v' then .ok (.char (Char.ofNat 11))
  else if c = 'a' then .ok (.char (Char.ofNat 7))
  else if c = 'A' then .ok (.anchor .textStart)
  else if c = 'z' then .ok (.anchor .textEnd)
  else if c = 'b' then .ok (.anchor .wordBoundary)
  else if c = 'B' then .ok (.anchor .noWordBoundary)
  else if punctuation.contains c then .ok (.char c)
  else if c.isDigit then .error .backreference
  else .error .escapeUnknown

/-- One member of a bracketed set: a literal or a set, and the place behind it. -/
def member? (position : Nat) : List Char → Except PatternError (Escaped × Nat × List Char)
  | '\\' :: c :: rest =>
    match escape? c with
    | .ok (.anchor _) => .error ⟨.escapeInClass, position, position + 2⟩
    | .ok e => .ok (e, position + 2, rest)
    | .error fault => .error ⟨fault, position, position + 2⟩
  | ['\\'] => .error ⟨.escapeAtEnd, position, position + 1⟩
  | c :: rest => .ok (.char c, position + 1, rest)
  | [] => .error ⟨.classUnclosed, position, position⟩

/-- Members of a bracketed set up to its closing bracket. -/
def members? (opened behind : Nat) (acc : CharSet) :
    Nat → Nat → List Char → Except PatternError (CharSet × Nat × List Char)
  | 0, _, _ => .error ⟨.classUnclosed, opened, behind⟩
  | _, _, [] => .error ⟨.classUnclosed, opened, behind⟩
  | _ + 1, position, ']' :: rest => .ok (acc, position + 1, rest)
  | fuel + 1, position, cs => do
    let (e, after, rest) ← member? position cs
    match rest, e with
    | '-' :: c :: rest', .char low =>
      if c = ']' then members? opened behind (.union acc (.single low)) fuel after rest
      else
        let (e', after', rest'') ← member? (after + 1) (c :: rest')
        match e' with
        | .char high =>
          if low ≤ high then
            members? opened behind (.union acc (.range low high)) fuel after' rest''
          else .error ⟨.rangeReversed, position, after'⟩
        | _ => .error ⟨.rangeBoundary, after + 1, after'⟩
    | '-' :: c :: rest', .set s =>
      if c = ']' then members? opened behind (.union acc s) fuel after rest
      else
        let _ ← member? (after + 1) (c :: rest')
        .error ⟨.rangeBoundary, position, after⟩
    | _, .char c => members? opened behind (.union acc (.single c)) fuel after rest
    | _, .set s => members? opened behind (.union acc s) fuel after rest
    | _, .anchor _ => .error ⟨.escapeInClass, position, after⟩

/-- A bracketed set behind its opening bracket. -/
def class? (opened : Nat) (cs : List Char) : Except PatternError (CharSet × Nat × List Char) := do
  let (negated, position, cs) := match cs with
    | '^' :: rest => (true, opened + 2, rest)
    | _ => (false, opened + 1, cs)
  if cs.isEmpty then .error ⟨.classUnclosed, opened, position⟩
  else
    let dashes := cs.takeWhile (· = '-')
    let cs := cs.drop dashes.length
    if cs.isEmpty then throw ⟨.classUnclosed, opened, opened⟩
    let start : CharSet := if dashes.isEmpty then .none else .single '-'
    let position := position + dashes.length
    let (start, position, cs) := match dashes, cs with
      | [], ']' :: rest => (CharSet.single ']', position + 1, rest)
      | _, _ => (start, position, cs)
    let (set, after, rest) ← members? opened position start (cs.length + 1) position cs
    .ok (if negated then .negate set else set, after, rest)

/-- The counts of a repetition behind its opening brace: both bounds, and the place behind the
closing brace. -/
def counts? (opened : Nat) (cs : List Char) :
    Except PatternError (Nat × Option Nat × Nat × List Char) :=
  let number (ds : List Char) := ds.foldl (fun n c => n * 10 + (c.toNat - '0'.toNat)) 0
  let low := cs.takeWhile Char.isDigit
  let afterLow := opened + 1 + low.length
  match cs.drop low.length with
  | '\x7d' :: rest =>
    if low.isEmpty then .error ⟨.countEmpty, opened + 1, afterLow⟩
    else .ok (number low, some (number low), afterLow + 1, rest)
  | ',' :: rest =>
    let high := rest.takeWhile Char.isDigit
    let afterHigh := afterLow + 1 + high.length
    match rest.drop high.length with
    | '\x7d' :: rest' =>
      if low.isEmpty then .error ⟨.countEmpty, opened + 1, afterLow⟩
      else if high.isEmpty then .ok (number low, none, afterHigh + 1, rest')
      else if number low ≤ number high then
        .ok (number low, some (number high), afterHigh + 1, rest')
      else .error ⟨.countReversed, opened, afterHigh + if rest'.head? = some '?' then 2 else 1⟩
    | _ => .error ⟨.countUnclosed, opened, afterHigh⟩
  | _ =>
    if low.isEmpty && !cs.isEmpty then .error ⟨.countEmpty, opened + 1, afterLow⟩
    else .error ⟨.countUnclosed, opened, afterLow⟩

/-- An alternative being read: the alternatives before it, and its parts, the latest first. -/
structure Branch where
  before : Option Pattern
  parts : List Pattern

/-- The parts of a branch as one pattern. -/
def Branch.sequence (b : Branch) : Pattern :=
  b.parts.foldl (fun acc p => match acc with | .empty => p | _ => .concat p acc) .empty

/-- The pattern of a branch and the alternatives before it. -/
def Branch.close (b : Branch) : Pattern :=
  match b.before with
  | some p => .either p b.sequence
  | none => b.sequence

def Branch.push (b : Branch) (p : Pattern) : Branch := { b with parts := p :: b.parts }

/-- A group that is still open: where its bracket stands, and the branch around it. -/
structure OpenGroup where
  opened : Nat
  around : Branch

/-- The name of a group and the place behind it. -/
def groupName (cs : List Char) : Nat × List Char :=
  let name := cs.takeWhile (· ≠ '>')
  (name.length + 1, cs.drop (name.length + 1))

/-- A repetition of the last part; a question mark behind it only changes which match is
preferred. -/
def repeatLast (position after : Nat) (least : Nat) (most : Option Nat) (b : Branch)
    (rest : List Char) : Except PatternError (Branch × Nat × List Char) :=
  match b.parts with
  | [] => .error ⟨.repetitionMissing, position, after⟩
  | p :: parts =>
    let b : Branch := { b with parts := .repeated p least most :: parts }
    match rest with
    | '?' :: rest' => .ok (b, after + 1, rest')
    | _ => .ok (b, after, rest)

/-- Read a pattern; the bound counts the characters still to be read. -/
def read? : Nat → List OpenGroup → Branch → Nat → List Char → Except PatternError Pattern
  | _, [], b, _, [] => .ok b.close
  | _, g :: _, _, _, [] => .error ⟨.groupUnclosed, g.opened, g.opened + 1⟩
  | 0, _, b, _, _ => .ok b.close
  | fuel + 1, stack, b, position, c :: rest =>
    match c with
    | '(' =>
      let inner (taken : Nat) (rest : List Char) :=
        read? fuel (⟨position, b⟩ :: stack) ⟨none, []⟩ (position + 1 + taken) rest
      match rest with
      | '?' :: 'P' :: '<' :: rest' => let (n, rest'') := groupName rest'; inner (n + 3) rest''
      | '?' :: '=' :: _ => .error ⟨.lookAround, position, position + 3⟩
      | '?' :: '!' :: _ => .error ⟨.lookAround, position, position + 3⟩
      | '?' :: '<' :: '=' :: _ => .error ⟨.lookAround, position, position + 4⟩
      | '?' :: '<' :: '!' :: _ => .error ⟨.lookAround, position, position + 4⟩
      | '?' :: '<' :: rest' => let (n, rest'') := groupName rest'; inner (n + 2) rest''
      | '?' :: ':' :: rest' => inner 2 rest'
      | ['?'] => .error ⟨.groupUnclosed, position, position + 1⟩
      | '?' :: ')' :: _ => .error ⟨.repetitionMissing, position + 1, position + 2⟩
      | '?' :: _ => .error ⟨.flagUnknown, position + 2, position + 3⟩
      | _ => inner 0 rest
    | ')' =>
      match stack with
      | [] => .error ⟨.groupUnopened, position, position + 1⟩
      | g :: stack => read? fuel stack (g.around.push b.close) (position + 1) rest
    | '|' => read? fuel stack ⟨some b.close, []⟩ (position + 1) rest
    | '*' => do
      let (b, after, rest) ← repeatLast position (position + 1) 0 none b rest
      read? fuel stack b after rest
    | '+' => do
      let (b, after, rest) ← repeatLast position (position + 1) 1 none b rest
      read? fuel stack b after rest
    | '?' => do
      let (b, after, rest) ← repeatLast position (position + 1) 0 (some 1) b rest
      read? fuel stack b after rest
    | '\x7b' =>
      if b.parts.isEmpty then .error ⟨.repetitionMissing, position, position + 1⟩
      else do
        let (least, most, after, rest) ← counts? position rest
        let (b, after, rest) ← repeatLast position after least most b rest
        read? fuel stack b after rest
    | '[' => do
      let (set, after, rest) ← class? position rest
      read? fuel stack (b.push (.one set)) after rest
    | '^' => read? fuel stack (b.push (.anchor .textStart)) (position + 1) rest
    | '$' => read? fuel stack (b.push (.anchor .textEnd)) (position + 1) rest
    | '.' => read? fuel stack (b.push (.one .anyInLine)) (position + 1) rest
    | '\\' =>
      match rest with
      | [] => .error ⟨.escapeAtEnd, position, position + 1⟩
      | d :: rest' =>
        match escape? d with
        | .ok (.char c) => read? fuel stack (b.push (.one (.single c))) (position + 2) rest'
        | .ok (.set s) => read? fuel stack (b.push (.one s)) (position + 2) rest'
        | .ok (.anchor a) => read? fuel stack (b.push (.anchor a)) (position + 2) rest'
        | .error fault => .error ⟨fault, position, position + 2⟩
    | c => read? fuel stack (b.push (.one (.single c))) (position + 1) rest

end Pattern.Reader

/-- The pattern of a text, or the report of what is wrong with the text. -/
def Pattern.parse (text : String) : Except String Pattern :=
  match Pattern.Reader.read? text.length [] ⟨none, []⟩ 0 text.toList with
  | .ok p => .ok p
  | .error e => .error (e.report text)

end TrafficConfig
