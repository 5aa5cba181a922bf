/-!
# Lines

A line ends with a line feed, or with a carriage return and a line feed; the last line needs no
end. `lines` and `unlines` are not inverse to each other: a line feed inside a line, a carriage
return before a line's end and a last line that is empty do not survive.
-/

namespace TrafficConfig

namespace Text

/-- The lines of a list of characters. A carriage return is dropped where a line feed follows it. -/
def splitLines : List Char → List (List Char)
  | [] => []
  | c :: rest =>
    if c = '\n' then [] :: splitLines rest
    else if c = '\r' ∧ rest.head? = some '\n' then splitLines rest
    else match splitLines rest with
      | [] => [[c]]
      | line :: more => (c :: line) :: more

/-- The lines of a text. -/
def lines (text : String) : List String := (splitLines text.toList).map String.ofList

/-- Lines with a line feed between them. -/
def unlines (lines : List String) : String := String.intercalate "\n" lines

end Text

end TrafficConfig
