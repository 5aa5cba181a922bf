import TrafficConfig.Diagnostic
import TrafficConfig.Value
import TrafficConfig.Number.Shortest
import TrafficConfig.Pattern.Reader

/-!
# Validators

A validator looks at the value of one attribute and reports every violation at the attribute's
path. A value of a kind that it does not know is none of its business.
-/

namespace TrafficConfig

/-- A check of attribute values. -/
structure Validator where
  description : String
  validate : Path → Value → List Diagnostic

namespace Validator

/-- One report at a path. -/
def report (path : Path) (summary detail : String) : List Diagnostic :=
  [(Diagnostic.error summary detail).atPath path]

/-- A string must be one of the allowed ones. -/
def oneOf (allowed : List String) (message : Option String) : Validator where
  description := "value must be one of " ++ String.intercalate ", " allowed
  validate path
    | .string s =>
      if allowed.contains s then []
      else report path
        (message.getD (path.display ++ " must be one of " ++ String.intercalate ", " allowed))
        ("Got " ++ Text.quote s)
    | _ => []

/-- Whether a number is whole and lies between two bounds, both included. -/
def inRange (least most : Int) (x : Number) : Bool :=
  x.isWhole && (Number.ofInt least).le x && x.le (Number.ofInt most)

/-- A number must be whole and lie between two bounds. -/
def wholeWithin (least most : Int) (message : Option String) : Validator where
  description := s!"value must be a whole number within {least}-{most}"
  validate path
    | .number x =>
      if inRange least most x then []
      else report path (message.getD (path.display ++ s!" must be a value within {least}-{most}"))
        ("Got " ++ x.display)
    | _ => []

/-- A string must match a pattern; a text that is no pattern is reported for every string. -/
def matching (pattern description : String) : Validator where
  description := description
  validate path
    | .string s =>
      match Pattern.parse pattern with
      | .ok p =>
        if p.matchesSomewhere s then []
        else report path (path.display ++ " must match " ++ description)
          s!"Value '{s}' does not match pattern"
      | .error fault => report path ("Invalid pattern for " ++ path.display) fault
    | _ => []

/-- A bound that may be missing, as the description shows it. -/
def showBound : Option Nat → String
  | some n => s!"Some({n})"
  | none => "None"

/-- A list or a set must not have too few or too many elements. -/
def lengthWithin (least most : Option Nat) : Validator where
  description := "list length must be within " ++ showBound least ++ "-" ++ showBound most
  validate path v :=
    match v.elements? with
    | none => []
    | some items =>
      let count := items.length
      let tooFew := match least with
        | some n =>
          if count < n then
            report path (path.display ++ s!" must have at least {n} items") s!"Got {count} items"
          else []
        | none => []
      let tooMany := match most with
        | some n =>
          if n < count then
            report path (path.display ++ s!" must have at most {n} items") s!"Got {count} items"
          else []
        | none => []
      tooFew ++ tooMany

end Validator

end TrafficConfig
