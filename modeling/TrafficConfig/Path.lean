import TrafficConfig.Text.Quoted

/-!
# Paths

Where a value lies inside another one: a list of steps, shown with points between them
(`ssl.0.issuer`).
-/

namespace TrafficConfig

/-- One step into a value. -/
inductive Step where
  /-- The attribute of an object. -/
  | name (name : String)
  /-- The entry of a map. -/
  | key (key : String)
  /-- The element of a list. -/
  | index (index : Int)
  deriving DecidableEq

namespace Step

/-- How many positions there are: 2⁶⁴. -/
def positionCount : Int := 18446744073709551616

/-- The position that an index leads to. Positions are counted in 64 bits, so a negative index
lies beyond every list. -/
def slot (index : Int) : Nat := (index % positionCount).toNat

/-- A step as it is shown: a key between quotes. -/
def display : Step → String
  | .name n => n
  | .key k => Text.quote k
  | .index i => toString i

end Step

/-- A path: the steps from the outermost value. -/
abbrev Path := List Step

namespace Path

/-- The path of one attribute of the root. -/
def ofName (name : String) : Path := [.name name]

/-- One attribute further. -/
def name (path : Path) (n : String) : Path := path ++ [.name n]

/-- One element further. -/
def index (path : Path) (i : Nat) : Path := path ++ [.index i]

/-- The path as it is shown. -/
def display (path : Path) : String := String.intercalate "." (path.map Step.display)

end Path

end TrafficConfig
