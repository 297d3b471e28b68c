import Overseer.Assoc
import Overseer.Fragment.Basic

set_option autoImplicit false

/-! # Joining fragments into one buffer

The checker takes one text, so the target fragments are joined into a buffer. A line map says
which line of which fragment a line of the buffer came from. A directive keeps its place in
the buffer as an empty line but has no entry. Lines count from one. -/

namespace Overseer

/-- Where a line of the buffer came from. -/
structure Origin where
  /-- The number of the fragment. -/
  fragment : Int
  /-- The line inside the fragment. -/
  line : Int
  deriving DecidableEq, Repr

/-- The origins of lines of a buffer. -/
structure LineMap where
  /-- Origins by line of the buffer, in the order in which they were entered. -/
  origins : Assoc Int Origin := Assoc.empty

namespace LineMap

/-- Enter an origin, unless the line has one. -/
def add? (m : LineMap) (line : Int) (origin : Origin) : Option LineMap :=
  if m.origins.contains line then none else some ⟨m.origins.insert line origin⟩

/-- The origin of a line of the buffer. -/
def resolve (m : LineMap) (line : Int) : Option Origin := m.origins.get? line

/-- The number of lines with an origin. -/
def size (m : LineMap) : Nat := m.origins.size

/-- The fragments that lines came from, in order of first occurrence. -/
def fragments (m : LineMap) : List Int :=
  m.origins.values.foldl
    (fun seen o => if seen.contains o.fragment then seen else seen ++ [o.fragment]) []

end LineMap

/-- One line of a buffer, with its origin unless it is a directive's. -/
structure Slot where
  text : String
  origin : Option Origin
  deriving DecidableEq, Repr

namespace Fragment

/-- The place that one line of a fragment takes in the buffer. -/
def slot (f : Fragment) (number : Nat) (line : String) : Slot :=
  if isDirective line then ⟨"", none⟩ else ⟨line, some ⟨f.index, number⟩⟩

/-- The places that the lines of a fragment take in the buffer. -/
def slots (f : Fragment) : List Slot :=
  f.lines.zipIdx.map fun (line, i) => f.slot (i + 1) line

end Fragment

/-- A buffer joined from fragments, with its line map. -/
structure Buffer where
  text : String
  map : LineMap

namespace Buffer

/-- The places of all lines of the target fragments. -/
def slots (fragments : List Fragment) (language : String) : List Slot :=
  (fragments.filter (·.isTarget language)).flatMap Fragment.slots

/-- The lines with an origin, by their place in the buffer. -/
def origins (slots : List Slot) : List (Int × Origin) :=
  slots.zipIdx.filterMap fun (s, i) => s.origin.map fun o => ((i : Int) + 1, o)

/-- Join the target fragments. -/
def ofFragments (fragments : List Fragment) (language : String) : Buffer :=
  let all := slots fragments language
  { text := "\n".intercalate (all.map (·.text))
    map := ⟨Assoc.ofList (origins all)⟩ }

end Buffer

end Overseer
