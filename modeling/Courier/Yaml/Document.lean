import Courier.Yaml.Event

/-!
# The first document of a text

A document is its events up to its end or to the first error, so that whoever reads it meets an
error only if nothing before it is refused. An alias is known by the number of its anchor; the
numbers count the names that were bound before.
-/

namespace Courier.Yaml

open Text

inductive Item where
  | nothing
  | aliasOf (anchor : Nat)
  | scalar (tag : Option Bytes) (text : List Char) (style : Style)
  | listStart (tag : Option Bytes)
  | listEnd
  | mapStart (tag : Option Bytes)
  | mapEnd
deriving DecidableEq, Repr

inductive Break where
  | syntaxError (e : SyntaxError)
  | unknownAnchor (m : Mark)
deriving DecidableEq, Repr

abbrev Items := List (Item × Mark)

structure Document where
  items : Items := []
  /-- For each anchor the number of items before the one it names; the latest first. -/
  targets : List (Nat × Nat) := []
  fault : Option Break := none
  /-- Whether anything but the end of the text follows it. -/
  isFollowed : Bool := false

namespace Document

def target (d : Document) (anchor : Nat) : Items :=
  match d.targets.find? (·.1 == anchor) with
  | some (_, n) => d.items.drop n
  | none => []

abbrev Names := List (String × Nat)

def bind (d : Document) (names : Names) (count : Nat) : Option String → Document × Names
  | none => (d, names)
  | some name =>
      let number := names.length
      ({ d with targets := (number, count) :: d.targets },
        (name, number) :: names.filter (·.1 != name))

/-- With one more item. The items are in reverse order while a document is read. -/
def add (d : Document) (item : Item) (m : Mark) : Document :=
  { d with items := (item, m) :: d.items }

/-- Reads on in a document that has so many items; `fuel` is more than there are events. -/
def readOnto (d : Document) (names : Names) (count : Nat) (s : Structure) :
    Nat → Document × Structure
  | 0 => (d, s)
  | fuel + 1 =>
      match Reading.next s with
      | .error e => ({ d with fault := some (.syntaxError e) }, s)
      | .ok ((event, m), s) =>
          let goOn := fun (anchor : Option String) (item : Item) =>
            let (d, names) := d.bind names count anchor
            readOnto (d.add item m) names (count + 1) s fuel
          match event with
          | .textEnd => (if count = 0 then d.add .nothing m else d, s)
          | .documentStart => readOnto d names count s fuel
          | .documentEnd => (d, s)
          | .aliasName name =>
              match names.find? (·.1 == name) with
              | some (_, number) => goOn none (.aliasOf number)
              | none => ({ d with fault := some (.unknownAnchor m) }, s)
          | .scalar anchor tag text style => goOn anchor (.scalar tag text style)
          | .listStart anchor tag => goOn anchor (.listStart tag)
          | .listEnd => goOn none .listEnd
          | .mapStart anchor tag => goOn anchor (.mapStart tag)
          | .mapEnd => goOn none .mapEnd

def hasMore (s : Structure) : Bool :=
  match Reading.next s with
  | .ok ((.textEnd, _), _) => false
  | _ => true

def ofText (cs : List Char) : Document :=
  let s : Structure := { tokens := .ofText cs }
  let (d, s) := readOnto {} [] 0 s (16 * cs.length + 32)
  { d with items := d.items.reverse, isFollowed := d.fault.isNone && hasMore s }

end Document

end Courier.Yaml
