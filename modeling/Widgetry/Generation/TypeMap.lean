import Widgetry.Text.Identifier

/-!
# Types of generated fields

Which type hint a generated field has for the type it was declared with: known types are looked
up, arrays are lists, a capitalised name is a type of the user's own, and all else is anything.
-/

namespace Widgetry

/-- Declared types with their hints; of several entries the first counts. -/
structure TypeMap where
  entries : List (String × String)

namespace TypeMap

def standard : TypeMap where
  entries :=
    [("int", "int"), ("i32", "int"), ("i64", "int"), ("u32", "int"), ("u64", "int"),
      ("uint", "int"), ("str", "str"), ("string", "str"), ("bool", "bool"), ("float", "float"),
      ("f32", "float"), ("f64", "float"), ("double", "float")]

def register (m : TypeMap) (type hint : String) : TypeMap :=
  ⟨(type, hint) :: m.entries⟩

/-- The standard types with some others, the last of which count most. -/
def withOverrides (overrides : List (String × String)) : TypeMap :=
  overrides.foldl (fun m e => m.register e.1 e.2) standard

/-- The hint of what is neither known nor the user's own. -/
def anything : String := "Any"

/-- The hint of a type that is no array. -/
def plainHint (m : TypeMap) (type : String) : String :=
  match m.entries.lookup type with
  | some a => a
  | none =>
    let capitalised := match type.toList with
      | [] => false
      | c :: _ => Text.isCapital c
    if capitalised && Text.isIdentifier type then type else anything

def hintOf (m : TypeMap) : List Char → String
  | '[' :: ']' :: item => "list[" ++ hintOf m item ++ "]"
  | cs => m.plainHint (String.ofList cs)

def hint (m : TypeMap) (type : String) : String := m.hintOf type.toList

end TypeMap

/-- Whether a hint speaks of anything. -/
def mentionsAnything (hint : String) : Bool :=
  go hint.toList
where
  go : List Char → Bool
    | [] => false
    | c :: rest => TypeMap.anything.toList.isPrefixOf (c :: rest) || go rest

end Widgetry
