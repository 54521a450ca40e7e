import Stratus.Typing.Registry

/-! How the entries of the catalogue are written. -/
namespace Stratus.Catalogue

def field (name type description : String) (initial : Initial) : String × Field :=
  (name, {
    constraint := { admits := .declared { name := type } }
    initial
    description := some description })

def requiredOf (type name description : String) : String × Field :=
  field name type description .absent

def required : String → String → String × Field := requiredOf "string"

def text (name description value : String) : String × Field :=
  field name "string" description (.value (.str value))

def count (name description : String) (value : Int) : String × Field :=
  field name "number" description (.value (.int value))

def flag (name description : String) (value : Bool) : String × Field :=
  field name "bool" description (.value (.bool value))

def items (name description : String) (value : List Data) : String × Field :=
  field name "list" description (.value (.list value))

def entries (name description : String) (value : Assoc Data) : String × Field :=
  field name "map" description (.value (.map value))

def type (name : String) (base : Option String) (fields : List (String × Field)) : TypeDef :=
  { name, base, fields := Assoc.ofPairs fields }

/-- The types of a cloud: two without a base, and those that extend the first of them. -/
def family (taggable nameable : String) (tags : String × Field)
    (types : List (String × List (String × Field))) : List TypeDef :=
  [type taggable none [tags],
    type nameable none [required "name" "Resource name",
      text "name_prefix" "Resource name prefix" ""]] ++
    types.map fun (name, fields) => type name (some taggable) fields

end Stratus.Catalogue
