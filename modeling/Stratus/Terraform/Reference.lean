import Stratus.Data.Access

/-!
References to components. `infrastructure.section.name.attribute` stands for an attribute of the
resource that a component became, the identifier if none is named.
-/
namespace Stratus.Terraform

abbrev Addresses := Assoc String

def wrapped (s : String) : String := "$\x7b" ++ s ++ "\x7d"

def mark : String := "infrastructure."

def reference (d : Data) : Outcome String :=
  if !d.holds then .ok ""
  else do
    let s ← d.strFor "startswith"
    return if Text.startsWith s "$\x7b" && Text.endsWith s "\x7d" then s else wrapped s

def resolveName (addresses : Addresses) (name : String) : String :=
  if !Text.startsWith name mark then wrapped name
  else match Text.split name "." with
    | _ :: _ :: component :: path =>
      match Assoc.get? addresses component with
      | some address =>
        if address == "" then wrapped name
        else wrapped (address ++ "." ++ if path.isEmpty then "id" else ".".intercalate path)
      | none => wrapped name
    | _ => wrapped name

def resolve (addresses : Addresses) (d : Data) : Outcome String :=
  if !d.holds then .ok "" else resolveName addresses <$> d.strFor "startswith"

/-- A reference at the start of a text: in braces, or up to white space. -/
def referenceAt? (cs : List Char) : Option (List Char × List Char) :=
  let braced := (Text.after? ("$\x7b" ++ mark).toList cs).bind fun rest =>
    match rest.takeWhile (· != '\x7d'), rest.dropWhile (· != '\x7d') with
    | c :: name, _ :: rest => some (mark.toList ++ c :: name, rest)
    | _, _ => none
  let bare := (Text.after? mark.toList cs).bind fun rest =>
    match rest.takeWhile (!Text.isBlank ·) with
    | [] => none
    | name => some (mark.toList ++ name, rest.dropWhile (!Text.isBlank ·))
  braced.or bare

/-- Resolves the references in a text, done so far last first; each step takes a character or more.
-/
def resolveFrom (addresses : Addresses) : Nat → List Char → List Char → List Char
  | fuel + 1, done, c :: cs =>
    match referenceAt? (c :: cs) with
    | some (name, rest) =>
      resolveFrom addresses fuel ((resolveName addresses (String.ofList name)).toList.reverse ++
        done) rest
    | none => resolveFrom addresses fuel (c :: done) cs
  | _, done, _ => done

def resolveText (addresses : Addresses) (s : String) : String :=
  String.ofList (resolveFrom addresses s.length [] s.toList).reverse

def resolveAll (addresses : Addresses) : Data → Data :=
  Data.mapTexts (fun _ => resolveText addresses) false

def resolveEntries (addresses : Addresses) : Assoc Data → Assoc Data :=
  Data.mapEntries fun _ => resolveText addresses

/-- The address of the component that a dependency names last; empty if there is none. -/
def dependencyAddress (addresses : Addresses) (d : Data) : Outcome String :=
  if !d.holds then .ok ""
  else do
    let parts ← d.split "."
    match parts.getLast? with
    | some component => return if parts.length < 3 then "" else Assoc.getD addresses component ""
    | none => return ""

end Stratus.Terraform
