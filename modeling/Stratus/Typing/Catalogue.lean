import Stratus.Typing.Catalogue.Aws
import Stratus.Typing.Catalogue.Gcp
import Stratus.Typing.Catalogue.Azure

/-! The types that come with the library. -/
namespace Stratus

namespace Catalogue

def types : List TypeDef := aws ++ gcp ++ azure

end Catalogue

def Registry.withCatalogue (r : Registry) : Outcome Registry :=
  Catalogue.types.foldlM Registry.register r

end Stratus
