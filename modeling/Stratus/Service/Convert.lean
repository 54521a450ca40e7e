import Stratus.Ansible.Plays
import Stratus.Kubernetes.Generator
import Stratus.Service.Reader
import Stratus.Terraform.Generator

/-! Everything that a configuration is turned into. -/
namespace Stratus

structure Conversion where
  terraform : String
  playbook : Data
  inventory : Data
  resources : List Data
  mappings : Option String

namespace Landscape

def terraform (l : Landscape) : Outcome String × Terraform.State :=
  (Terraform.generate l.services).run.run { providers := l.providers }

def mappingsText? (l : Landscape) : Option String :=
  if l.mappings.holds then some (Text.replace l.mappings.text "'" "\"") else none

end Landscape

def Conversion.ofTree (tree : Data) : Outcome Conversion := do
  let l ← Landscape.ofTree tree
  let terraform ← l.terraform.1
  let (playbook, inventory) ← Ansible.Plays.generate l.services
  let resources ← Kubernetes.generate [] l.services
  return { terraform, playbook, inventory, resources, mappings := l.mappingsText? }

end Stratus
