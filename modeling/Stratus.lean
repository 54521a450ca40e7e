import Stratus.Deploy.AwsApply
import Stratus.Diagnosis.Table
import Stratus.Proofs.Lexer.Segmentation
import Stratus.Proofs.Printer.Grouping
import Stratus.Terraform.VariableFile
import Stratus.Typing.Record
import Stratus.Typing.Scope
import Stratus.Main
import Stratus.Proofs.Expand.Termination
import Stratus.Proofs.Terraform.Substitution
import Stratus.Proofs.Terraform.Order
import Stratus.Proofs.Terraform.Addressing
import Stratus.Proofs.Printer.Resource
import Stratus.Proofs.Service.MappingsText
import Stratus.Proofs.Service.Mappings
import Stratus.Proofs.Terraform.MetaArgument
import Stratus.Proofs.Terraform.Provider
import Stratus.Proofs.Kubernetes.Namespace
import Stratus.Proofs.Kubernetes.Renaming
import Stratus.Proofs.Deploy.Restoration
import Stratus.Proofs.Command.Failure
import Stratus.Proofs.Expand.Untyped
import Stratus.Proofs.Command.Conversion
import Stratus.Proofs.Evaluate.Body
import Stratus.Proofs.Parser.Instance
import Stratus.Proofs.Typing.Catalogue
import Stratus.Proofs.Printer.Settled
import Stratus.Proofs.Printer.Quotation
import Stratus.Proofs.Settle.Scope
import Stratus.Proofs.Printer.Reindentation
import Stratus.Proofs.Printer.OwnMappings
import Stratus.Proofs.Parser.Sourcing
import Stratus.Proofs.Ansible.Blocks
import Stratus.Proofs.Ansible.FileName
import Stratus.Proofs.Deploy.FileReference
import Stratus.Proofs.Deploy.Address
import Stratus.Proofs.Ansible.Ungrouping
import Stratus.Proofs.Deploy.Network
import Stratus.Proofs.Deploy.Planning
import Stratus.Proofs.Diagnosis.Difference
import Stratus.Proofs.Expand.Spelling
