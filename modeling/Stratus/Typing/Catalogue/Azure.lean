import Stratus.Typing.Catalogue.Entry

/-! Types for the resources of Azure. -/
namespace Stratus.Catalogue

def resourceGroup : String × Field := required "resource_group" "Azure Resource Group name"

def location : String × Field := required "location" "Azure location (e.g., eastus)"

def azure : List TypeDef := family "AzureTaggable" "AzureNameable"
  (entries "tags" "Resource tags" [("managed_by", .str "terraform")]) [
  ("AzureVirtualMachine", [
    required "name" "Virtual Machine name",
    resourceGroup,
    location,
    text "vm_size" "VM size (e.g., Standard_DS1_v2)" "Standard_DS1_v2",
    items "network_interface_ids" "List of Network Interface IDs" [],
    requiredOf "map" "storage_profile" "Storage profile configuration",
    requiredOf "map" "os_profile" "OS profile configuration",
    required "admin_username" "Administrator username",
    required "admin_password" "Administrator password"]),
  ("AzureVmScaleSet", [
    required "name" "VM Scale Set name",
    resourceGroup,
    location,
    requiredOf "map" "sku" "SKU information for the scale set",
    requiredOf "map" "upgrade_policy" "Upgrade policy configuration",
    requiredOf "map" "virtual_machine_profile" "Virtual machine profile configuration"]),
  ("AzureFunctionApp", [
    required "name" "Function App name",
    resourceGroup,
    location,
    required "app_service_plan_id" "App Service Plan ID",
    required "storage_account_name" "Storage Account name",
    text "runtime_stack" "Runtime stack (e.g., python|3.9)" "python|3.9"]),
  ("AzureAppService", [
    required "name" "App Service name",
    resourceGroup,
    location,
    required "app_service_plan_id" "App Service Plan ID",
    text "runtime_stack" "Runtime stack (e.g., DOTNETCORE|3.1)" "DOTNETCORE|3.1",
    requiredOf "map" "site_config" "Site configuration settings"]),
  ("AzureContainerInstance", [
    required "name" "Container Instance name",
    resourceGroup,
    location,
    required "container_group_name" "Container Group name",
    text "os_type" "Operating system type (e.g., Linux, Windows)" "Linux",
    requiredOf "list" "containers" "List of containers within the instance",
    text "ip_address_type" "IP address type (e.g., Public, Private)" "Public",
    items "ports" "List of ports to expose" [.int 80]]),
  ("AzureVirtualNetwork", [
    required "name" "Virtual Network name",
    resourceGroup,
    location,
    requiredOf "list" "address_space" "List of address spaces (e.g., ['10.0.0.0/16'])",
    requiredOf "list" "subnets" "List of subnets within the virtual network"]),
  ("AzureSubnet", [
    required "name" "Subnet name",
    required "virtual_network_name" "Parent Virtual Network name",
    required "address_prefix" "Address prefix (e.g., 10.0.1.0/24)",
    required "network_security_group_id" "Network Security Group ID"]),
  ("AzureNetworkSecurityGroup", [
    required "name" "Network Security Group name",
    resourceGroup,
    location,
    requiredOf "list" "security_rules" "List of security rules"]),
  ("AzureApplicationGateway", [
    required "name" "Application Gateway name",
    resourceGroup,
    location,
    requiredOf "map" "sku" "SKU information for the Application Gateway",
    requiredOf "list" "gateway_ip_configurations" "List of IP configurations",
    requiredOf "list" "frontend_ip_configurations" "List of frontend IP configurations",
    requiredOf "list" "frontend_ports" "List of frontend ports",
    requiredOf "list" "backend_address_pools" "List of backend address pools",
    requiredOf "list" "backend_http_settings_collection" "Collection of backend HTTP settings",
    requiredOf "list" "http_listeners" "List of HTTP listeners",
    requiredOf "list" "request_routing_rules" "List of request routing rules"]),
  ("AzureLoadBalancer", [
    required "name" "Load Balancer name",
    resourceGroup,
    location,
    requiredOf "list" "frontend_ip_configurations" "List of frontend IP configurations",
    requiredOf "list" "backend_address_pools" "List of backend address pools",
    requiredOf "list" "load_balancing_rules" "List of load balancing rules",
    requiredOf "list" "probes" "List of probes"]),
  ("AzureDnsZone", [
    required "name" "DNS Zone name",
    resourceGroup,
    text "location" "Azure location (usually 'global')" "global",
    text "zone_type" "DNS zone type (Public or Private)" "Public",
    items "registration_virtual_networks" "List of virtual networks for private DNS zones" []]),
  ("AzureStorageAccount", [
    required "name" "Storage Account name",
    resourceGroup,
    location,
    text "account_tier" "Storage account tier (e.g., Standard, Premium)" "Standard",
    text "account_replication_type" "Replication type (e.g., LRS, GRS)" "LRS",
    text "access_tier" "Access tier (e.g., Hot, Cool)" "Hot"]),
  ("AzureManagedDisk", [
    required "name" "Managed Disk name",
    resourceGroup,
    location,
    count "disk_size_gb" "Disk size in GB" 128,
    text "disk_publisher" "Disk publisher (e.g., MicrosoftWindowsServer)" "MicrosoftWindowsServer",
    text "disk_offer" "Disk offer (e.g., WindowsServer)" "WindowsServer",
    text "disk_sku" "Disk SKU (e.g., Standard_LRS, Premium_LRS)" "Standard_LRS",
    text "disk_presentation_type" "Disk presentation type (e.g., OS, Data)" "OS"]),
  ("AzureSqlDatabase", [
    required "name" "SQL Database name",
    resourceGroup,
    location,
    required "server_name" "Azure SQL Server name",
    text "edition" "SQL Database edition (e.g., Basic, Standard, Premium)" "Basic",
    count "max_size_bytes" "Maximum size in bytes" 1073741824,
    text "requested_service_objective_name" "Service objective name (e.g., Basic, S0, P1)" "Basic"]),
  ("AzureCosmosDbAccount", [
    required "name" "Cosmos DB Account name",
    resourceGroup,
    location,
    text "offer_type" "Offer type (e.g., Standard, LowLatency)" "Standard",
    text "kind" "Kind of Cosmos DB account (e.g., GlobalDocumentDB, MongoDB)" "GlobalDocumentDB",
    requiredOf "map" "consistency_policy" "Consistency policy settings",
    requiredOf "list" "geo_locations" "List of geographic locations for replication"]),
  ("AzureAdApplication", [
    required "name" "Azure AD Application name",
    resourceGroup,
    required "homepage" "Homepage URL of the application",
    requiredOf "list" "identifier_uris" "List of identifier URIs",
    requiredOf "list" "reply_urls" "List of reply URLs",
    requiredOf "list" "required_resource_access" "List of required resource access"]),
  ("AzureRoleAssignment", [
    required "role_definition_id" "Role Definition ID",
    required "principal_id" "Principal ID (e.g., User, Group, Service Principal)",
    required "scope" "Scope of the role assignment (e.g., subscription, resource group)"]),
  ("AzureKeyVault", [
    required "name" "Key Vault name",
    resourceGroup,
    location,
    text "sku_name" "SKU name (e.g., standard, premium)" "standard",
    required "tenant_id" "Azure Active Directory tenant ID",
    requiredOf "list" "access_policies" "List of access policies"]),
  ("AzureManagedIdentity", [
    required "name" "Managed Identity name",
    resourceGroup,
    location,
    text "type" "Type of Managed Identity (SystemAssigned or UserAssigned)" "SystemAssigned",
    required "principal_id" "Principal ID of the Managed Identity"])]

end Stratus.Catalogue
