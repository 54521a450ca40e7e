import Stratus.Typing.Catalogue.Entry

/-! Types for the resources of Google Cloud. -/
namespace Stratus.Catalogue

def gcp : List TypeDef := family "GcpTaggable" "GcpNameable"
  (entries "labels" "Resource labels" [("managed_by", .str "terraform")]) [
  ("GcpComputeInstance", [
    required "name" "Compute instance name",
    text "machine_type" "Machine type (e.g., e2-medium)" "e2-medium",
    required "zone" "GCP zone (e.g., us-central1-a)",
    items "network_interfaces" "List of network interfaces"
      [.map [("network", .str "default"), ("subnetwork",
      .str ""), ("access_configs", .list [.map [("type", .str "ONE_TO_ONE_NAT")]])]],
    items "disks" "List of attached disks" [.map [("boot", .bool true), ("auto_delete", .bool true),
      ("initialize_params", .map [("source_image",
      .str "projects/debian-cloud/global/images/family/debian-10")])]],
    entries "metadata" "Instance metadata" []]),
  ("GcpInstanceTemplate", [
    required "name" "Instance template name",
    text "machine_type" "Machine type" "e2-medium",
    required "region" "GCP region (e.g., us-central1)",
    requiredOf "map" "properties" "Instance properties"]),
  ("GcpInstanceGroup", [
    required "name" "Instance group name",
    required "zone" "GCP zone",
    required "instance_template" "Instance template URL",
    count "target_size" "Target size of the instance group" 1,
    items "named_ports" "List of named ports" []]),
  ("GcpCloudFunction", [
    required "name" "Cloud Function name",
    text "runtime" "Runtime environment (e.g., python39)" "python39",
    required "entry_point" "Function entry point",
    required "source_archive_bucket" "GCS bucket containing the source code",
    required "source_archive_object" "GCS object containing the source code",
    flag "trigger_http" "Trigger function via HTTP" false,
    count "available_memory_mb" "Available memory in MB" 256,
    count "timeout" "Function timeout in seconds" 60]),
  ("GcpCloudRunService", [
    required "name" "Cloud Run service name",
    required "location" "GCP region (e.g., us-central1)",
    required "image" "Container image URL",
    items "ports" "List of ports to expose" [.map [("container_port", .int 8080)]],
    text "ingress" "Ingress settings (e.g., all, internal)" "all",
    text "memory" "Memory allocation (e.g., 256Mi)" "256Mi",
    count "timeout_seconds" "Request timeout in seconds" 300]),
  ("GcpVpcNetwork", [
    required "name" "VPC network name",
    flag "auto_create_subnetworks" "Whether to auto-create subnetworks" false,
    text "routing_mode" "Routing mode (e.g., GLOBAL, REGIONAL)" "GLOBAL"]),
  ("GcpSubnet", [
    required "name" "Subnet name",
    required "network" "VPC network name",
    required "ip_cidr_range" "IP CIDR range (e.g., 10.0.1.0/24)",
    required "region" "GCP region (e.g., us-central1)",
    flag "private_ip_google_access" "Enable private IP access to Google APIs" false]),
  ("GcpFirewallRule", [
    required "name" "Firewall rule name",
    required "network" "VPC network name",
    text "direction" "Direction of traffic (INGRESS or EGRESS)" "INGRESS",
    count "priority" "Priority of the firewall rule" 1000,
    items "allowed" "Allowed protocols and ports" [.map [("IPProtocol", .str "tcp"), ("ports", .list
      [.str "22", .str "80", .str "443"])]],
    items "source_ranges" "Source IP ranges" [.str "0.0.0.0/0"]]),
  ("GcpLoadBalancer", [
    required "name" "Load balancer name",
    text "type" "Type of load balancer (e.g., HTTP, TCP)" "HTTP",
    required "region" "GCP region (e.g., us-central1)",
    required "backend_service" "Backend service name or URL",
    requiredOf "map" "frontend_configuration" "Frontend configuration settings"]),
  ("GcpCloudDnsRecord", [
    required "name" "DNS record name",
    required "type" "DNS record type (e.g., A, CNAME)",
    count "ttl" "Time to live for the DNS record" 300,
    requiredOf "list" "rrdatas" "Resource records data",
    required "zone" "DNS zone name"]),
  ("GcpStorageBucket", [
    required "name" "Cloud Storage bucket name",
    text "location" "Bucket location (e.g., US, EU)" "US",
    text "storage_class" "Storage class (e.g., STANDARD, NEARLINE)" "STANDARD",
    flag "versioning" "Enable object versioning" false,
    flag "uniform_bucket_level_access" "Enable uniform bucket-level access" false]),
  ("GcpPersistentDisk", [
    required "name" "Persistent disk name",
    required "zone" "GCP zone",
    count "size_gb" "Disk size in GB" 50,
    text "type" "Disk type (e.g., pd-standard, pd-ssd)" "pd-standard",
    entries "labels" "Disk labels" [("managed_by", .str "terraform")]]),
  ("GcpCloudSqlInstance", [
    required "name" "Cloud SQL instance name",
    text "database_version" "Database version (e.g., MYSQL_8_0)" "MYSQL_8_0",
    required "region" "GCP region",
    text "tier" "Machine type (e.g., db-f1-micro)" "db-f1-micro",
    flag "storage_auto_resize" "Enable automatic storage increase" true,
    count "storage_size" "Initial storage size in GB" 10,
    text "storage_type" "Storage type (e.g., PD_SSD, PD_HDD)" "PD_SSD",
    required "root_password" "Root password for the database"]),
  ("GcpCloudFirestore", [
    required "name" "Firestore database name",
    required "location_id" "GCP location ID (e.g., us-central)",
    required "database_id" "Firestore database ID",
    text "type" "Database type (e.g., FIRESTORE_NATIVE)" "FIRESTORE_NATIVE",
    text "concurrency_mode" "Concurrency mode (e.g., OPTIMISTIC)" "OPTIMISTIC"]),
  ("GcpServiceAccount", [
    required "account_id" "Service account ID",
    required "display_name" "Display name for the service account",
    text "description" "Service account description" "Managed by Terraform"]),
  ("GcpIamPolicy", [
    required "name" "IAM policy name",
    required "policy_data" "JSON policy document",
    text "description" "IAM policy description" "Managed by Terraform"]),
  ("GcpIamRole", [
    required "name" "IAM role name",
    required "title" "Title of the IAM role",
    text "description" "IAM role description" "Managed by Terraform",
    requiredOf "list" "permissions" "List of permissions",
    text "stage" "Stage of the IAM role (e.g., GA, BETA)" "GA"])]

end Stratus.Catalogue
