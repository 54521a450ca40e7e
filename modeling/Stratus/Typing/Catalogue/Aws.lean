import Stratus.Typing.Catalogue.Entry

/-! Types for the resources of AWS. -/
namespace Stratus.Catalogue

def aws : List TypeDef := family "AwsTaggable" "AwsNameable"
  (entries "tags" "Resource tags" [("ManagedBy", .str "Terraform")]) [
  ("AwsEc2Instance", [
    text "instance_type" "EC2 instance type" "t2.micro",
    required "ami" "AMI ID",
    required "subnet_id" "Subnet ID",
    items "vpc_security_group_ids" "List of VPC security group IDs" [],
    required "key_name" "SSH key pair name",
    flag "associate_public_ip_address" "Associate public IP address" false,
    entries "root_block_device" "Root block device configuration" [("volume_size", .int 20),
      ("volume_type",
      .str "gp2"), ("delete_on_termination", .bool true)]]),
  ("AwsVpc", [
    text "cidr_block" "CIDR block for the VPC" "10.0.0.0/16",
    flag "enable_dns_hostnames" "Enable DNS hostnames" true,
    flag "enable_dns_support" "Enable DNS support" true]),
  ("AwsSecurityGroup", [
    required "name" "Security group name",
    text "description" "Security group description" "Managed by Terraform",
    required "vpc_id" "VPC ID",
    items "ingress" "Ingress rules" [],
    items "egress" "Egress rules"
      [.map [("from_port", .int 0), ("to_port", .int 0), ("protocol", .str "-1"),
      ("cidr_blocks", .list [.str "0.0.0.0/0"])]]]),
  ("AwsRdsInstance", [
    required "engine" "Database engine",
    required "engine_version" "Database engine version",
    text "instance_class" "RDS instance class" "db.t3.micro",
    count "allocated_storage" "Allocated storage size in GB" 20,
    text "storage_type" "Storage type" "gp2",
    required "username" "Master username",
    required "password" "Master password",
    count "backup_retention_period" "Backup retention period in days" 7,
    flag "multi_az" "Enable Multi-AZ deployment" false]),
  ("AwsS3Bucket", [
    required "bucket" "Bucket name",
    text "acl" "Access control list" "private",
    entries "versioning" "Versioning configuration" [("enabled", .bool true)],
    entries "server_side_encryption_configuration" "Server-side encryption configuration"
      [("rule", .map
      [("apply_server_side_encryption_by_default", .map [("sse_algorithm", .str "AES256")])])]]),
  ("AwsEcsCluster", [
    required "name" "Cluster name",
    items "capacity_providers" "List of capacity providers" [.str "FARGATE", .str "FARGATE_SPOT"],
    items "default_capacity_provider_strategy" "Default capacity provider strategy" [.map
      [("capacity_provider", .str "FARGATE"), ("weight", .int 1), ("base", .int 1)]]]),
  ("AwsAutoScalingGroup", [
    required "name" "Auto Scaling Group name",
    requiredOf "map" "launch_template" "Launch template configuration",
    count "min_size" "Minimum number of instances" 1,
    count "max_size" "Maximum number of instances" 3,
    count "desired_capacity" "Desired number of instances" 2,
    items "vpc_zone_identifier" "List of subnet IDs" [],
    entries "tags" "Tags for the Auto Scaling Group" [("ManagedBy", .str "Terraform")]]),
  ("AwsLaunchTemplate", [
    required "name" "Launch Template name",
    required "image_id" "AMI ID",
    text "instance_type" "Instance type" "t2.micro",
    required "key_name" "SSH key pair name",
    items "security_group_ids" "List of security group IDs" [],
    text "user_data" "User data script" ""]),
  ("AwsLambdaFunction", [
    required "function_name" "Lambda function name",
    required "runtime" "Lambda runtime environment",
    required "role" "IAM role ARN",
    required "handler" "Function handler",
    requiredOf "map" "code" "Code configuration",
    count "timeout" "Function timeout in seconds" 3,
    count "memory_size" "Function memory size in MB" 128]),
  ("AwsEcsService", [
    required "cluster" "ECS Cluster name or ARN",
    required "service_name" "ECS Service name",
    required "task_definition" "Task Definition ARN",
    count "desired_count" "Desired number of tasks" 1,
    text "launch_type" "Launch type (e.g., FARGATE)" "FARGATE",
    requiredOf "map" "network_configuration" "Network configuration for the service"]),
  ("AwsEcsTaskDefinition", [
    required "family" "Task definition family",
    requiredOf "list" "container_definitions" "List of container definitions",
    text "network_mode" "Network mode" "awsvpc",
    items "requires_compatibilities" "List of required compatibilities" [.str "FARGATE"],
    text "cpu" "CPU units" "256",
    text "memory" "Memory in MiB" "512"]),
  ("AwsSubnet", [
    required "cidr_block" "CIDR block for the subnet",
    required "vpc_id" "VPC ID",
    required "availability_zone" "Availability Zone",
    flag "map_public_ip_on_launch" "Map public IP on launch" false]),
  ("AwsRouteTable", [
    required "vpc_id" "VPC ID",
    items "routes" "List of routes" []]),
  ("AwsInternetGateway", [
    required "vpc_id" "VPC ID"]),
  ("AwsLoadBalancer", [
    required "name" "Load Balancer name",
    requiredOf "list" "subnets" "List of subnet IDs",
    requiredOf "list" "security_groups" "List of security group IDs",
    text "load_balancer_type" "Type of load balancer (application or network)" "application",
    text "scheme" "Scheme of the load balancer" "internet-facing"]),
  ("AwsRoute53Record", [
    required "zone_id" "Route53 Hosted Zone ID",
    required "name" "DNS record name",
    required "type" "DNS record type (e.g., A, CNAME)",
    count "ttl" "Time to live for the DNS record" 300,
    requiredOf "list" "records" "List of DNS record values"]),
  ("AwsEbsVolume", [
    required "availability_zone" "Availability Zone",
    count "size" "Size of the volume in GB" 20,
    text "volume_type" "Type of the EBS volume" "gp2",
    flag "encrypted" "Enable encryption" false,
    entries "tags" "Tags for the EBS volume" [("ManagedBy", .str "Terraform")]]),
  ("AwsEfsFileSystem", [
    required "creation_token" "Creation token for the file system",
    text "performance_mode" "Performance mode of the file system" "generalPurpose",
    flag "encrypted" "Enable encryption" false,
    entries "tags" "Tags for the EFS file system" [("ManagedBy", .str "Terraform")]]),
  ("AwsDynamodbTable", [
    required "name" "DynamoDB table name",
    text "billing_mode" "Billing mode (e.g., PROVISIONED, PAY_PER_REQUEST)" "PROVISIONED",
    required "hash_key" "Hash key attribute name",
    text "range_key" "Range key attribute name" "",
    requiredOf "list" "attribute_definitions" "List of attribute definitions",
    entries "provisioned_throughput" "Provisioned throughput settings"
      [("read_capacity_units", .int 5),
      ("write_capacity_units", .int 5)],
    entries "tags" "Tags for the DynamoDB table" [("ManagedBy", .str "Terraform")]]),
  ("AwsIamRole", [
    required "name" "IAM role name",
    required "assume_role_policy" "Policy that grants an entity permission to assume the role",
    text "path" "Path for the IAM role" "/",
    text "description" "Description of the IAM role" "Managed by Terraform"]),
  ("AwsIamPolicy", [
    required "name" "IAM policy name",
    required "policy" "JSON policy document",
    text "description" "Description of the IAM policy" "Managed by Terraform"]),
  ("AwsIamUser", [
    required "name" "IAM user name",
    text "path" "Path for the IAM user" "/",
    entries "tags" "Tags for the IAM user" [("ManagedBy", .str "Terraform")]]),
  ("AwsKmsKey", [
    required "description" "Description of the KMS key",
    text "key_usage" "Key usage (e.g., ENCRYPT_DECRYPT)" "ENCRYPT_DECRYPT",
    text "customer_master_key_spec" "Type of key material" "SYMMETRIC_DEFAULT",
    required "policy" "IAM policy for the KMS key",
    entries "tags" "Tags for the KMS key" [("ManagedBy", .str "Terraform")]])]

end Stratus.Catalogue
