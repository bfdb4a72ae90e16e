import BicepForge.Bicep.Document
import BicepForge.Conversion.Analysis
import BicepForge.Generation.VirtualMachine
import BicepForge.Instant

/-!
# The converted document

A converted template is one virtual machine with all it needs. The configuration decides whether
the network is made or referred to, which operating system runs, and which parts are left out.
-/

namespace BicepForge.Conversion

open Bicep

/-- What decides the shape of a converted document. -/
structure Plan where
  config : Configuration
  vmName : String

def networkApiVersion : String := "2023-05-01"

def computeApiVersion : String := "2024-11-01"

def privateAddress : String :=
  "networkInterface.properties.ipConfigurations[0].properties.privateIPAddress"

/-- The public host name of the virtual machine. -/
def publicHost : String := "publicIPAddress.properties.dnsSettings.fqdn"

/-- An object that refers to another resource. -/
def idOf (symbol : String) : Body :=
  [.ref "id" (symbol ++ ".id")]

namespace Plan

/-- Whether the network is there already. -/
def existing (p : Plan) : Bool :=
  p.config.networkMode = .useExisting

/-- Whether the machine runs Linux. -/
def linux (p : Plan) : Bool :=
  p.config.osType = .linux

/-- The resource group of the existing network, where it is another one. -/
def vnetResourceGroup? (p : Plan) : Option String :=
  (Configuration.worded? p.config.existingVnetResourceGroup?).map Text.trim

def onlyIf {α : Type} (condition : Bool) (items : List α) : List α :=
  if condition then items else []

/-- A described string parameter with a literal default. -/
def textParam (name description default : String) : Param :=
  ({ name, type := .string : Param }.describe description).withDefault (.str default)

def parameters (p : Plan) : List Param :=
  let config := p.config
  [textParam "vmName" "Virtual Machine name" p.vmName,
   textParam "location"
     (if p.existing then "Location for VM resources" else "Location for all resources")
     config.conversionLocation] ++
  onlyIf p.existing
    ([textParam "existingVnetName" "Existing Virtual Network name"
        (config.existingVnetName?.getD ""),
      textParam "existingSubnetName" "Existing Subnet name"
        (config.existingSubnetName?.getD "")] ++
     (p.vnetResourceGroup?.map fun group =>
       textParam "vnetResourceGroupName" "Resource Group containing the VNet" group).toList) ++
  [textParam "adminUsername" "Administrator username" config.adminUsername,
   ({ name := "adminPasswordOrKey", type := .string : Param }.describe
      "Administrator password or SSH key").secret,
   textParam "vmSize" "Virtual Machine size" config.vmSize,
   (({ name := "osType", type := .string : Param }.describe "OS Type").allow
      ["Linux", "Windows"]).withDefault (.str config.osType.name)] ++
  onlyIf (!p.existing) [textParam "environment" "Environment tag" config.environment]

/-- A variable that adds an ending to the name of the machine. -/
def nameVariable (name ending : String) : Variable :=
  ⟨name, .interp (hole "vmNameClean" ++ ending)⟩

def vars (p : Plan) : List Variable :=
  [⟨"vmNameClean", .call "toLower" [.call "replace" [.expr "vmName", .str " ", .str "-"]]⟩] ++
  onlyIf p.config.includeNsg [nameVariable "networkSecurityGroupName" "-nsg"] ++
  onlyIf (!p.existing)
    [nameVariable "virtualNetworkName" "-vnet", ⟨"subnetName", .str "default"⟩] ++
  [nameVariable "networkInterfaceName" "-nic", nameVariable "osDiskName" "-osdisk"] ++
  onlyIf p.config.includePublicIp [nameVariable "publicIPAddressName" "-pip"] ++
  onlyIf (!p.existing)
    [⟨"vnetAddressSpace", .str p.config.vnetAddressSpace⟩,
     ⟨"subnetAddressSpace", .str p.config.subnetAddressSpace⟩]

/-- Name and location, and a tag on what belongs to a new network. -/
def located (p : Plan) (name : String) : Body :=
  [.ref "name" name, .ref "location" "location"] ++
    onlyIf (!p.existing) [.nest "tags" [.ref "environment" "environment"]]

def existingVnet (p : Plan) : Resource where
  symbol := "existingVnet"
  type := "Microsoft.Network/virtualNetworks"
  apiVersion := networkApiVersion
  existing := true
  comment? := some (if p.vnetResourceGroup?.isSome
    then "Reference existing VNet in different resource group"
    else "Reference existing VNet in same resource group")
  body :=
    [.ref "name" "existingVnetName"] ++
      onlyIf p.vnetResourceGroup?.isSome
        [.property "scope" (.call "resourceGroup" [.expr "vnetResourceGroupName"])]

def existingSubnet : Resource where
  symbol := "existingSubnet"
  type := "Microsoft.Network/virtualNetworks/subnets"
  apiVersion := networkApiVersion
  existing := true
  body := [.ref "parent" "existingVnet", .ref "name" "existingSubnetName"]

/-- The security group, which lets in the protocol to reach the machine by. -/
def networkSecurityGroup (p : Plan) : Resource where
  symbol := "networkSecurityGroup"
  type := "Microsoft.Network/networkSecurityGroups"
  apiVersion := networkApiVersion
  comment? := some "Network Security Group"
  body :=
    p.located "networkSecurityGroupName" ++
      [.nest "properties"
        [.property "securityRules" (.array [.object
          [.lit "name" (if p.linux then "SSH" else "RDP"),
           .nest "properties"
             [.property "priority" (.int 1001),
              .lit "access" "Allow",
              .lit "direction" "Inbound",
              .lit "destinationPortRange" (if p.linux then "22" else "3389"),
              .lit "protocol" "Tcp",
              .lit "sourcePortRange" "*",
              .lit "sourceAddressPrefix" "*",
              .lit "destinationAddressPrefix" "*"]]])]]

/-- The new network with its one subnet, which carries the security group. -/
def virtualNetwork (p : Plan) : Resource where
  symbol := "virtualNetwork"
  type := "Microsoft.Network/virtualNetworks"
  apiVersion := networkApiVersion
  comment? := some "Virtual Network"
  body :=
    p.located "virtualNetworkName" ++
      [.nest "properties"
        [.nest "addressSpace" [.property "addressPrefixes" (.array [.expr "vnetAddressSpace"])],
         .property "subnets" (.array [.object
           [.ref "name" "subnetName",
            .nest "properties"
              ([.ref "addressPrefix" "subnetAddressSpace"] ++
                onlyIf p.config.includeNsg
                  [.nest "networkSecurityGroup" (idOf "networkSecurityGroup")])]])]]

/-- The public address with its host name. -/
def publicIpAddress (p : Plan) : Resource where
  symbol := "publicIPAddress"
  type := "Microsoft.Network/publicIPAddresses"
  apiVersion := networkApiVersion
  comment? := some "Public IP Address"
  body :=
    p.located "publicIPAddressName" ++
      [.nest "sku" [.lit "name" "Standard"],
       .nest "properties"
         [.lit "publicIPAllocationMethod" "Static",
          .nest "dnsSettings" [.ref "domainNameLabel" "vmNameClean"]]]

/-- The network interface. It carries the security group where the subnet is not ours. -/
def networkInterface (p : Plan) : Resource where
  symbol := "networkInterface"
  type := Registry.networkInterfaceType
  apiVersion := networkApiVersion
  comment? := some "Network Interface"
  body :=
    p.located "networkInterfaceName" ++
      [.nest "properties"
        ([.property "ipConfigurations" (.array [.object
           [.lit "name" "ipconfig1",
            .nest "properties"
              ([.lit "privateIPAllocationMethod" "Dynamic",
                .nest "subnet" [.ref "id"
                  (if p.existing then "existingSubnet.id"
                    else "virtualNetwork.properties.subnets[0].id")]] ++
               onlyIf p.config.includePublicIp
                 [.nest "publicIPAddress" (idOf "publicIPAddress")])]])] ++
         onlyIf (p.existing && p.config.includeNsg)
           [.nest "networkSecurityGroup" (idOf "networkSecurityGroup")])]

def virtualMachine (p : Plan) : Resource where
  symbol := "virtualMachine"
  type := Registry.virtualMachineType
  apiVersion := computeApiVersion
  comment? := some "Virtual Machine"
  body :=
    p.located "vmName" ++
      [.nest "properties"
        ([.nest "hardwareProfile" [.ref "vmSize" "vmSize"],
          .nest "osProfile"
            [.ref "computerName" "vmName",
             .ref "adminUsername" "adminUsername",
             .ref "adminPassword" "adminPasswordOrKey",
             if p.linux then
               .nest "linuxConfiguration" [.flag "disablePasswordAuthentication" false]
             else .nest "windowsConfiguration" [.flag "enableAutomaticUpdates" true]],
          .nest "storageProfile"
            [.nest "imageReference" (Generation.imageReference p.config.osType),
             .nest "osDisk"
               [.ref "name" "osDiskName",
                .lit "caching" "ReadWrite",
                .lit "createOption" "FromImage",
                .nest "managedDisk" [.lit "storageAccountType" "Premium_LRS"]]],
          .nest "networkProfile"
            [.property "networkInterfaces" (.array [.object (idOf "networkInterface")])]] ++
         onlyIf p.config.includeBootDiagnostics
           [.nest "diagnosticsProfile" [.nest "bootDiagnostics" [.flag "enabled" true]]])]

def resources (p : Plan) : List Resource :=
  onlyIf p.existing [p.existingVnet, existingSubnet] ++
  onlyIf p.config.includeNsg [p.networkSecurityGroup] ++
  onlyIf (!p.existing) [p.virtualNetwork] ++
  onlyIf p.config.includePublicIp [p.publicIpAddress] ++
  [p.networkInterface, p.virtualMachine]

/-- How to log in: by the public host name where there is one, else by the private address. -/
def connectionCommand (p : Plan) : Value :=
  let host := hole (if p.config.includePublicIp then publicHost else privateAddress)
  .interp (if p.linux then "ssh " ++ hole "adminUsername" ++ "@" ++ host else "mstsc /v:" ++ host)

def textOutput (name expression : String) : Output :=
  { name, type := .string, value := .expr expression }

def outputs (p : Plan) : List Output :=
  [textOutput "vmId" "virtualMachine.id", textOutput "vmName" "virtualMachine.name"] ++
  onlyIf p.existing
    [textOutput "existingVnetUsed" "existingVnet.name",
     textOutput "existingSubnetUsed" "existingSubnet.name"] ++
  onlyIf p.config.includePublicIp
    [textOutput "publicIPAddress" "publicIPAddress.properties.ipAddress"] ++
  [textOutput "privateIPAddress" privateAddress,
   { name := "connectionCommand", type := .string, value := p.connectionCommand }]

def header (p : Plan) (now : Instant) : List String :=
  if p.existing then
    ["VM Deployment using Existing VNet/Subnet - Converted from ARM Template",
     "Generated on: " ++ now.timestamp,
     "Uses existing network infrastructure",
     "VM Name: " ++ p.vmName]
  else
    ["Complete VM Deployment - Converted from ARM Template",
     "Generated on: " ++ now.timestamp,
     "Includes all dependencies for standalone deployment"]

def document (p : Plan) (now : Instant) : Document where
  header := p.header now
  scope := .resourceGroup
  metadata :=
    [("description",
       if p.existing then "VM deployment using existing VNet and subnet"
       else "Complete VM deployment with all dependencies"),
     ("author", Generation.generatorName ++ " - ARM Converter"),
     ("version", "1.0.0")]
  parameters := p.parameters
  vars := p.vars
  declarations := p.resources.map .resource
  outputs := p.outputs

end Plan

end BicepForge.Conversion
