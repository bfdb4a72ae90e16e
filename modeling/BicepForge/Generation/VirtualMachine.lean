import BicepForge.Generation.Naming
import BicepForge.Generation.Recipe
import BicepForge.Registry

/-!
# The recipe of virtual machines

A virtual machine comes with a network interface, which is declared ahead of it.
-/

namespace BicepForge.Generation

open Bicep

def imageReference : OsType → Body
  | .linux =>
    [.lit "publisher" "Canonical",
     .lit "offer" "0001-com-ubuntu-server-jammy",
     .lit "sku" "22_04-lts-gen2",
     .lit "version" "latest"]
  | .windows =>
    [.lit "publisher" "MicrosoftWindowsServer",
     .lit "offer" "WindowsServer",
     .lit "sku" "2022-datacenter-azure-edition",
     .lit "version" "latest"]

/-- The settings of one operating system, null for any other. -/
def settingsFor (os : OsType) (body : Body) : Value :=
  .conditional ("osType == '" ++ os.name ++ "'") (.object body) .null

def virtualMachineSettings (symbol : String) (config : Configuration) : Body :=
  [.nest "hardwareProfile" [.ref "vmSize" "vmSize"],
   .nest "osProfile"
     [.ref "computerName" "take(resourceNameFormatted, 15)",
      .ref "adminUsername" "adminUsername",
      .ref "adminPassword" "adminPassword",
      .property "windowsConfiguration" (settingsFor .windows
        [.flag "enableAutomaticUpdates" true,
         .flag "provisionVMAgent" true,
         .nest "patchSettings" [.lit "patchMode" "AutomaticByOS"]]),
      .property "linuxConfiguration" (settingsFor .linux
        [.flag "disablePasswordAuthentication" false, .flag "provisionVMAgent" true])],
   .nest "storageProfile"
     [.ref "imageReference" "imageReference",
      .nest "osDisk"
        [.property "name" (.interp (hole "resourceNameFormatted" ++ "-osdisk")),
         .lit "createOption" "FromImage",
         .lit "caching" "ReadWrite",
         .nest "managedDisk" [.ref "storageAccountType" "osDiskType"],
         .property "diskSizeGB" (.int 128)]],
   .nest "networkProfile"
     [.property "networkInterfaces" (.array [.object
       [.ref "id" (networkInterfaceSymbol symbol ++ ".id"),
        .nest "properties" [.flag "primary" true]]])]] ++
  Body.onlyIf config.includeBootDiagnostics
    [.nest "diagnosticsProfile" [.nest "bootDiagnostics" [.flag "enabled" true]]]

/-- A virtual machine with its disk, image and the network interface made for it. -/
def virtualMachineRecipe : Recipe where
  parameters? := some fun config =>
    [choice "vmSize" "Virtual machine size"
       ["Standard_B1s", "Standard_B1ms", "Standard_B2s", "Standard_B2ms", "Standard_D2s_v3",
        "Standard_D4s_v3", "Standard_D8s_v3"] config.vmSize,
     { name := "adminUsername", type := .string
       decorators := [.description "Admin username for the VM", .minLength 3, .maxLength 20]
       default? := some (.str config.adminUsername) },
     { name := "adminPassword", type := .string
       decorators := [.description "Admin password for the VM", .secure, .minLength 8] },
     choice "osType" "Operating system type" ["Windows", "Linux"] config.osType.name,
     choice "osDiskType" "OS disk type" ["Standard_LRS", "StandardSSD_LRS", "Premium_LRS"]
       "StandardSSD_LRS",
     { name := "subnetId", type := .string : Param }.describe
       "Subnet resource ID for the VM network interface",
     switch "enableAcceleratedNetworking" "Enable accelerated networking" false,
     ({ name := "imageReference", type := .object : Param }.describe
       "VM image configuration").withDefault (.object (imageReference config.osType))]
  settings? := some fun symbol config => [.nest "properties" (virtualMachineSettings symbol config)]
  outputs symbol :=
    let interface := networkInterfaceSymbol symbol
    [{ name := "privateIPAddress", type := .string
       value := .expr
         (interface ++ ".properties.ipConfigurations[0].properties.privateIPAddress")
       description? := some "Private IP address of the virtual machine" },
     { name := "networkInterfaceId", type := .string
       value := .expr (interface ++ ".id")
       description? := some "Network interface resource ID" },
     { name := "vmSize", type := .string
       value := .expr (symbol ++ ".properties.hardwareProfile.vmSize")
       description? := some "Virtual machine size" },
     { name := "osType", type := .string
       value := .expr "osType"
       description? := some "Operating system type" },
     { name := "computerName", type := .string
       value := .expr (symbol ++ ".properties.osProfile.computerName")
       description? := some "Computer name" }]

/-- The name, location and tags that every declared resource has. -/
def identity (name : Value) (located : Bool) : Body :=
  .property "name" name ::
    Body.onlyIf located [.ref "location" "location", .ref "tags" "commonTags"]

def networkInterface (vmSymbol apiVersion : String) (located : Bool) : Resource where
  symbol := networkInterfaceSymbol vmSymbol
  type := Registry.networkInterfaceType
  apiVersion
  comment? := some "Network Interface for the Virtual Machine"
  body :=
    identity (.interp (hole "resourceNameFormatted" ++ "-nic")) located ++
      [.nest "properties"
        [.property "ipConfigurations" (.array [.object
           [.lit "name" "ipconfig1",
            .nest "properties"
              [.lit "privateIPAllocationMethod" "Dynamic",
               .nest "subnet" [.ref "id" "subnetId"]]]]),
         .ref "enableAcceleratedNetworking" "enableAcceleratedNetworking"]]

end BicepForge.Generation
