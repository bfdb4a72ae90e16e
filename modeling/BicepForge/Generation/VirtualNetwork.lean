import BicepForge.Generation.Recipe

/-!
# The recipe of virtual networks
-/

namespace BicepForge.Generation

open Bicep

/-- A reference of a subnet that may be null, as an object with an id. -/
def optionalId (expression : String) : Value :=
  .conditional (expression ++ " != null") (.object [.ref "id" expression]) .null

/-- Address spaces and subnets come as parameters; the subnets are brought into form by a
variable. -/
def virtualNetworkRecipe : Recipe where
  parameters? := some fun config =>
    [({ name := "addressSpaces", type := .array : Param }.describe
        "Address space for the virtual network").withDefault (.strings [config.vnetAddressSpace]),
     ({ name := "subnets", type := .array : Param }.describe "Subnets configuration").withDefault
        (.array [.object
          [.lit "name" "default",
           .lit "addressPrefix" config.subnetAddressSpace,
           .property "networkSecurityGroup" .null,
           .property "routeTable" .null]]),
     switch "enableDdosProtection" "Enable DDoS protection" false,
     switch "enableVmProtection" "Enable VM protection" false]
  vars :=
    [⟨"subnetsFormatted", .forEach "(subnet, i)" "subnets" (.object
      [.ref "name" "subnet.name",
       .nest "properties"
         [.ref "addressPrefix" "subnet.addressPrefix",
          .property "networkSecurityGroup" (optionalId "subnet.networkSecurityGroup"),
          .property "routeTable" (optionalId "subnet.routeTable")]])⟩]
  settings? := some fun _ _ =>
    [.nest "properties"
      [.nest "addressSpace" [.ref "addressPrefixes" "addressSpaces"],
       .ref "subnets" "subnetsFormatted",
       .ref "enableDdosProtection" "enableDdosProtection",
       .ref "enableVmProtection" "enableVmProtection"]]
  outputs symbol :=
    [{ name := "addressSpace", type := .array
       value := .expr (symbol ++ ".properties.addressSpace.addressPrefixes")
       description? := some "Address space of the virtual network" },
     { name := "subnets", type := .array
       value := .forEach "(subnet, i)" (symbol ++ ".properties.subnets") (.object
         [.ref "name" "subnet.name",
          .ref "id" "subnet.id",
          .ref "addressPrefix" "subnet.properties.addressPrefix"])
       description? := some "Subnets in the virtual network" }]

end BicepForge.Generation
